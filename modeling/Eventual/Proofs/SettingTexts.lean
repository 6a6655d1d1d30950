import Eventual.Proofs.Trimming
import Eventual.Settings
import Mathlib.Data.Nat.Digits.Defs
import Mathlib.Tactic.Common

/-!
# What the texts of settings say

A text for a setting is taken without the blanks around it.  It says a truth value if what is left
is one of a few words, the case of their letters aside (`Settings.Says`), and it gives a limit if
what is left is a possible limit written in decimal digits, with a plus sign in front or without
(`FrameLimit.Writes`).

Digits are read from the front, and reading stops when the number read so far does not fit in a
machine word.  Since that number never becomes smaller, reading succeeds exactly with the numbers
that fit (`FrameLimit.digitsFrom_eq_ok_iff`).  So each setting is what its own text says, and there
is a warning exactly for each text that says nothing (`Settings.Warned`).
-/

namespace Eventual

/-! ## Numbers in digits -/

namespace FrameLimit

/-- A number is written in decimal digits, the first of them worth most, with a plus sign in front
or without. -/
def Writes (cs : List Char) (n : Nat) : Prop :=
  ∃ ds : List Nat, ds ≠ [] ∧ (∀ d ∈ ds, d < 10) ∧
    (cs = ds.map Nat.digitChar ∨ cs = '+' :: ds.map Nat.digitChar) ∧ n = Nat.ofDigits 10 ds.reverse

variable {n m d : Nat} {c : Char} {cs : List Char}

/-- A digit is the character of a number below ten. -/
lemma exists_digitChar (h : c.isDigit = true) : ∃ d < 10, c = Nat.digitChar d := by
  obtain ⟨hlow, hhigh⟩ := Char.isDigit_iff_toNat.mp h
  have hzero : '0'.toNat = 48 := rfl
  have hnine : '9'.toNat = 57 := rfl
  have hlt : c.toNat - 48 < 10 := by omega
  refine ⟨c.toNat - 48, hlt, Char.toNat_inj.mp ?_⟩
  rw [Nat.toNat_digitChar_of_lt_ten hlt]
  omega

lemma digitsFrom_digitChar (hd : d < 10) : digitsFrom n (Nat.digitChar d :: cs) =
    if n * 10 + d < wordCount then digitsFrom (n * 10 + d) cs else .error .tooLarge := by
  have hdigit : (Nat.digitChar d).isDigit = true := by
    rw [Nat.isDigit_digitChar, decide_eq_true hd]
  have hvalue : (Nat.digitChar d).toNat - '0'.toNat = d := by
    rw [Nat.toNat_digitChar_of_lt_ten hd]
    exact Nat.add_sub_cancel_left 48 d
  rw [digitsFrom, if_pos hdigit, hvalue]

/-- One more digit is read by multiplying what has been read by ten. -/
lemma ofDigits_step (ds : List Nat) :
    Nat.ofDigits 10 ((d :: ds).reverse ++ [n]) = Nat.ofDigits 10 (ds.reverse ++ [n * 10 + d]) := by
  have hpair : Nat.ofDigits 10 [d, n] = n * 10 + d := by
    rw [Nat.ofDigits_cons, Nat.ofDigits_singleton]
    omega
  rw [List.reverse_cons, List.append_assoc, List.singleton_append, Nat.ofDigits_append, hpair,
    Nat.ofDigits_append, Nat.ofDigits_singleton]

/-- What has been read is no more than the whole. -/
lemma le_ofDigits (ds : List Nat) : n ≤ Nat.ofDigits 10 (ds.reverse ++ [n]) := by
  rw [Nat.ofDigits_append, Nat.ofDigits_singleton]
  have hpos : 0 < 10 ^ ds.reverse.length := Nat.pow_pos (by decide)
  have hle : n ≤ 10 ^ ds.reverse.length * n := Nat.le_mul_of_pos_left n hpos
  omega

/-- **Reading succeeds exactly with the digits of a number that fits in a machine word**, `n` being
the number read before. -/
theorem digitsFrom_eq_ok_iff (hn : n < wordCount) : digitsFrom n cs = .ok m ↔
    ∃ ds : List Nat, (∀ d ∈ ds, d < 10) ∧ cs = ds.map Nat.digitChar ∧
      m = Nat.ofDigits 10 (ds.reverse ++ [n]) ∧ m < wordCount := by
  induction cs generalizing n with
  | nil =>
    constructor
    · intro h
      cases h
      exact ⟨[], by simp, rfl, by simp, hn⟩
    · rintro ⟨ds, -, hcs, rfl, -⟩
      obtain rfl := List.map_eq_nil_iff.mp hcs.symm
      simp [digitsFrom]
  | cons c cs ih =>
    constructor
    · intro h
      by_cases hc : c.isDigit = true
      · obtain ⟨d, hd, rfl⟩ := exists_digitChar hc
        rw [digitsFrom_digitChar hd] at h
        split at h
        · rename_i hfits
          obtain ⟨ds, hds, rfl, rfl, hm⟩ := (ih hfits).mp h
          exact ⟨d :: ds, List.forall_mem_cons.mpr ⟨hd, hds⟩, rfl, (ofDigits_step ds).symm, hm⟩
        · cases h
      · rw [digitsFrom, if_neg hc] at h
        cases h
    · rintro ⟨ds, hds, hcs, rfl, hm⟩
      cases ds with
      | nil => cases hcs
      | cons d ds =>
        obtain ⟨rfl, rfl⟩ := List.cons.inj hcs
        obtain ⟨hd, hds⟩ := List.forall_mem_cons.mp hds
        -- if the whole fits, so does what has been read with this digit
        have hle : n * 10 + d ≤ Nat.ofDigits 10 ((d :: ds).reverse ++ [n]) :=
          ofDigits_step ds ▸ le_ofDigits ds
        have hfits : n * 10 + d < wordCount := Nat.lt_of_le_of_lt hle hm
        rw [digitsFrom_digitChar hd, if_pos hfits]
        exact (ih hfits).mpr ⟨ds, hds, rfl, ofDigits_step ds, hm⟩

lemma digitsFrom_zero_eq_ok_iff : digitsFrom 0 cs = .ok n ↔ ∃ ds : List Nat,
    (∀ d ∈ ds, d < 10) ∧ cs = ds.map Nat.digitChar ∧ n = Nat.ofDigits 10 ds.reverse ∧
      n < wordCount := by
  have hzero : ∀ ds : List Nat, Nat.ofDigits 10 (ds.reverse ++ [0]) = Nat.ofDigits 10 ds.reverse :=
    fun ds => by rw [Nat.ofDigits_append, Nat.ofDigits_singleton, Nat.mul_zero, Nat.add_zero]
  simp only [digitsFrom_eq_ok_iff (by decide : 0 < wordCount), hzero]

lemma head?_ne_plus {ds : List Nat} (hds : ∀ d ∈ ds, d < 10) :
    (ds.map Nat.digitChar).head? ≠ some '+' := by
  cases ds with
  | nil => simp
  | cons d ds =>
    intro h
    have hplus : Nat.digitChar d = '+' := Option.some.inj h
    have hdigit : (Nat.digitChar d).isDigit = true := by
      rw [Nat.isDigit_digitChar, decide_eq_true (hds d (.head ds))]
    rw [hplus] at hdigit
    cases hdigit

lemma readNumber_plus (hne : cs ≠ []) : readNumber ('+' :: cs) = digitsFrom 0 cs := by
  cases cs with
  | nil => exact absurd rfl hne
  | cons c cs => rfl

lemma readNumber_of_ne_plus (hne : cs ≠ []) (hplus : cs.head? ≠ some '+') :
    readNumber cs = digitsFrom 0 cs := by
  cases cs with
  | nil => exact absurd rfl hne
  | cons c cs =>
    have hc : c ≠ '+' := fun heq => hplus (congrArg some heq)
    simp [readNumber, hc]

/-- Digits are read with a plus sign in front or without.  A sign alone is no number, and neither is
nothing at all. -/
theorem readNumber_eq_ok_iff : readNumber cs = .ok n ↔ Writes cs n ∧ n < wordCount := by
  constructor
  · intro h
    have hne : cs ≠ [] := by
      rintro rfl
      cases h
    by_cases hplus : cs.head? = some '+'
    · obtain ⟨rest, rfl⟩ : ∃ rest, cs = '+' :: rest := ⟨_, List.eq_cons_of_mem_head? hplus⟩
      have hrest : rest ≠ [] := by
        rintro rfl
        cases h
      rw [readNumber_plus hrest, digitsFrom_zero_eq_ok_iff] at h
      obtain ⟨ds, hds, rfl, rfl, hn⟩ := h
      exact ⟨⟨ds, by simpa using hrest, hds, Or.inr rfl, rfl⟩, hn⟩
    · rw [readNumber_of_ne_plus hne hplus, digitsFrom_zero_eq_ok_iff] at h
      obtain ⟨ds, hds, rfl, rfl, hn⟩ := h
      exact ⟨⟨ds, by simpa using hne, hds, Or.inl rfl, rfl⟩, hn⟩
  · rintro ⟨⟨ds, hne, hds, hcs, rfl⟩, hn⟩
    have hne' : ds.map Nat.digitChar ≠ [] := by simpa using hne
    have hread : digitsFrom 0 (ds.map Nat.digitChar) = .ok (Nat.ofDigits 10 ds.reverse) :=
      digitsFrom_zero_eq_ok_iff.mpr ⟨ds, hds, rfl, rfl, hn⟩
    rcases hcs with rfl | rfl
    · rw [readNumber_of_ne_plus hne' (head?_ne_plus hds), hread]
    · rw [readNumber_plus hne', hread]

/-- **A limit is read exactly if it is written.** -/
theorem read_eq_ok_iff {limit : FrameLimit} : read cs = .ok limit ↔ Writes cs limit.value := by
  constructor
  · intro h
    rw [read] at h
    split at h
    · cases h
    · rename_i n hn
      split at h
      · rename_i limit' hlimit
        cases h
        obtain rfl : limit.value = n := by
          rw [ofNat?] at hlimit
          split at hlimit
          · cases hlimit
            rfl
          · cases hlimit
        exact (readNumber_eq_ok_iff.mp hn).1
      · cases h
  · intro h
    have hread := readNumber_eq_ok_iff.mpr ⟨h, limit.fits⟩
    have hlimit : ofNat? limit.value = some limit := dif_pos ⟨limit.pos, limit.fits⟩
    simp only [read, hread, hlimit]

end FrameLimit

/-! ## The settings -/

namespace Settings

/-- A text is one of some words, the blanks around it and the case of its letters aside. -/
def Says (words : List String) (text : String) : Prop :=
  ∃ core, Trimmed Text.isBlank text.toList core ∧ String.ofList (core.map Char.toLower) ∈ words

/-- A text is a number of frames that is a possible limit, the blanks around it aside. -/
def Limits (text : String) (n : Nat) : Prop :=
  ∃ core, Trimmed Text.isBlank text.toList core ∧ FrameLimit.Writes core n ∧ 1 ≤ n ∧ n ≤ 2 ^ 64 - 1

/-- The words for yes. -/
def yesWords : List String := ["1", "true", "on", "yes"]

/-- The words for no. -/
def noWords : List String := ["0", "false", "off", "no"]

/-- What is warned of because of a text: nothing if there is none or if it is accepted, and itself
otherwise. -/
inductive Warned (accepted : String → Prop) (warns : String → Warning → Prop) :
    Option String → List Warning → Prop
  | missing : Warned accepted warns none []
  | accepted {text : String} (h : accepted text) : Warned accepted warns (some text) []
  | rejected {text : String} {warning : Warning} (h : ¬ accepted text) (own : warns text warning) :
      Warned accepted warns (some text) [warning]

variable {text : String} {words : List String} {n : Nat}

lemma says_iff : Says words text ↔
    String.ofList ((Text.trimChars text.toList).map Char.toLower) ∈ words := by
  constructor
  · rintro ⟨core, hcore, h⟩
    obtain rfl := hcore.eq
    exact h
  · exact fun h => ⟨_, trimmed_dropWhile Text.isBlank text.toList, h⟩

lemma limits_iff : Limits text n ↔
    ∃ limit, FrameLimit.read (Text.trimChars text.toList) = .ok limit ∧ limit.value = n := by
  constructor
  · rintro ⟨core, hcore, hwrites, hpos, hle⟩
    obtain rfl := hcore.eq
    have hfits : n < wordCount := by
      rw [wordCount]
      omega
    exact ⟨⟨n, hpos, hfits⟩, FrameLimit.read_eq_ok_iff.mpr hwrites, rfl⟩
  · rintro ⟨limit, hread, rfl⟩
    have hfits := limit.fits
    rw [wordCount] at hfits
    exact ⟨_, trimmed_dropWhile Text.isBlank text.toList, FrameLimit.read_eq_ok_iff.mp hread,
      limit.pos, by omega⟩

/-- No word says both. -/
lemma not_mem_noWords {word : String} (h : word ∈ yesWords) : word ∉ noWords := by
  revert word
  decide

lemma readFlag_eq_some_true_iff : readFlag text = some true ↔ Says yesWords text := by
  rw [says_iff]
  change (if _ ∈ yesWords then some true else if _ ∈ noWords then some false else none) =
    some true ↔ _
  split
  · simpa
  · split <;> simpa

lemma readFlag_eq_some_false_iff : readFlag text = some false ↔ Says noWords text := by
  rw [says_iff]
  change (if _ ∈ yesWords then some true else if _ ∈ noWords then some false else none) =
    some false ↔ _
  split
  · rename_i h
    simpa using not_mem_noWords h
  · split <;> simpa

lemma readFlag_eq_none_iff : readFlag text = none ↔ ¬ (Says yesWords text ∨ Says noWords text) := by
  rw [← readFlag_eq_some_true_iff, ← readFlag_eq_some_false_iff]
  rcases readFlag text with _ | _ | _ <;> simp

variable {flag? limit? : Option String}

lemma captureTraces_eq_false_iff : (captureTracesOf flag?).1 = false ↔
    ∃ text, flag? = some text ∧ Says noWords text := by
  cases flag? with
  | none => simp [captureTracesOf, standard]
  | some text =>
    simp only [Option.some.injEq, exists_eq_left', ← readFlag_eq_some_false_iff, captureTracesOf]
    rcases readFlag text with _ | flag <;> simp [standard]

lemma warned_captureTraces (flag? : Option String) :
    Warned (fun text => Says yesWords text ∨ Says noWords text)
      (fun text warning => warning = .captureTraces text) flag? (captureTracesOf flag?).2 := by
  cases flag? with
  | none => exact .missing
  | some text =>
    rw [captureTracesOf]
    split
    · rename_i flag hflag
      refine .accepted (Classical.not_not.mp fun hnot => ?_)
      rw [readFlag_eq_none_iff.mpr hnot] at hflag
      cases hflag
    · rename_i hnone
      exact .rejected (readFlag_eq_none_iff.mp hnone) rfl

/-- A text that cannot be read gives no limit. -/
lemma not_limits {fault : NumberFault}
    (h : FrameLimit.read (Text.trimChars text.toList) = .error fault) : ¬ Limits text n := by
  intro hlimits
  obtain ⟨limit, hread, -⟩ := limits_iff.mp hlimits
  cases h.symm.trans hread

lemma maxFrames_eq_iff (n : Nat) : (maxFramesOf limit?).1.value = n ↔
    (∃ text, limit? = some text ∧ Limits text n) ∨
      (n = 64 ∧ ¬ ∃ text n', limit? = some text ∧ Limits text n') := by
  cases limit? with
  | none => simp [maxFramesOf, standard, FrameLimit.standard, eq_comm]
  | some text =>
    simp only [Option.some.injEq, exists_and_left, exists_eq_left', maxFramesOf]
    split
    · rename_i limit hread
      have hlimits : ∀ n, Limits text n ↔ limit.value = n := fun n => by
        simp [limits_iff, hread]
      simp [hlimits]
    · rename_i fault hread
      simp [not_limits hread, standard, FrameLimit.standard, eq_comm]

lemma warned_maxFrames (limit? : Option String) :
    Warned (fun text => ∃ n, Limits text n)
      (fun text warning => ∃ fault, warning = .maxFrames text fault) limit?
      (maxFramesOf limit?).2 := by
  cases limit? with
  | none => exact .missing
  | some text =>
    rw [maxFramesOf]
    split
    · rename_i limit hread
      exact .accepted ⟨_, limits_iff.mpr ⟨limit, hread, rfl⟩⟩
    · rename_i fault hread
      exact .rejected (fun ⟨_, h⟩ => not_limits hread h) ⟨fault, rfl⟩

/-- **The settings are what the texts say.**  Stacks are captured unless the text for this says no.
At most so many frames are kept as the other text says, and 64 if it does not say a possible limit.
Neither text has to do with the other setting.  There is a warning for each text that is there and
says nothing, the one for the capture of stacks first, and there are no other warnings. -/
theorem texts_decide (flag? limit? : Option String) :
    ((ofTexts flag? limit?).1.captureTraces = false ↔ ∃ text, flag? = some text ∧
      Says noWords text) ∧
    (∀ n, (ofTexts flag? limit?).1.maxFrames.value = n ↔
      (∃ text, limit? = some text ∧ Limits text n) ∨
        (n = 64 ∧ ¬ ∃ text n', limit? = some text ∧ Limits text n')) ∧
    (∀ other?, (ofTexts flag? other?).1.captureTraces = (ofTexts flag? limit?).1.captureTraces ∧
      (ofTexts other? limit?).1.maxFrames = (ofTexts flag? limit?).1.maxFrames) ∧
    ∃ flagWarnings limitWarnings, (ofTexts flag? limit?).2 = flagWarnings ++ limitWarnings ∧
      Warned (fun text => Says yesWords text ∨ Says noWords text)
        (fun text warning => warning = .captureTraces text) flag? flagWarnings ∧
      Warned (fun text => ∃ n, Limits text n)
        (fun text warning => ∃ fault, warning = .maxFrames text fault) limit? limitWarnings := by
  refine ⟨captureTraces_eq_false_iff, maxFrames_eq_iff, fun _ => ⟨rfl, rfl⟩,
    _, _, rfl, warned_captureTraces flag?, warned_maxFrames limit?⟩

/-- The blanks around a text may be any, and a number may be one too large. -/
example : ofTexts (some "\u2003No ") (some "18446744073709551616") =
    (withoutTraces, [.maxFrames "18446744073709551616" .tooLarge]) := by
  decide

end Settings

end Eventual
