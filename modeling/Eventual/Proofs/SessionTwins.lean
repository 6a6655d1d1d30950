import Eventual.Proofs.Interleaving
import Eventual.Proofs.SessionLikeness

/-!
# Steps of sessions keep to themselves

Two parties share a session if every name belongs to one of them.  A step that uses names of one
party only, and neither drives the clock nor sleeps, keeps to itself: it does the same in a session
that its party runs alone (`Step.twins`).  So the steps of two sessions can be run in turns, and
this is an interleaving of programs (`woven_course`).
-/

namespace Eventual.Session

/-! ## What is noted -/

/-- The same answer, up to what differs between any two runs, or any two numbers: the tasks of both
parties are counted. -/
inductive Reply.Twin (S : Option Segment → Option Segment → Prop) : Reply → Reply → Prop
  | alike {r r' : Reply} (reply : r.Alike S r') : Twin S r r'
  | count (n n' : Nat) : Twin S (.count n) (.count n')

/-- A note of a party alone and in the shared run. -/
inductive Note.Twin (S : Option Segment → Option Segment → Prop) : Note → Note → Prop
  | called (tag : String) (at_ : Duration) {x x' : Seen} (seen : x.Alike S x') :
      Twin S (.called tag at_ x) (.called tag at_ x')
  | act {r r' : Reply} (reply : r.Twin S r') : Twin S (.act r) (.act r')
  | answered {r r' : Reply} (reply : r.Twin S r') : Twin S (.answered r) (.answered r')

section

variable {S S' : Option Segment → Option Segment → Prop}

lemma Seen.Alike.imp {x x' : Seen} (h : x.Alike S x') (hS : ∀ s s', S s s' → S' s s') :
    x.Alike S' x' := by
  cases h with
  | same x => exact .same x
  | failure trace => exact .failure (trace.imp hS)

lemma Received.Alike.imp {x x' : Received} (h : x.Alike S x') (hS : ∀ s s', S s s' → S' s s') :
    x.Alike S' x' :=
  ⟨h.value_eq, optionRel_imp h.trace fun _ _ ht => ht.imp hS⟩

lemma Reply.Twin.imp {r r' : Reply} (h : r.Twin S r') (hS : ∀ s s', S s s' → S' s s') :
    r.Twin S' r' := by
  cases h with
  | count n n' => exact .count n n'
  | alike reply =>
    cases reply with
    | same r => exact .alike (.same r)
    | text s s' => exact .alike (.text s s')
    | segment s? s?' => exact .alike (.segment s? s?')
    | trace trace => exact .alike (.trace (optionRel_imp trace fun _ _ ht => ht.imp hS))

lemma Note.Twin.imp {n n' : Note} (h : n.Twin S n') (hS : ∀ s s', S s s' → S' s s') :
    n.Twin S' n' := by
  cases h with
  | called tag at_ seen => exact .called tag at_ (seen.imp hS)
  | act reply => exact .act (reply.imp hS)
  | answered reply => exact .answered (reply.imp hS)

end

/-! ## What is remembered -/

namespace Names

variable {α : Type}

lemma lookup_cons (n other : String) (b : α) (l : List (String × α)) :
    ((n, b) :: l).lookup other = if other = n then some b else l.lookup other := by
  rw [List.lookup_cons]
  by_cases h : other = n
  · rw [if_pos h, beq_iff_eq.mpr h]
  · rw [if_neg h, beq_eq_false_iff_ne.mpr h]

lemma lookup_insertEntry (name other : String) (a : α) (l : List (String × α)) :
    (insertEntry name a l).lookup other = if other = name then some a else l.lookup other := by
  induction l with
  | nil => rw [insertEntry, lookup_cons]
  | cons e rest ih =>
    obtain ⟨n, b⟩ := e
    unfold insertEntry
    split
    · exact lookup_cons name other a _
    · split
      · rename_i heq
        rw [lookup_cons, lookup_cons, ← heq]
        split <;> rfl
      · rename_i hne
        rw [lookup_cons, lookup_cons, ih]
        by_cases h : other = name
        · rw [if_pos h, if_pos h, if_neg (h ▸ hne)]
        · rw [if_neg h, if_neg h]

lemma find?_insert (t : Names α) (name other : String) (a : α) :
    (t.insert name a).find? other = if other = name then some a else t.find? other :=
  lookup_insertEntry name other a t.entries

lemma find?_erase (t : Names α) (name other : String) :
    (t.erase name).find? other = if other = name then none else t.find? other := by
  obtain ⟨l⟩ := t
  change (l.filter fun e => e.1 ≠ name).lookup other = if other = name then none else l.lookup other
  induction l with
  | nil => exact (ite_self none).symm
  | cons e rest ih =>
    obtain ⟨n, b⟩ := e
    by_cases hn : n = name
    · rw [List.filter_cons_of_neg (by simpa using hn), ih, lookup_cons, hn]
      split <;> rfl
    · rw [List.filter_cons_of_pos (by simpa using hn), lookup_cons, lookup_cons, ih]
      by_cases h : other = name
      · rw [if_pos h, if_neg (h ▸ Ne.symm hn), if_pos h]
      · rw [if_neg h, if_neg h]

end Names

/-- A promise of a session alone and in the shared run. -/
structure Handle.Twin (ρ : Renaming) (h h' : Handle) : Prop where
  kind_eq : h.kind = h'.kind
  id : ρ.promise h.id h'.id

/-- A kept callback alone and in the shared run. -/
def keptTwin (ρ : Renaming) (d d' : Script.Callback) : Prop := ρ.promise d.target d'.target

namespace Ledger

/-- A name stands for the same, alone and in the shared run. -/
structure Agrees (ρ : Renaming) (x x' : Ledger) (name : String) : Prop where
  promises : Option.Rel (Handle.Twin ρ) (x.promises.find? name) (x'.promises.find? name)
  kept : Option.Rel (keptTwin ρ) (x.kept.find? name) (x'.kept.find? name)

/-- Only one name stands for something else. -/
def SameBut (name : String) (x x' : Ledger) : Prop :=
  ∀ other, other ≠ name → x'.promises.find? other = x.promises.find? other ∧
    x'.kept.find? other = x.kept.find? other

variable {ρ ρ' : Renaming} {x x' y y' : Ledger} {name other : String}

lemma Agrees.mono (h : Agrees ρ x x' name) (hle : ρ ≤ ρ') : Agrees ρ' x x' name where
  promises := optionRel_imp h.promises fun _ _ hp => ⟨hp.kind_eq, hp.id.mono hle⟩
  kept := optionRel_imp h.kept fun _ _ hd => hd.mono hle

lemma Agrees.sameBut (h : Agrees ρ x x' other) (hne : other ≠ name) (hy : SameBut name x y)
    (hy' : SameBut name x' y') : Agrees ρ y y' other := by
  obtain ⟨hp, hk⟩ := hy other hne
  obtain ⟨hp', hk'⟩ := hy' other hne
  constructor
  · rw [hp, hp']
    exact h.promises
  · rw [hk, hk']
    exact h.kept

lemma SameBut.refl (name : String) (x : Ledger) : SameBut name x x := fun _ _ => ⟨rfl, rfl⟩

lemma sameBut_insert (x : Ledger) (name : String) (h : Handle) :
    SameBut name x { x with promises := x.promises.insert name h } := fun other hne =>
  ⟨by rw [Names.find?_insert, if_neg hne], rfl⟩

lemma sameBut_erase (x : Ledger) (name : String) :
    SameBut name x { x with promises := x.promises.erase name } := fun other hne =>
  ⟨by rw [Names.find?_erase, if_neg hne], rfl⟩

lemma sameBut_insert_kept (x : Ledger) (name : String) (d : Script.Callback) :
    SameBut name x { x with kept := x.kept.insert name d } := fun other hne =>
  ⟨rfl, by rw [Names.find?_insert, if_neg hne]⟩

lemma sameBut_erase_kept (x : Ledger) (name : String) :
    SameBut name x { x with kept := x.kept.erase name } := fun other hne =>
  ⟨rfl, by rw [Names.find?_erase, if_neg hne]⟩

end Ledger

/-- The notes of a party say the same, if what its captures keep is `f` alone and `g` in the shared
session. -/
def comparison (f g : Nat → Segment) : Comparison Play where
  segment := Segment.Kept f g
  segment_refl _ s := .given s
  note ρ := Note.Twin (Segment.Kept f g ρ)
  segment_mono h hle := h.mono hle
  note_mono h hle := h.imp fun _ _ hs => hs.mono hle

/-- What two parties note and remember in a session, in which every name belongs to one of them. -/
def sharing (f₁ f₂ g : Nat → Segment) (own : String → Bool) : Sharing Play where
  ours := comparison f₁ g
  theirs := comparison f₂ g
  common n₁ n₂ n := ∃ k₁ k₂ k, n₁ = .answered (.count k₁) ∧ n₂ = .answered (.count k₂) ∧
    n = .answered (.count k)
  store ρ₁ ρ₂ x₁ x₂ x := (∀ name, own name = true → Ledger.Agrees ρ₁ x₁ x name) ∧
    ∀ name, own name = false → Ledger.Agrees ρ₂ x₂ x name
  store_mono h h₁ h₂ :=
    ⟨fun name hname => (h.1 name hname).mono h₁, fun name hname => (h.2 name hname).mono h₂⟩

/-- Some names belong to us. -/
structure Serves (D : Sharing Play) (N : String → Prop) : Prop where
  note : ∀ {ρ n n'}, Note.Twin (D.ours.segment ρ) n n' → D.ours.note ρ n n'
  agrees : ∀ {ρ₁ ρ₂ x₁ x₂ x name}, D.store ρ₁ ρ₂ x₁ x₂ x → N name → Ledger.Agrees ρ₁ x₁ x name
  change : ∀ {ρ₁ ρ₂ x₁ x₂ x y₁ y name}, D.store ρ₁ ρ₂ x₁ x₂ x → N name →
    Ledger.Agrees ρ₁ y₁ y name → Ledger.SameBut name x₁ y₁ → Ledger.SameBut name x y →
      D.store ρ₁ ρ₂ y₁ x₂ y

section

variable {f₁ f₂ g : Nat → Segment} {own : String → Bool}

lemma serves_ours : Serves (sharing f₁ f₂ g own) (own · = true) where
  note h := h
  agrees hx hname := hx.1 _ hname
  change {_ _ _ _ _ _ _ name} hx hname hy hsame₁ hsame := by
    refine ⟨fun other hother => ?_, fun other hother => ?_⟩
    · by_cases hne : other = name
      · exact hne ▸ hy
      · exact (hx.1 other hother).sameBut hne hsame₁ hsame
    · have hne : other ≠ name := fun heq => by simp [heq, hname] at hother
      exact (hx.2 other hother).sameBut hne (.refl _ _) hsame

lemma serves_theirs : Serves (sharing f₁ f₂ g own).swap (own · = false) where
  note h := h
  agrees hx hname := hx.2 _ hname
  change {_ _ _ _ _ _ _ name} hx hname hy hsame₁ hsame := by
    refine ⟨fun other hother => ?_, fun other hother => ?_⟩
    · have hne : other ≠ name := fun heq => by simp [heq, hname] at hother
      exact (hx.1 other hother).sameBut hne (.refl _ _) hsame
    · by_cases hne : other = name
      · exact hne ▸ hy
      · exact (hx.2 other hother).sameBut hne hsame₁ hsame

end

/-! ## The names that a step uses -/

mutual

/-- A source uses only these names. -/
def Source.Within (N : String → Prop) : Source → Prop
  | .named name => N name
  | .made m => m.Within N
  | .unknown _ => True
termination_by structural s => s

/-- Several sources use only these names. -/
def sourcesWithin (N : String → Prop) : List Source → Prop
  | [] => True
  | s :: rest => s.Within N ∧ sourcesWithin N rest
termination_by structural ss => ss

/-- What is made gets one of these names, and uses only these. -/
def Making.Within (N : String → Prop) : Making → Prop
  | .mk as? recipe => (∀ name, as? = some name → N name) ∧ recipe.Within N
termination_by structural m => m

/-- A recipe uses only these names. -/
def Recipe.Within (N : String → Prop) : Recipe → Prop
  | .promise _ _ | .ofValue _ | .ofError _ | .fulfillAfter _ _ | .failAfter _ _ => True
  | .select inputs | .join inputs => sourcesWithin N inputs
  | .joinPair first second => first.Within N ∧ second.Within N
  | .withTimeout input _ | .elapsed input | .chain input _ => input.Within N
  | .keepTrying attempts _ _ onError => sourcesWithin N attempts ∧ onError.Within N
  | .defer _ callback _ => callback.Within N
  | .deferLazily callback result => callback.Within N ∧ result.Within N
  | .fromCallback _ keep? _ => ∀ name, keep? = some name → N name
  | .andThen source callback _ | .andThenApply source callback _ =>
    source.Within N ∧ callback.Within N
  | .andThenLazily source callback result =>
    source.Within N ∧ callback.Within N ∧ result.Within N
termination_by structural recipe => recipe

/-- The steps of a callback use only these names. -/
def Callback.Within (N : String → Prop) : Callback → Prop
  | .mk _ acts => stepsWithin N acts
termination_by structural callback => callback

/-- A callback, if there is one, uses only these names. -/
def callbackWithin (N : String → Prop) : Option Callback → Prop
  | none => True
  | some callback => callback.Within N
termination_by structural callback? => callback?

/-- Several steps use only these names. -/
def stepsWithin (N : String → Prop) : List Step → Prop
  | [] => True
  | s :: rest => s.Within N ∧ stepsWithin N rest
termination_by structural ss => ss

/-- A cause uses only these names. -/
def Cause.Within (N : String → Prop) : Cause → Prop
  | .received => True
  | .traceOf p => p.Within N
termination_by structural cause => cause

/-- A step uses only these names, as do its callbacks, and neither drives the clock nor sleeps. -/
def Step.Within (N : String → Prop) : Step → Prop
  | .make m => m.Within N
  | .fulfill p _ | .fail p _ | .peek p | .state p | .trace p | .segment p | .debug p | .debugTrace p
  | .sameRuntime p => p.Within N
  | .failBecause p _ cause => p.Within N ∧ cause.Within N
  | .observe p onValue onError => p.Within N ∧ callbackWithin N onValue ∧ callbackWithin N onError
  | .forward _ source target => source.Within N ∧ target.Within N
  | .schedule _ callback => callback.Within N
  | .call name _ | .drop name => N name
  | .debugRuntime | .now | .pending | .unknown _ => True
  | .drive _ | .sleep _ => False
termination_by structural s => s

end

/-! ## Scripts that may be refused -/

/-- Two scripts that may be refused are twins. -/
def Act.Twins (D : Sharing Play) {α : Type} (R : Renaming → α → α → Prop) (ρ : Renaming)
    (c : Company Play) (y y' : Act α) : Prop :=
  Script.Twins D (fun ρ => Related (R ρ)) ρ c y.run y'.run

variable {D : Sharing Play} {ρ ρ' : Renaming} {c : Company Play} {α β : Type}
  {Q : Renaming → α → α → Prop} {R : Renaming → β → β → Prop}

namespace Act

lemma twins_pure {a a' : α} (h : Q ρ a a') : Act.Twins D Q ρ c (pure a) (pure a') :=
  .pure (.ok h)

lemma twins_throw (r : Refusal) : Act.Twins D Q ρ c (throw r) (throw r) :=
  .pure (.error r)

lemma Twins.bind {y y' : Act α} {f f' : α → Act β} (hy : Act.Twins D Q ρ c y y')
    (hf : ∀ ρ' a a', ρ ≤ ρ' → Q ρ' a a' → Act.Twins D R ρ' c (f a) (f' a')) :
    Act.Twins D R ρ c (y >>= f) (y' >>= f') := by
  refine Script.Twins.bind hy fun ρ' r r' hle hr => ?_
  cases hr with
  | ok h => exact hf ρ' _ _ hle h
  | error r => exact .pure (.error r)

lemma Twins.then {y y' : Act α} {f f' : α → Act β} (hy : Act.Twins D Renaming.same ρ c y y')
    (hf : ∀ ρ' a, ρ ≤ ρ' → Act.Twins D R ρ' c (f a) (f' a)) :
    Act.Twins D R ρ c (y >>= f) (y' >>= f') :=
  hy.bind fun ρ' a _ hle h => h ▸ hf ρ' a hle

lemma twins_lift {s s' : Script Play α} (h : s.Twins D Q ρ c s') :
    Act.Twins D Q ρ c (liftM s) (liftM s') :=
  h.bind fun _ _ _ _ ha => .pure (.ok ha)

/-- What a script answers is told of in the same way. -/
lemma twins_map {s s' : Script Play α} (h : s.Twins D Q ρ c s') {f f' : α → β}
    (hf : ∀ ρ' a a', ρ ≤ ρ' → Q ρ' a a' → R ρ' (f a) (f' a')) :
    Act.Twins D R ρ c (liftM s >>= fun a => pure (f a)) (liftM s' >>= fun a => pure (f' a)) :=
  (twins_lift h).bind fun ρ' a a' hle ha => twins_pure (hf ρ' a a' hle ha)

end Act

/-- The same value was received in both runs, and traces that are alike. -/
abbrev Received.Twin (D : Sharing Play) (ρ : Renaming) (x x' : Received) : Prop :=
  x.Alike (D.ours.segment ρ) x'

lemma Received.Twin.mono {x x' : Received} (h : Received.Twin D ρ x x') (hle : ρ ≤ ρ') :
    Received.Twin D ρ' x x' :=
  h.imp fun _ _ hs => D.ours.segment_mono hs hle

/-! ## Names and kinds -/

section

variable {h h' : Handle}

lemma Handle.Twin.mono (hh : Handle.Twin ρ h h') (hle : ρ ≤ ρ') : Handle.Twin ρ' h h' :=
  ⟨hh.kind_eq, hh.id.mono hle⟩

/-- A script makes a promise of a kind. -/
lemma twins_handle {s s' : Script Play PromiseId} (hs : s.Twins D Renaming.promise ρ c s')
    {k k' : Kind} (hk : k = k') :
    Act.Twins D Handle.Twin ρ c (liftM s >>= fun p => pure ⟨k, p⟩)
      (liftM s' >>= fun p => pure ⟨k', p⟩) :=
  Act.twins_map hs fun _ _ _ _ hp => ⟨hk, hp⟩

lemma twins_ofKind (k : Kind) (hh : Handle.Twin ρ h h') :
    Act.Twins D Renaming.promise ρ c (h.ofKind k) (h'.ofKind k) := by
  unfold Handle.ofKind
  rw [hh.kind_eq]
  split
  · exact Act.twins_pure hh.id
  · exact Act.twins_throw _

lemma twins_idsOfKind (k : Kind) {hs hs' : List Handle}
    (hhs : List.Forall₂ (Handle.Twin ρ) hs hs') :
    Act.Twins D Renaming.inputs ρ c (idsOfKind k hs) (idsOfKind k hs') := by
  induction hs generalizing ρ hs' with
  | nil =>
    cases hhs
    exact Act.twins_pure .nil
  | cons h hs ih =>
    rcases hhs with _ | ⟨hh, hhs⟩
    refine (twins_ofKind k hh).bind fun ρ₁ p p' h₁ hp => ?_
    refine (ih (hhs.imp fun _ _ hh => hh.mono h₁)).bind fun ρ₂ ps ps' h₂ hps => ?_
    exact Act.twins_pure (.cons (hp.mono h₂) hps)

lemma twins_item (hh : Handle.Twin ρ h h') (d : Datum) :
    Act.Twins D Renaming.same ρ c (h.item d) (h'.item d) := by
  unfold Handle.item
  rw [hh.kind_eq]
  split
  · exact Act.twins_pure rfl
  · exact Act.twins_throw _

lemma twins_view (hh : Handle.Twin ρ h h') :
    Act.Twins D (fun ρ => View.Alike (D.ours.segment ρ)) ρ c h.view h'.view :=
  Act.twins_lift (Script.twins_view hh.id)

lemma twins_orFailed {act act' : Act Handle} (hact : Act.Twins D Handle.Twin ρ c act act') :
    (orFailed act).Twins D Renaming.promise ρ c (orFailed act') := by
  have hid : Act.Twins D Renaming.promise ρ c (act >>= fun h => h.ofKind .value)
      (act' >>= fun h => h.ofKind .value) :=
    hact.bind fun _ _ _ _ hh => twins_ofKind .value hh
  refine Script.Twins.bind hid fun ρ' r r' hle hr => ?_
  cases hr with
  | ok hp => exact .pure hp
  | error r => exact Script.twins_ofError _

lemma twins_addOnes {p p' : PromiseId} (hp : ρ.promise p p') (n : Nat) :
    (addOnes p n).Twins D Renaming.promise ρ c (addOnes p' n) := by
  induction n generalizing ρ p p' with
  | zero => exact .pure hp
  | succ n ih =>
    exact (Script.twins_andThen hp fun _ _ _ _ => .pure rfl).bind fun _ _ _ _ hq => ih hq

end

/-! ## Names that belong to a party -/

section

variable {N : String → Prop} (hD : Serves D N)

include hD

lemma twins_note {n n' : Note} (h : n.Twin (D.ours.segment ρ) n') :
    (Script.note (P := Play) n).Twins D Renaming.same ρ c (Script.note (P := Play) n') :=
  Script.twins_note (hD.note h)

lemma twins_noteCall (tag? : Option String) {seen seen' : Seen}
    (h : seen.Alike (D.ours.segment ρ) seen') :
    (noteCall tag? seen).Twins D Renaming.same ρ c (noteCall tag? seen') := by
  cases tag? with
  | none => exact .pure rfl
  | some tag =>
    exact Script.twins_now.then fun _ clock hle =>
      twins_note hD (.called tag clock (h.imp fun _ _ hs => D.ours.segment_mono hs hle))

lemma twins_lookUp {name : String} (hname : N name) :
    Act.Twins D Handle.Twin ρ c (lookUp name) (lookUp name) := by
  refine (Act.twins_lift Script.twins_load).bind fun ρ₁ x x' _ hx => ?_
  have hfind := (hD.agrees hx hname).promises
  generalize x.promises.find? name = h? at hfind
  generalize x'.promises.find? name = h?' at hfind
  cases hfind with
  | none => exact Act.twins_throw _
  | some hh => exact Act.twins_pure hh

lemma twins_enter (as? : Option String) (has : ∀ name, as? = some name → N name) {h h' : Handle}
    (hh : Handle.Twin ρ h h') : Act.Twins D Renaming.same ρ c (enter as? h) (enter as? h') := by
  cases as? with
  | none => exact Act.twins_pure rfl
  | some name =>
    refine (Act.twins_lift Script.twins_load).bind fun ρ₁ x x' h₁ hx => ?_
    have hname := has name rfl
    have hentered : Ledger.Agrees ρ₁ { x with promises := x.promises.insert name h }
        { x' with promises := x'.promises.insert name h' } name := by
      refine ⟨?_, (hD.agrees hx hname).kept⟩
      rw [Names.find?_insert, Names.find?_insert, if_pos rfl, if_pos rfl]
      exact .some (hh.mono h₁)
    exact Act.twins_lift (Script.twins_save (hD.change hx hname hentered
      (Ledger.sameBut_insert x name h) (Ledger.sameBut_insert x' name h')))

lemma twins_adapt (now? : Option Datum) (keep? : Option String)
    (hkeep : ∀ name, keep? = some name → N name) (error? : Option Failure) :
    (adapt now? keep? error?).Twins D Renaming.promise ρ c (adapt now? keep? error?) := by
  refine Script.twins_fromCallback fun ρ₁ d d' _ hd => ?_
  rcases now? with _ | v
  · rcases keep? with _ | name
    · cases error? <;> exact .pure rfl
    · refine Script.twins_load.bind fun ρ₂ x x' h₂ hx => ?_
      have hname := hkeep name rfl
      have hkept : Ledger.Agrees ρ₂ { x with kept := x.kept.insert name d }
          { x' with kept := x'.kept.insert name d' } name := by
        refine ⟨(hD.agrees hx hname).promises, ?_⟩
        rw [Names.find?_insert, Names.find?_insert, if_pos rfl, if_pos rfl]
        exact .some (Renaming.promise.mono hd h₂)
      refine (Script.twins_save (hD.change hx hname hkept (Ledger.sameBut_insert_kept x name d)
        (Ledger.sameBut_insert_kept x' name d'))).then fun _ _ _ => ?_
      cases error? <;> exact .pure rfl
  · refine (Script.twins_passValue hd _).then fun _ _ _ => ?_
    cases error? <;> exact .pure rfl

end

/-! ## All forms of steps -/

lemma twins_replyOf {act act' : Act Reply}
    (h : Act.Twins D (fun ρ => Reply.Twin (D.ours.segment ρ)) ρ c act act') :
    (replyOf act).Twins D (fun ρ => Reply.Twin (D.ours.segment ρ)) ρ c (replyOf act') := by
  refine Script.Twins.bind h fun ρ' r r' _ hr => ?_
  cases hr with
  | ok hr => exact .pure hr
  | error r => exact .pure (.alike (.same _))

lemma twins_reply (r : Reply) :
    Act.Twins D (fun ρ => Reply.Twin (D.ours.segment ρ)) ρ c (pure r) (pure r) :=
  Act.twins_pure (.alike (.same r))

/-- What a script answers is replied in the same way. -/
lemma twins_answer {s s' : Script Play α} (h : s.Twins D Renaming.same ρ c s') (f : α → Reply) :
    Act.Twins D (fun ρ => Reply.Twin (D.ours.segment ρ)) ρ c (liftM s >>= fun a => pure (f a))
      (liftM s' >>= fun a => pure (f a)) :=
  (Act.twins_lift h).then fun _ a _ => twins_reply (f a)

/-- The trace that there may be. -/
lemma twins_ofTrace? {t? t?' : Option (Trace Failure)} :
    Option.Rel (Trace.Alike (D.ours.segment ρ)) t? t?' →
    Act.Twins D (fun ρ => Trace.Alike (D.ours.segment ρ)) ρ c
      (match t? with
        | some t => pure t
        | none => throw .causeNotFailed)
      (match t?' with
        | some t => pure t
        | none => throw .causeNotFailed) := by
  intro h
  cases h with
  | none => exact Act.twins_throw _
  | some h => exact Act.twins_pure h

/-- Two observers for the callbacks that are given. -/
lemma twin_ofCallbacks {f? f?' : Option (Item → Script Play Unit)}
    {g? g?' : Option (Trace Failure → Script Play Unit)}
    (hf : Option.Rel (fun f f' => ∀ ρ' c v, ρ ≤ ρ' →
      (f v).Twins D Renaming.same ρ' c (f' v)) f? f?')
    (hg : Option.Rel (fun g g' => ∀ ρ' c t t', ρ ≤ ρ' → t.Alike (D.ours.segment ρ') t' →
      (g t).Twins D Renaming.same ρ' c (g' t')) g? g?') :
    (Observer.ofCallbacks (P := Play) f? g?).Twin D ρ (.ofCallbacks (P := Play) f?' g?') := by
  cases hf with
  | none =>
    cases hg with
    | none => exact ⟨fun _ _ _ _ h => by cases h <;> rfl, fun _ _ _ _ _ _ _ _ h => nomatch h⟩
    | some hg => exact .onFailure hg
  | some hf =>
    cases hg with
    | none => exact .onSuccess hf
    | some hg => exact .onEither hf hg

section

variable {N : String → Prop}

mutual

theorem Source.twins (hD : Serves D N) {x x' : Received} :
    (s : Source) → s.Within N → ∀ ρ c, Received.Twin D ρ x x' →
      Act.Twins D Handle.Twin ρ c (s.resolve x) (s.resolve x')
  | .named _, h, _, _, _ => twins_lookUp hD h
  | .made m, h, ρ, c, hx => m.twins hD h ρ c hx
  | .unknown _, _, _, _, _ => Act.twins_throw _

theorem resolveAll_twins (hD : Serves D N) {x x' : Received} :
    (ss : List Source) → sourcesWithin N ss → ∀ ρ c, Received.Twin D ρ x x' →
      Act.Twins D (fun ρ => List.Forall₂ (Handle.Twin ρ)) ρ c (resolveAll x ss) (resolveAll x' ss)
  | [], _, _, _, _ => Act.twins_pure .nil
  | s :: rest, h, ρ, c, hx =>
    (s.twins hD h.1 ρ c hx).bind fun ρ₁ _ _ h₁ ha =>
      (resolveAll_twins hD rest h.2 ρ₁ c (hx.mono h₁)).bind fun _ _ _ h₂ has =>
        Act.twins_pure (.cons (ha.mono h₂) has)

theorem resolveAllOf_twins (hD : Serves D N) {x x' : Received}
    (k : Kind) : (ss : List Source) → sourcesWithin N ss → ∀ ρ c, Received.Twin D ρ x x' →
      Act.Twins D Renaming.inputs ρ c (resolveAllOf x k ss) (resolveAllOf x' k ss)
  | [], _, _, _, _ => Act.twins_pure .nil
  | s :: rest, h, ρ, c, hx =>
    (s.twins hD h.1 ρ c hx).bind fun _ _ _ h₁ ha => (twins_ofKind k ha).bind fun ρ₂ _ _ h₂ hp =>
      (resolveAllOf_twins hD k rest h.2 ρ₂ c ((hx.mono h₁).mono h₂)).bind fun _ _ _ h₃ hps =>
        Act.twins_pure (.cons (hp.mono h₃) hps)

theorem resolveAt_twins (hD : Serves D N) {x x' : Received}
    (k : Nat) : (ss : List Source) → sourcesWithin N ss → ∀ ρ c, Received.Twin D ρ x x' →
      Act.Twins D Handle.Twin ρ c (resolveAt x k ss) (resolveAt x' k ss)
  | [], _, _, _, _ => Act.twins_throw _
  | s :: rest, h, ρ, c, hx => by
    rw [resolveAt, resolveAt]
    split
    · exact s.twins hD h.1 ρ c hx
    · exact resolveAt_twins hD (k - 1) rest h.2 ρ c hx

theorem Making.twins (hD : Serves D N) {x x' : Received} :
    (m : Making) → m.Within N → ∀ ρ c, Received.Twin D ρ x x' →
      Act.Twins D Handle.Twin ρ c (m.resolve x) (m.resolve x')
  | .mk as? recipe, h, ρ, c, hx =>
    (recipe.twins hD h.2 ρ c hx).bind fun _ _ _ _ ha =>
      (twins_enter hD as? h.1 ha).then fun _ _ h₂ => Act.twins_pure (ha.mono h₂)

theorem Recipe.twins (hD : Serves D N) {x x' : Received} :
    (recipe : Recipe) → recipe.Within N → ∀ ρ c, Received.Twin D ρ x x' →
      Act.Twins D Handle.Twin ρ c (recipe.resolve x) (recipe.resolve x')
  | .promise kind none, _, _, _, _ => by
    simp only [Recipe.resolve]
    exact twins_handle Script.twins_create rfl
  | .promise kind (some s), _, _, _, _ => by
    simp only [Recipe.resolve]
    exact twins_handle (Script.twins_createUnder s) rfl
  | .ofValue value, _, _, _, hx => by
    simp only [Recipe.resolve, Argument.datum_congr hx]
    exact twins_handle (Script.twins_ofValue _) rfl
  | .ofError error, _, _, _, _ => by
    simp only [Recipe.resolve]
    exact twins_handle (Script.twins_ofError (P := Play) error) rfl
  | .fulfillAfter value delay, _, _, _, hx => by
    simp only [Recipe.resolve, Argument.datum_congr hx]
    exact twins_handle (Script.twins_fulfillAfter _ delay) rfl
  | .failAfter error delay, _, _, _, _ => by
    simp only [Recipe.resolve]
    exact twins_handle (Script.twins_failAfter (P := Play) error delay) rfl
  | .select inputs, h, ρ, c, hx => by
    simp only [Recipe.resolve]
    refine (resolveAll_twins hD inputs h ρ c hx).bind fun ρ₁ hs hs' _ hhs => ?_
    -- the first of the inputs says which kind they are of
    have hkind :
        (hs.head?.map Handle.kind).getD .value = (hs'.head?.map Handle.kind).getD .value := by
      cases hhs with
      | nil => rfl
      | cons hh _ => exact hh.kind_eq
    rw [hkind]
    refine (twins_idsOfKind _ hhs).bind fun _ _ _ _ hids => ?_
    exact twins_handle (Script.twins_select hids) rfl
  | .join inputs, h, ρ, c, hx => by
    simp only [Recipe.resolve]
    refine (resolveAllOf_twins hD .value inputs h ρ c hx).bind fun _ _ _ _ hids => ?_
    exact twins_handle (Script.twins_join hids) rfl
  | .joinPair first second, h, ρ, c, hx => by
    simp only [Recipe.resolve]
    refine (first.twins hD h.1 ρ c hx).bind fun ρ₁ a a' h₁ ha => ?_
    refine (twins_ofKind .value ha).bind fun ρ₂ p p' h₂ hp => ?_
    refine (second.twins hD h.2 ρ₂ c ((hx.mono h₁).mono h₂)).bind fun ρ₃ b b' h₃ hb => ?_
    refine (twins_ofKind .value hb).bind fun ρ₄ q q' h₄ hq => ?_
    exact twins_handle (Script.twins_joinPair ((hp.mono h₃).mono h₄) hq) rfl
  | .withTimeout input limit, h, ρ, c, hx => by
    simp only [Recipe.resolve]
    refine (input.twins hD h ρ c hx).bind fun _ a a' _ ha => ?_
    exact twins_handle (Script.twins_withTimeout ha.id limit) ha.kind_eq
  | .elapsed input, h, ρ, c, hx => by
    simp only [Recipe.resolve]
    refine (input.twins hD h ρ c hx).bind fun _ a a' _ ha => ?_
    exact twins_handle (Script.twins_elapsed ha.id) rfl
  | .keepTrying attempts interval tag? onError, h, _, _, _ => by
    simp only [Recipe.resolve]
    refine twins_handle (Script.twins_keepTrying interval (fun ρ' c' k _ => ?_)
      fun ρ' c' t t' _ ht => ?_) rfl
    · exact (twins_noteCall hD tag? (.same _)).then fun ρ₁ _ _ =>
        twins_orFailed (resolveAt_twins hD k attempts h.1 ρ₁ c' .nothing)
    · exact onError.twins hD h.2 ρ' c' (.failure ht) (.failure ht)
  | .defer delay callback f, h, _, _, _ => by
    simp only [Recipe.resolve]
    refine twins_handle (Script.twins_defer delay fun ρ' c' _ => ?_) rfl
    exact (callback.twins hD h ρ' c' .nothing (.same _)).then fun _ _ _ => .pure rfl
  | .deferLazily callback result, h, _, _, _ => by
    simp only [Recipe.resolve]
    refine twins_handle (Script.twins_deferLazily fun ρ' c' _ => ?_) rfl
    exact (callback.twins hD h.1 ρ' c' .nothing (.same _)).then fun ρ₁ _ _ =>
      twins_orFailed (result.twins hD h.2 ρ₁ c' .nothing)
  | .fromCallback now? keep? error?, h, _, _, _ => by
    simp only [Recipe.resolve]
    exact twins_handle (twins_adapt hD now? keep? h error?) rfl
  | .andThen source callback f, h, ρ, c, hx => by
    simp only [Recipe.resolve]
    refine (source.twins hD h.1 ρ c hx).bind fun _ a a' _ ha => ?_
    refine twins_handle (Script.twins_andThen ha.id fun ρ' c' v _ => ?_) rfl
    exact (callback.twins hD h.2 ρ' c' (.value _) (.same _)).then fun _ _ _ => .pure rfl
  | .andThenLazily source callback result, h, ρ, c, hx => by
    simp only [Recipe.resolve]
    refine (source.twins hD h.1 ρ c hx).bind fun _ a a' _ ha => ?_
    refine twins_handle (Script.twins_andThenLazily ha.id fun ρ' c' v _ => ?_) rfl
    exact (callback.twins hD h.2.1 ρ' c' (.value _) (.same _)).then fun ρ₁ _ _ =>
      twins_orFailed (result.twins hD h.2.2 ρ₁ c' (.value _))
  | .andThenApply source callback f, h, ρ, c, hx => by
    simp only [Recipe.resolve]
    refine (source.twins hD h.1 ρ c hx).bind fun _ a a' _ ha => ?_
    refine (twins_ofKind .pair ha).bind fun _ p p' _ hp => ?_
    refine twins_handle (Script.twins_andThen hp fun ρ' c' v _ => ?_) rfl
    exact (callback.twins hD h.2 ρ' c' (.value _) (.same _)).then fun _ _ _ => .pure rfl
  | .chain source n, h, ρ, c, hx => by
    simp only [Recipe.resolve]
    refine (source.twins hD h ρ c hx).bind fun _ a a' _ ha => ?_
    cases n with
    | zero => exact Act.twins_pure ha
    | succ n => exact twins_handle (twins_addOnes ha.id (n + 1)) rfl

theorem Callback.twins (hD : Serves D N) {x x' : Received}
    {seen seen' : Seen} : (callback : Callback) → callback.Within N → ∀ ρ c,
      Received.Twin D ρ x x' → seen.Alike (D.ours.segment ρ) seen' →
      (callback.run x seen).Twins D Renaming.same ρ c (callback.run x' seen')
  | .mk tag? acts, h, _, c, hx, hseen =>
    (twins_noteCall hD tag? hseen).then fun ρ₁ _ h₁ => runActs_twins hD acts h ρ₁ c (hx.mono h₁)

theorem runActs_twins (hD : Serves D N) {x x' : Received} :
    (acts : List Step) → stepsWithin N acts → ∀ ρ c, Received.Twin D ρ x x' →
      (runActs x acts).Twins D Renaming.same ρ c (runActs x' acts)
  | [], _, _, _, _ => .pure rfl
  | s :: rest, h, ρ, c, hx =>
    (twins_replyOf (s.twins hD h.1 ρ c hx)).bind fun _ _ _ h₁ hr =>
      (twins_note hD (.act hr)).then fun ρ₂ _ h₂ =>
        runActs_twins hD rest h.2 ρ₂ c ((hx.mono h₁).mono h₂)

/-- Callbacks for values. -/
theorem valueHandler_twins (hD : Serves D N) :
    (callback? : Option Callback) → callbackWithin N callback? → ∀ ρ,
      Option.Rel (fun f f' => ∀ ρ' c v, ρ ≤ ρ' → (f v).Twins D Renaming.same ρ' c (f' v))
        (valueHandler callback?) (valueHandler callback?)
  | none, _, _ => .none
  | some callback, h, _ =>
    .some fun ρ' c v _ => callback.twins hD h ρ' c (.value v.datum) (.same _)

/-- Callbacks for failures. -/
theorem failureHandler_twins (hD : Serves D N) :
    (callback? : Option Callback) → callbackWithin N callback? → ∀ ρ,
      Option.Rel (fun g g' => ∀ ρ' c t t', ρ ≤ ρ' → t.Alike (D.ours.segment ρ') t' →
        (g t).Twins D Renaming.same ρ' c (g' t')) (failureHandler callback?)
          (failureHandler callback?)
  | none, _, _ => .none
  | some callback, h, _ =>
    .some fun ρ' c _ _ _ ht => callback.twins hD h ρ' c (.failure ht) (.failure ht)

theorem Cause.twins (hD : Serves D N) {x x' : Received} :
    (cause : Cause) → cause.Within N → ∀ ρ c, Received.Twin D ρ x x' →
    Act.Twins D (fun ρ => Trace.Alike (D.ours.segment ρ)) ρ c (cause.resolve x) (cause.resolve x')
  | .received, _, _, _, hx => by
    simp only [Cause.resolve]
    exact twins_ofTrace? hx.trace
  | .traceOf p, h, ρ, c, hx => by
    simp only [Cause.resolve]
    exact (p.twins hD h ρ c hx).bind fun _ _ _ _ ha => (twins_view ha).bind fun _ _ _ _ hv =>
      twins_ofTrace? hv.trace?

/-- **A step that keeps to itself does the same in both runs.** -/
theorem Step.twins (hD : Serves D N) {x x' : Received} :
    (s : Step) → s.Within N → ∀ ρ c, Received.Twin D ρ x x' →
    Act.Twins D (fun ρ => Reply.Twin (D.ours.segment ρ)) ρ c (s.resolve x) (s.resolve x')
  | .make m, h, ρ, c, hx => by
    simp only [Step.resolve]
    refine (m.twins hD h ρ c hx).bind fun _ a a' _ ha => (twins_view ha).bind fun _ v v' _ hv =>
      Act.twins_pure ?_
    rw [Reply.ofView, Reply.ofView, hv.result?_eq]
    exact .alike (.same _)
  | .fulfill p value, h, ρ, c, hx => by
    simp only [Step.resolve, Argument.datum_congr hx]
    refine (p.twins hD h ρ c hx).bind fun _ a a' _ ha => (twins_item ha _).then fun _ item h₂ => ?_
    exact twins_answer (Script.twins_fulfill (ha.id.mono h₂) item) _
  | .fail p error, h, ρ, c, hx => by
    simp only [Step.resolve]
    refine (p.twins hD h ρ c hx).bind fun _ a a' _ ha => ?_
    exact twins_answer (Script.twins_fail ha.id error) _
  | .failBecause p error cause, h, ρ, c, hx => by
    simp only [Step.resolve]
    refine (p.twins hD h.1 ρ c hx).bind fun ρ₁ a a' h₁ ha => ?_
    refine (cause.twins hD h.2 ρ₁ c (hx.mono h₁)).bind fun _ t t' h₂ ht => ?_
    exact twins_answer (Script.twins_failBecause (D := D) (ha.id.mono h₂) error ht) _
  | .observe p onValue onError, h, ρ, c, hx => by
    simp only [Step.resolve]
    refine (p.twins hD h.1 ρ c hx).bind fun ρ₁ a a' _ ha => ?_
    refine twins_answer (Script.twins_observe ha.id ?_) _
    exact twin_ofCallbacks (valueHandler_twins hD onValue h.2.1 ρ₁)
      (failureHandler_twins hD onError h.2.2 ρ₁)
  | .forward what source target, h, ρ, c, hx => by
    simp only [Step.resolve]
    refine (source.twins hD h.1 ρ c hx).bind fun ρ₁ a a' h₁ ha => ?_
    refine (target.twins hD h.2 ρ₁ c (hx.mono h₁)).bind fun _ b b' h₂ hb => ?_
    have ha' := ha.mono h₂
    cases what with
    | either =>
      rw [ha.kind_eq]
      refine (twins_ofKind a'.kind hb).bind fun _ q q' h₃ hq => ?_
      exact twins_answer (Script.twins_forward (ha'.id.mono h₃) hq) _
    | value =>
      rw [ha.kind_eq]
      refine (twins_ofKind a'.kind hb).bind fun _ q q' h₃ hq => ?_
      exact twins_answer (Script.twins_forwardValue (ha'.id.mono h₃) hq) _
    | failure =>
      exact twins_answer (Script.twins_forwardFailure ha'.id hb.id) _
  | .call name value, h, _, c, hx => by
    simp only [Step.resolve, Argument.datum_congr hx]
    refine (Act.twins_lift Script.twins_load).bind fun ρ₁ y y' _ hy => ?_
    have hagrees := hD.agrees hy h
    have hkept := hagrees.kept
    generalize y.kept.find? name = d? at hkept
    generalize y'.kept.find? name = d?' at hkept
    cases hkept with
    | none => exact twins_reply _
    | @some d d' hd =>
      have herased : Ledger.Agrees ρ₁ { y with kept := y.kept.erase name }
          { y' with kept := y'.kept.erase name } name := by
        refine ⟨hagrees.promises, ?_⟩
        rw [Names.find?_erase, Names.find?_erase, if_pos rfl, if_pos rfl]
        exact .none
      refine (Act.twins_lift (Script.twins_save (hD.change hy h herased
        (Ledger.sameBut_erase_kept y name) (Ledger.sameBut_erase_kept y' name)))).then
          fun _ _ h₂ => ?_
      exact twins_answer (Script.twins_passValue (Renaming.promise.mono hd h₂) _) _
  | .schedule delay callback, h, _, _, _ => by
    simp only [Step.resolve]
    exact twins_answer (Script.twins_schedule delay fun ρ' c' _ =>
      callback.twins hD h ρ' c' .nothing (.same _)) _
  | .peek p, h, ρ, c, hx => by
    simp only [Step.resolve]
    refine (p.twins hD h ρ c hx).bind fun _ a a' _ ha => (twins_view ha).bind fun _ v v' _ hv =>
      Act.twins_pure ?_
    rw [Reply.ofView, Reply.ofView, hv.result?_eq]
    exact .alike (.same _)
  | .state p, h, ρ, c, hx => by
    simp only [Step.resolve]
    refine (p.twins hD h ρ c hx).bind fun _ a a' _ ha => (twins_view ha).bind fun _ v v' _ hv =>
      Act.twins_pure ?_
    rw [hv.state_eq]
    exact .alike (.same _)
  | .trace p, h, ρ, c, hx => by
    simp only [Step.resolve]
    exact (p.twins hD h ρ c hx).bind fun _ _ _ _ ha => (twins_view ha).bind fun _ _ _ _ hv =>
      Act.twins_pure (.alike (.trace hv.trace?))
  | .segment p, h, ρ, c, hx => by
    simp only [Step.resolve]
    exact (p.twins hD h ρ c hx).bind fun _ _ _ _ ha => (twins_view ha).bind fun _ _ _ _ _ =>
      Act.twins_pure (.alike (.segment _ _))
  | .debug p, h, ρ, c, hx => by
    simp only [Step.resolve]
    exact (p.twins hD h ρ c hx).bind fun _ _ _ _ ha => (twins_view ha).bind fun _ _ _ _ _ =>
      Act.twins_pure (.alike (.text _ _))
  | .debugTrace p, h, ρ, c, hx => by
    simp only [Step.resolve]
    refine (p.twins hD h ρ c hx).bind fun _ a a' _ ha => (twins_view ha).bind fun _ v v' _ hv => ?_
    have htrace := hv.trace?
    generalize v.trace? = t? at htrace
    generalize v'.trace? = t?' at htrace
    cases htrace with
    | none => exact twins_reply _
    | some => exact Act.twins_pure (.alike (.text _ _))
  | .debugRuntime, _, _, _, _ => by
    simp only [Step.resolve]
    have hsettings (ρ : Renaming) (c : Company Play) :
        (Script.once .settings : Script Play Settings).Twins D Renaming.same ρ c
          (Script.once .settings) :=
      Script.twins_once (o := .settings) rfl fun _ _ _ _ h => h
    exact (Act.twins_lift (hsettings _ _)).then fun _ _ _ =>
      (Act.twins_lift Script.twins_now).then fun _ _ _ => Act.twins_pure (.alike (.text _ _))
  | .sameRuntime p, h, ρ, c, hx => by
    simp only [Step.resolve]
    exact ((p.twins hD h ρ c hx).bind fun _ _ _ _ _ => Act.twins_pure (Q := Renaming.same) rfl).then
      fun _ _ _ => twins_reply _
  | .drop name, h, _, _, _ => by
    simp only [Step.resolve]
    refine (Act.twins_lift Script.twins_load).bind fun ρ₁ y y' _ hy => ?_
    have hagrees := hD.agrees hy h
    have herased : Ledger.Agrees ρ₁ { y with promises := y.promises.erase name }
        { y' with promises := y'.promises.erase name } name := by
      refine ⟨?_, hagrees.kept⟩
      rw [Names.find?_erase, Names.find?_erase, if_pos rfl, if_pos rfl]
      exact .none
    have hsome : (y.promises.find? name).isSome = (y'.promises.find? name).isSome := by
      have hpromises := hagrees.promises
      generalize y.promises.find? name = h? at hpromises
      generalize y'.promises.find? name = h?' at hpromises
      cases hpromises <;> rfl
    rw [hsome]
    exact twins_answer (Script.twins_save (hD.change hy h herased (Ledger.sameBut_erase y name)
      (Ledger.sameBut_erase y' name))) _
  | .now, _, _, _, _ => by
    simp only [Step.resolve]
    exact twins_answer Script.twins_now _
  | .pending, _, _, _, _ => by
    simp only [Step.resolve]
    have hpending (ρ : Renaming) (c : Company Play) :
        (Script.pending : Script Play Nat).Twins D (fun _ _ _ => True) ρ c Script.pending :=
      Script.twins_once (o := .pending) rfl fun _ _ _ _ _ => trivial
    exact Act.twins_map (hpending _ _) fun _ n n' _ _ => .count n n'
  | .drive _, h, _, _, _ => h.elim
  | .sleep _, h, _, _, _ => h.elim
  | .unknown _, _, _, _, _ => Act.twins_throw _

end

end

end Eventual.Session
