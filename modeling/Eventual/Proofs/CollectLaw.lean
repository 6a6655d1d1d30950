import Eventual.Proofs.Collecting
import Mathlib.Data.Fintype.EquivFin
import Mathlib.Data.Fintype.Lattice

/-!
# What becomes of collected values

The callbacks of a call that collects values run in the order in which its inputs are settled
(`Program.Sooner`), each at the instant of its input or of the call.  If nobody else settles the
result, the first callback with a failure does it, or the one that fills the last place; at a quiet
moment every settled input has been told, so the result is what the inputs are by then
(`Program.Collected`).
-/

namespace Eventual

variable {P : Payload}

namespace Program

/-- What has become of the result of a call that collects values in a buffer, called at moment `a`
and the instant `start`, at a later moment `j`. -/
structure Collected (prog : Program P) (a : Nat) (inputs : List PromiseId) (B : Buffer P)
    (r : PromiseId) (start : Duration) (j : Nat) (m : Machine P) : Prop where
  /-- It has failed if an input has failed. -/
  failed_iff : (m.world.view r).state = .failed ↔ ∃ p ∈ inputs, (m.world.view p).state = .failed
  /-- It has succeeded if all inputs have succeeded. -/
  succeeded_iff : (m.world.view r).state = .succeeded ↔
    ∀ p ∈ inputs, (m.world.view p).state = .succeeded
  /-- It fails because of the first input that fails, and at once. -/
  failure : (m.world.view r).state = .failed → ∃ i p c t T, inputs[i]? = some p ∧ c < j ∧
    prog.SettledAt c p (.failed t.error t.parent?) T ∧ (m.world.view p).trace? = some t ∧
    (∀ i' p' c' e cause? T', inputs[i']? = some p' → c' < j →
      prog.SettledAt c' p' (.failed e cause?) T' → ¬ Sooner a c' i' c i) ∧
    (∃ t', (m.world.view r).trace? = some t' ∧ t'.error = t.error ∧ t'.parent? = some t) ∧
    ∃ c' < j, prog.SettledAt c' r (.failed t.error (some t)) (start.later T)
  /-- It succeeds with what the buffer makes of the values of all inputs in their places, at the
  instant of the last settlement, or of the call if this is later. -/
  success : (m.world.view r).state = .succeeded → ∃ y T,
    (m.world.view r).result? = some (.ok (B.value y)) ∧
    List.Forall₂ (fun p v => (m.world.view p).result? = some (.ok v)) inputs (B.values y) ∧
    (∃ c' < j, prog.SettledAt c' r (.fulfilled (B.value y)) T) ∧ start ≤ T ∧
    (∀ p ∈ inputs, ∀ c s T', c < j → prog.SettledAt c p s T' → T' ≤ T) ∧
    (T = start ∨ ∃ p ∈ inputs, ∃ c s, prog.SettledAt c p s T)

variable {prog : Program P} {a f : Nat} {inputs : List PromiseId} {B : Buffer P} {r : PromiseId}
  {start : Duration} {i j l c : Nat} {v : P.Value} {t : Trace P.Error} {body : Script P Unit}
  {m : Machine P} {s : Settlement P.Value P.Error}

namespace Collects

/-! ## Callbacks under way -/

/-- If nobody else settles the result, it is settled by the callback of an input that has failed, or
by the one with which every place is filled. -/
lemma of_settles (h : prog.Collects a f inputs B r start)
    (owned : prog.DoneBy a (f + inputs.length) c) (hc : prog.At c fun m => m.Settles r s) :
    (∃ i l t, prog.Hears f inputs i l (Script.passFailure r t) ∧ c = l + 1 ∧
        s = .failed t.error (some t)) ∨
      ∃ i l v y, prog.Hears f inputs i l (B.place r i v) ∧ c = l + 2 ∧
        s = .fulfilled (B.value y) ∧ (B.values y).length = inputs.length ∧
        ∀ i v, (B.values y)[i]? = some v ↔ prog.Placed f inputs B r i v (l + 2) := by
  obtain ⟨mc, hmc, hsettles⟩ := hc
  have hattempts : prog.At c fun m => m.Attempts r := ⟨mc, hmc, hsettles.attempts⟩
  obtain ⟨i, l, body, p, o, rs, below, hears, hlc, hbody, habove⟩ :=
    h.listens.of_attempts owned hattempts
  obtain ⟨-, -, -, ⟨v, -, rfl⟩ | ⟨t, -, rfl⟩⟩ := h.of_hears hears
  · right
    have hlc₁ : c ≠ l + 1 := by
      rintro rfl
      obtain ⟨⟨w, stack⟩, hm', rfl⟩ := hbody
      cases hmc.symm.trans hm'
      exact B.not_attempts r hsettles.attempts
    obtain ⟨m₂, h₂⟩ := exists_moment_of_le (i := l + 2) (by omega) hmc
    rcases h.after_place hears hbody h₂ with ⟨y, hstack, hlength, hvalues⟩ | ⟨-, hstack⟩
    · obtain rfl : c = l + 2 := eq_of_attempts (l := l + 1) hattempts (by omega)
        (fun i' hi' hle => habove i' (by omega) hle) ⟨m₂, h₂, hstack⟩
      cases hmc.symm.trans h₂
      obtain ⟨-, -, k, rest, hstack'⟩ := hsettles
      cases hstack.symm.trans hstack'
      exact ⟨i, l, v, y, hears, rfl, rfl, hlength, hvalues⟩
    · have hlt := lt_of_attempts hattempts habove (by omega) ⟨m₂, h₂, hstack⟩
      omega
  · left
    obtain rfl : c = l + 1 := eq_of_attempts hattempts hlc habove hbody
    obtain ⟨m₁, h₁, hstack⟩ := hbody
    obtain ⟨-, -, k, rest, hstack'⟩ := hsettles
    cases hmc.symm.trans h₁
    cases hstack.symm.trans hstack'
    exact ⟨i, l, t, hears, rfl, rfl⟩

/-! ## What the callbacks were given -/

lemma value_of_hears (h : prog.Collects a f inputs B r start)
    (hears : prog.Hears f inputs i l (B.place r i v)) (hlj : l ≤ j) (hm : prog.moment j = some m) :
    ∃ p, inputs[i]? = some p ∧ (m.world.view p).outcome? = some (.succeeded v) := by
  obtain ⟨-, p, hp, ⟨v', ⟨m₁, h₁, ho⟩, hbody⟩ | ⟨t, -, hbody⟩⟩ := h.of_hears hears
  · have hi := h.lt_size_of_hears hears
    obtain ⟨-, rfl⟩ := B.place_inj hi hi hbody
    exact ⟨p, hp, outcome?_of_le hlj h₁ hm ho⟩
  · exact absurd hbody B.place_ne_passFailure

lemma trace_of_hears (h : prog.Collects a f inputs B r start)
    (hears : prog.Hears f inputs i l (Script.passFailure r t)) (hlj : l ≤ j)
    (hm : prog.moment j = some m) :
    ∃ p, inputs[i]? = some p ∧ (m.world.view p).outcome? = some (.failed t) := by
  obtain ⟨-, p, hp, ⟨v, -, hbody⟩ | ⟨t', ⟨m₁, h₁, ho⟩, hbody⟩⟩ := h.of_hears hears
  · exact absurd hbody.symm B.place_ne_passFailure
  · obtain rfl := Script.passFailure_inj hbody
    exact ⟨p, hp, outcome?_of_le hlj h₁ hm ho⟩

lemma value_of_placed (h : prog.Collects a f inputs B r start)
    (hplaced : prog.Placed f inputs B r i v j) (hm : prog.moment j = some m) :
    ∃ p, inputs[i]? = some p ∧ (m.world.view p).outcome? = some (.succeeded v) := by
  obtain ⟨l, hlj, hears⟩ := hplaced
  exact h.value_of_hears hears (by omega) hm

/-! ## Quiet moments -/

lemma exists_r (h : prog.Collects a f inputs B r start) :
    prog.At (f + inputs.length) fun m => r.index < m.world.promises.size := by
  obtain ⟨m₀, h₀, hlt, -⟩ := h.returned
  exact ⟨m₀, h₀, hlt⟩

/-- Once an attempt has been made on the result, it is settled. -/
lemma settled_of_attempt (h : prog.Collects a f inputs B r start) (hl : f + inputs.length ≤ l)
    (hattempt : prog.At l fun m => ∃ k rest, m.stack = .script (.op (.settle r s) k) :: rest)
    (hlj : l < j) (hm : prog.moment j = some m) :
    ∃ c s, c ≤ l ∧ prog.At c fun m => m.Settles r s := by
  obtain ⟨m₁, h₁, k, rest, hstack⟩ := hattempt
  have hlt := lt_size_of_le hl h.exists_r h₁
  exact settled_of_attempts ⟨m₁, h₁, hlt, s, k, rest, hstack⟩ hlj hm

/-- The callback of a failed input leaves the result settled. -/
lemma settled_of_failure (h : prog.Collects a f inputs B r start)
    (hears : prog.Hears f inputs i l (Script.passFailure r t)) (hlj : l + 1 < j)
    (hm : prog.moment j = some m) : ∃ c s, c ≤ l + 1 ∧ prog.At c fun m => m.Settles r s := by
  obtain ⟨hl, -⟩ := h.of_hears hears
  obtain ⟨m₁, h₁⟩ := exists_moment_of_le (Nat.le_of_lt hlj) hm
  obtain ⟨p, o, rs, below, hstack⟩ := hears.exists_stack h₁
  exact h.settled_of_attempt (Nat.le_succ_of_le hl) ⟨m₁, h₁, _, _, hstack⟩ hlj hm

/-- At a quiet moment the result is settled if an input has failed. -/
lemma settled_of_failed (h : prog.Collects a f inputs B r start) (hj : f + inputs.length ≤ j)
    (hm : prog.moment j = some m) (hquiet : m.Quiet) {p : PromiseId} (hp : inputs[i]? = some p)
    (ho : (m.world.view p).outcome? = some (.failed t)) :
    ∃ c s, c < j ∧ prog.At c fun m => m.Settles r s := by
  obtain ⟨l, body, hlj, hears⟩ := h.listens.hears_of_quiet hj hm hquiet hp ho
  have hlj₁ := hears.lt_of_quiet hm hquiet hlj
  obtain ⟨-, -, -, ⟨v, -, rfl⟩ | ⟨t', -, rfl⟩⟩ := h.of_hears hears
  · obtain ⟨p', hp', ho'⟩ := h.value_of_hears hears (Nat.le_of_lt hlj) hm
    cases hp.symm.trans hp'
    cases ho.symm.trans ho'
  · obtain ⟨c, s, hc, hat⟩ := h.settled_of_failure hears hlj₁ hm
    exact ⟨c, s, by omega, hat⟩

/-- At a quiet moment the result is settled if all inputs have succeeded, and there are some. -/
lemma settled_of_succeeded (h : prog.Collects a f inputs B r start) (hne : inputs ≠ [])
    (hj : f + inputs.length ≤ j) (hm : prog.moment j = some m) (hquiet : m.Quiet)
    (hall : ∀ p ∈ inputs, ∃ v, (m.world.view p).outcome? = some (.succeeded v)) :
    ∃ c s, c < j ∧ prog.At c fun m => m.Settles r s := by
  have hears : ∀ i : Fin inputs.length, ∃ l v, l + 1 < j ∧
      prog.Hears f inputs i l (B.place r i v) := by
    intro i
    obtain ⟨v, ho⟩ := hall inputs[i] (List.getElem_mem i.isLt)
    obtain ⟨l, body, hlj, hears⟩ :=
      h.listens.hears_of_quiet hj hm hquiet (List.getElem?_eq_getElem i.isLt) ho
    obtain ⟨-, -, -, ⟨v', -, rfl⟩ | ⟨t, -, rfl⟩⟩ := h.of_hears hears
    · exact ⟨l, v', hears.lt_of_quiet hm hquiet hlj, hears⟩
    · obtain ⟨p', hp', ho'⟩ := h.trace_of_hears hears (Nat.le_of_lt hlj) hm
      cases (List.getElem?_eq_getElem i.isLt).symm.trans hp'
      cases ho.symm.trans ho'
  choose l v hl hears using hears
  -- the last callback fills the last place
  have : NeZero inputs.length := ⟨by simpa using hne⟩
  obtain ⟨i, hi⟩ := Finite.exists_max l
  obtain ⟨m₁, h₁⟩ := exists_moment_of_le (Nat.le_of_lt (hl i)) hm
  obtain ⟨p, o, rs, below, hstack⟩ := (hears i).exists_stack h₁
  obtain ⟨m₂, h₂⟩ := exists_moment_of_le (hl i) hm
  rcases h.after_place (hears i) ⟨m₁, h₁, hstack⟩ h₂ with
    ⟨y, hstack₂, -⟩ | ⟨⟨i', hi', hmissing⟩, -⟩
  · have hlt : l i + 2 < j := by
      rcases Nat.lt_or_eq_of_le (hl i) with hlt | heq
      · exact hlt
      · rw [← heq] at hm
        cases hm.symm.trans h₂
        exact absurd (hstack₂ ▸ .tail _ (.head below)) (hquiet.noDelivery p o rs)
    have hb := (h.of_hears (hears i)).1
    obtain ⟨c, s, hc, hat⟩ := h.settled_of_attempt (by omega) ⟨m₂, h₂, _, _, hstack₂⟩ hlt hm
    exact ⟨c, s, by omega, hat⟩
  · have hle := hi ⟨i', hi'⟩
    exact absurd ⟨l ⟨i', hi'⟩, by omega, hears ⟨i', hi'⟩⟩ (hmissing (v ⟨i', hi'⟩))

/-! ## The law -/

/-- No input fails before the one whose callback settles the result with a failure. -/
lemma not_sooner (h : prog.Collects a f inputs B r start) (passive : prog.Passive)
    (hj : f + inputs.length ≤ j) (hm : prog.moment j = some m) (hquiet : m.Quiet)
    (hears : prog.Hears f inputs i l (Script.passFailure r t))
    (hr : prog.At (l + 1) fun m => m.Settles r (.failed t.error (some t)))
    {p p' : PromiseId} {T T' : Duration} {i' c' : Nat} {e : P.Error}
    {cause? : Option (Trace P.Error)}
    (hp : inputs[i]? = some p) (hat : prog.SettledAt c p s T) (hp' : inputs[i']? = some p')
    (hcj' : c' < j) (hat' : prog.SettledAt c' p' (.failed e cause?) T') :
    ¬ Sooner a c' i' c i := by
  intro hsooner
  have ho' : ∃ t', (m.world.view p').outcome? = some (.failed t') := by
    obtain ⟨mc', hmc', hsettles', -⟩ := hat'
    have hs' := settled_of_settles hcj' hmc' hsettles' hm
    exact ⟨_, by rw [View.outcome?, hs']; rfl⟩
  obtain ⟨t', ho'⟩ := ho'
  obtain ⟨l', body, hlj', hears'⟩ := h.listens.hears_of_quiet hj hm hquiet hp' ho'
  have hlt := hears'.lt_of_quiet hm hquiet hlj'
  have horder := h.listens.hears_in_order passive hp' hat' hp hat hears' hears hsooner
  -- the input that failed before would have settled the result
  obtain ⟨-, -, -, ⟨v, -, rfl⟩ | ⟨t'', -, rfl⟩⟩ := h.of_hears hears'
  · obtain ⟨q, hq, hv⟩ := h.value_of_hears hears' (Nat.le_of_lt hlj') hm
    cases hp'.symm.trans hq
    cases ho'.symm.trans hv
  · obtain ⟨d, s', hd, hat''⟩ := h.settled_of_failure hears' hlt hm
    have heq := settles_unique hat'' hr
    omega

/-- The result of a call that has failed. -/
lemma law_of_failure (h : prog.Collects a f inputs B r start) (passive : prog.Passive)
    (hj : f + inputs.length ≤ j) (hm : prog.moment j = some m) (hquiet : m.Quiet)
    (hears : prog.Hears f inputs i l (Script.passFailure r t)) (hlj : l + 1 < j)
    (hc : prog.At (l + 1) fun m => m.Settles r (.failed t.error (some t))) :
    prog.Collected a inputs B r start j m := by
  obtain ⟨p, hp, ho⟩ := h.trace_of_hears hears (by omega) hm
  have hmem : p ∈ inputs := List.mem_of_getElem? hp
  have hfailed : (m.world.view p).state = .failed := View.state_eq_failed_iff.mpr ⟨t, ho⟩
  -- how the input was settled
  obtain ⟨s, hs, hso⟩ := Option.map_eq_some_iff.mp ho
  obtain rfl : s = .failed t.error t.parent? := by
    rcases s with v | ⟨e, cause?⟩
    · cases hso
    · cases hso
      rw [Trace.error_ofFailure, Trace.parent?_ofFailure]
  obtain ⟨c, hcj, mc, hmc, hsettles⟩ := exists_settles hm hs
  have hat : prog.SettledAt c p (.failed t.error t.parent?) mc.world.clock :=
    ⟨mc, hmc, hsettles, rfl⟩
  -- how the result was settled
  obtain ⟨mr, hmr, hr⟩ := hc
  have hrs := settled_of_settles hlj hmr hr hm
  have hstate : (m.world.view r).state = .failed := View.state_of_settlement? hrs
  have hclock := h.listens.clock_of_called passive hp hat hears hmr
  refine ⟨iff_of_true hstate ⟨p, hmem, hfailed⟩, iff_of_false ?_ ?_, fun _ => ?_, ?_⟩
  · rw [hstate]
    exact fun heq => by cases heq
  · intro hall
    cases hfailed.symm.trans (hall p hmem)
  · refine ⟨i, p, c, t, _, hp, hcj, hat, View.outcome?_eq_failed_iff.mp ho, ?_, ?_,
      l + 1, hlj, mr, hmr, hr, hclock⟩
    · intro i' p' c' e cause? T' hp' hcj' hat'
      exact h.not_sooner passive hj hm hquiet hears ⟨mr, hmr, hr⟩ hp hat hp' hcj' hat'
    · exact ⟨Trace.ofFailure t.error (m.world.view r).segment? (some t), by rw [View.trace?, hrs],
        Trace.error_ofFailure _ _ _, Trace.parent?_ofFailure _ _ _⟩
  · intro hsucceeded
    cases hstate.symm.trans hsucceeded

/-- The last place is filled at the instant of its input, or of the call if this is later. -/
lemma clock_of_placing (h : prog.Collects a f inputs B r start) (passive : prog.Passive)
    (hears : prog.Hears f inputs i l (B.place r i v)) (hm : prog.moment (l + 2) = some m) :
    m.world.clock = start ∨ ∃ p ∈ inputs, ∃ c s, prog.SettledAt c p s m.world.clock := by
  obtain ⟨p, hp, ho⟩ := h.value_of_hears hears (Nat.le_add_right l 2) hm
  obtain ⟨s, hs, -⟩ := Option.map_eq_some_iff.mp ho
  obtain ⟨c, -, mc, hmc, hsettles⟩ := exists_settles hm hs
  have hat : prog.SettledAt c p s mc.world.clock := ⟨mc, hmc, hsettles, rfl⟩
  obtain ⟨m₁, h₁⟩ := exists_moment_of_le (Nat.le_succ (l + 1)) hm
  obtain ⟨p', o, rs, below, hstack⟩ := hears.exists_stack h₁
  have hclock : m.world.clock = start.later mc.world.clock :=
    (clock_of_stack h₁ hstack hm).trans (h.listens.clock_of_called passive hp hat hears h₁)
  rw [Duration.later] at hclock
  split at hclock
  · exact Or.inr ⟨p, List.mem_of_getElem? hp, c, s, hclock ▸ hat⟩
  · exact Or.inl hclock

/-- The result of a call that has succeeded. -/
lemma law_of_success (h : prog.Collects a f inputs B r start) (passive : prog.Passive)
    (hm : prog.moment j = some m) {y : B.Content}
    (hears : prog.Hears f inputs i l (B.place r i v)) (hlj : l + 2 < j)
    (hlength : (B.values y).length = inputs.length)
    (hvalues : ∀ i v, (B.values y)[i]? = some v ↔ prog.Placed f inputs B r i v (l + 2))
    (hc : prog.At (l + 2) fun m => m.Settles r (.fulfilled (B.value y))) :
    prog.Collected a inputs B r start j m := by
  obtain ⟨mr, hmr, hr⟩ := hc
  have hrs := settled_of_settles hlj hmr hr hm
  have hstate : (m.world.view r).state = .succeeded := View.state_of_settlement? hrs
  -- every input had succeeded when the result was fulfilled
  have hvalue : ∀ (i : Nat) p (v : P.Value), inputs[i]? = some p → (B.values y)[i]? = some v →
      (mr.world.view p).outcome? = some (.succeeded v) := by
    intro i p v hp hv
    obtain ⟨p', hp', ho⟩ := h.value_of_placed ((hvalues i v).mp hv) hmr
    cases hp.symm.trans hp'
    exact ho
  have hall : List.Forall₂ (fun p v => (m.world.view p).result? = some (.ok v)) inputs
      (B.values y) := by
    refine List.forall₂_iff_get.mpr ⟨hlength.symm, fun i hi hi' => ?_⟩
    have ho := hvalue i _ _ (List.getElem?_eq_getElem hi) (List.getElem?_eq_getElem hi')
    exact View.outcome?_eq_succeeded_iff.mp (outcome?_of_le (Nat.le_of_lt hlj) hmr hm ho)
  have hsome : ∀ p ∈ inputs, ∃ v, (mr.world.view p).outcome? = some (.succeeded v) := by
    intro p hp
    obtain ⟨i, hi, rfl⟩ := List.mem_iff_getElem.mp hp
    have hi' : i < (B.values y).length := hlength ▸ hi
    exact ⟨_, hvalue i _ _ (List.getElem?_eq_getElem hi) (List.getElem?_eq_getElem hi')⟩
  have hsucceeded : ∀ p ∈ inputs, (m.world.view p).state = .succeeded := by
    intro p hp
    obtain ⟨v, ho⟩ := hsome p hp
    exact View.state_eq_succeeded_iff.mpr ⟨v, outcome?_of_le (Nat.le_of_lt hlj) hmr hm ho⟩
  refine ⟨iff_of_false ?_ ?_, iff_of_true hstate hsucceeded, ?_, fun _ => ?_⟩
  · rw [hstate]
    exact fun heq => by cases heq
  · rintro ⟨p, hp, hfailed⟩
    cases hfailed.symm.trans (hsucceeded p hp)
  · intro hfailed
    cases hstate.symm.trans hfailed
  · have hl := (h.of_hears hears).1
    have haf := h.listens.le
    obtain ⟨ms, hms, hstart⟩ := h.listens.instant a (Nat.le_refl a) (by omega)
    refine ⟨y, mr.world.clock, by rw [View.result?, hrs], hall, ⟨l + 2, hlj, mr, hmr, hr, rfl⟩,
      hstart ▸ clock_le (by omega) hms hmr, ?_, h.clock_of_placing passive hears hmr⟩
    rintro p hp c s T hcj ⟨mc, hmc, hsettles, rfl⟩
    obtain ⟨v, ho⟩ := hsome p hp
    obtain ⟨s', hs', -⟩ := Option.map_eq_some_iff.mp ho
    obtain ⟨c', hc', hat⟩ := exists_settles hmr hs'
    obtain rfl := settles_unique ⟨mc, hmc, hsettles⟩ hat
    exact clock_le (Nat.le_of_lt hc') hmc hmr

/-- **What becomes of collected values**, if nobody else settles the result. -/
theorem law (h : prog.Collects a f inputs B r start) (passive : prog.Passive) (hne : inputs ≠ [])
    (owned : ∀ c < j, prog.At c (fun m => m.Attempts r) → prog.DoneBy a (f + inputs.length) c)
    (hj : f + inputs.length ≤ j) (hm : prog.moment j = some m) (hquiet : m.Quiet) :
    prog.Collected a inputs B r start j m := by
  rcases hr : (m.world.view r).settlement? with _ | s
  · have hstate : (m.world.view r).state = .unresolved := by rw [View.state, hr]
    have hno : ¬ ∃ c s, c < j ∧ prog.At c fun m => m.Settles r s := by
      rintro ⟨c, s, hcj, mc, hmc, hs⟩
      cases hr.symm.trans (settled_of_settles hcj hmc hs hm)
    refine ⟨iff_of_false ?_ ?_, iff_of_false ?_ ?_, ?_, ?_⟩
    · rw [hstate]
      exact fun heq => by cases heq
    · rintro ⟨p, hp, hfailed⟩
      obtain ⟨i, hi⟩ := List.mem_iff_getElem?.mp hp
      obtain ⟨t, ht⟩ := View.state_eq_failed_iff.mp hfailed
      exact hno (h.settled_of_failed hj hm hquiet hi ht)
    · rw [hstate]
      exact fun heq => by cases heq
    · intro hall
      exact hno (h.settled_of_succeeded hne hj hm hquiet fun p hp =>
        View.state_eq_succeeded_iff.mp (hall p hp))
    · rw [hstate]
      exact fun heq => by cases heq
    · rw [hstate]
      exact fun heq => by cases heq
  · obtain ⟨c, hcj, hc⟩ := exists_settles hm hr
    have hattempts : prog.At c fun m => m.Attempts r := by
      obtain ⟨mc, hmc, hs⟩ := hc
      exact ⟨mc, hmc, hs.attempts⟩
    rcases h.of_settles (owned c hcj hattempts) hc with
      ⟨i, l, t, hears, rfl, rfl⟩ | ⟨i, l, v, y, hears, rfl, rfl, hlength, hvalues⟩
    · exact h.law_of_failure passive hj hm hquiet hears hcj hc
    · exact h.law_of_success passive hm hears hcj hlength hvalues hc

end Collects

end Program

end Eventual
