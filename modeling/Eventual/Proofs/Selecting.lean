import Eventual.Proofs.Buffer
import Eventual.Proofs.Listening
import Eventual.Session.Run

/-!
# What becomes of a select

A select makes its result and then registers one observer on each input, which passes on whatever
the input ends with.  If nobody else settles the result, the first of these observers that is told
does it; they are told in the order of the inputs, and at a quiet moment every settled input has
been told.  So at a quiet moment the result has ended as the first settled input has, if there is
one (`Program.SelectLaw`).
-/

namespace Eventual

variable {P : Payload}

/-- What a promise is settled with that is to end as another one has. -/
def Outcome.passed {V E : Type} : Outcome V E → Settlement V E
  | .succeeded v => .fulfilled v
  | .failed t => .failed t.error (some t)

/-- A promise that is settled with what another one ended with has its value, or its error and its
trace as the parent. -/
lemma View.passed_on {V E : Type} {v v' : View V E} {o : Outcome V E} (ho : v.outcome? = some o)
    (hs : v'.settlement? = some o.passed) :
    (∃ x, v.result? = some (.ok x) ∧ v'.result? = some (.ok x)) ∨
      ∃ t t', v.trace? = some t ∧ v'.trace? = some t' ∧ t'.error = t.error ∧
        t'.parent? = some t := by
  cases o with
  | succeeded x =>
    refine Or.inl ⟨x, View.outcome?_eq_succeeded_iff.mp ho, ?_⟩
    rw [View.result?, hs]
    rfl
  | failed t =>
    refine Or.inr ⟨t, Trace.ofFailure t.error v'.segment? (some t),
      View.outcome?_eq_failed_iff.mp ho, ?_, Trace.error_ofFailure _ _ _,
      Trace.parent?_ofFailure _ _ _⟩
    rw [View.trace?, hs]
    rfl

/-- The observer by which one promise is to end as another one does. -/
def Script.forwarder (r : PromiseId) : Observer P := .onEither (passValue r) (passFailure r)

namespace Script

variable {α : Type} {r : PromiseId}

lemma handler?_forwarder (r : PromiseId) (o : Outcome P.Value P.Error) :
    (forwarder r : Observer P).handler? o = some (.op (.settle r o.passed) fun _ => .pure ()) := by
  cases o <;> rfl

lemma awaits_forwarder (r : PromiseId) (o : Outcome P.Value P.Error) :
    (forwarder r : Observer P).awaits o = true := by
  cases o <;> rfl

lemma forwardEach_eq (r : PromiseId) (inputs : List PromiseId) (i : Nat) :
    (forwardEach r inputs : Script P Unit) = observeEach (fun _ => forwarder r) i inputs := by
  induction inputs generalizing i with
  | nil => rfl
  | cons p ps ih => exact congrArg (op _) (funext fun _ => ih (i + 1))

lemma select_bind (inputs : List PromiseId) (k : PromiseId → Script P α) :
    (select inputs).bind k = .op .create fun r =>
      (observeEach (fun _ => forwarder r) 0 inputs).bind fun _ => k r := by
  refine congrArg (op .create) (funext fun r => ?_)
  rw [← forwardEach_eq]
  exact bind_assoc (fun _ => pure r) k (forwardEach r inputs)

end Script

namespace Program

/-- What has become of a select, called at moment `a` and the instant `start`, at a later moment
`j`. -/
structure SelectLaw (prog : Program P) (a : Nat) (inputs : List PromiseId) (r : PromiseId)
    (start : Duration) (j : Nat) (m : Machine P) : Prop where
  /-- It is unresolved as long as all inputs are. -/
  unresolved_iff : (m.world.view r).state = .unresolved ↔
    ∀ p ∈ inputs, (m.world.view p).state = .unresolved
  /-- Otherwise it has ended as the first input has that was settled, and at once. -/
  first : (m.world.view r).state ≠ .unresolved → ∃ i p c s T, inputs[i]? = some p ∧ c < j ∧
    prog.SettledAt c p s T ∧
    (∀ i' p' c' s' T', inputs[i']? = some p' → c' < j → prog.SettledAt c' p' s' T' →
      p' = p ∨ Sooner a c i c' i') ∧
    ((∃ v, (m.world.view p).result? = some (.ok v) ∧ (m.world.view r).result? = some (.ok v)) ∨
      ∃ t t', (m.world.view p).trace? = some t ∧ (m.world.view r).trace? = some t' ∧
        t'.error = t.error ∧ t'.parent? = some t) ∧
    ∃ c' < j, ∃ s', prog.SettledAt c' r s' (start.later T)

variable {prog : Program P} {a f : Nat} {inputs : List PromiseId} {r : PromiseId}
  {start : Duration} {i j l c : Nat} {body : Script P Unit} {m : Machine P}
  {s : Settlement P.Value P.Error}

/-! ## The call -/

section Call

variable {w : World P} {k : PromiseId → Script P Unit} {rest : List (Activity P)}

/-- A select is called, and returns its result. -/
theorem listens_of_select
    (ha : prog.moment a = some ⟨w, .script ((Script.select inputs).bind k) :: rest⟩)
    (exist : ∀ p ∈ inputs, p.index < w.promises.size) :
    prog.At (a + 1 + inputs.length) (fun m => m.stack = .script (k ⟨w.promises.size⟩) :: rest ∧
        w.promises.size < m.world.promises.size ∧
        (m.world.view ⟨w.promises.size⟩).settlement? = none) ∧
      prog.Listens a (a + 1) inputs (fun _ => Script.forwarder ⟨w.promises.size⟩) w.clock := by
  obtain ⟨w₁, segment?, performed, promises, clock, -⟩ := World.perform_create w
  rw [Script.select_bind] at ha
  have h₁ := moment_of_operate ha performed
  have hsize : w₁.promises.size = w.promises.size + 1 := by rw [promises, Array.size_push]
  have hview : (w₁.view ⟨w.promises.size⟩).settlement? = none := by
    simp [World.view, promises, Promise.view]
  have hlistens := listens_of_observeEach (Nat.le_add_right a 1)
    (fun _ o => Script.awaits_forwarder _ o) h₁
    (fun p hp => hsize ▸ Nat.lt_succ_of_lt (exist p hp)) ?_
  · rw [clock] at hlistens
    obtain ⟨⟨m, hm, hstack, hsize', hview'⟩, hlistens⟩ := hlistens
    refine ⟨⟨m, hm, hstack, ?_, (congrArg View.settlement? (hview' _)).trans hview⟩, hlistens⟩
    rw [hsize', hsize]
    exact Nat.lt_succ_self _
  · -- before it registers anything, a select makes its result
    intro j haj hj
    obtain rfl : j = a := by omega
    refine ⟨_, ha, clock.symm, fun p ob hob => ?_, fun p hattempts => ?_⟩
    · cases hob.isObserve
    · cases hattempts.isSettle

end Call

namespace Listens

/-! ## The law -/

/-- The result of a select is unresolved as long as all inputs are. -/
lemma unresolved_of_quiet (h : prog.Listens a f inputs (fun _ => Script.forwarder r) start)
    (exists_r : prog.At (f + inputs.length) fun m => r.index < m.world.promises.size)
    (hj : f + inputs.length ≤ j) (hm : prog.moment j = some m) (hquiet : m.Quiet)
    (hr : (m.world.view r).settlement? = none) :
    ∀ p ∈ inputs, (m.world.view p).state = .unresolved := by
  intro p hp
  obtain ⟨i, hi⟩ := List.mem_iff_getElem?.mp hp
  rcases hs : (m.world.view p).settlement? with _ | s
  · rw [View.state, hs]
  · have ho : (m.world.view p).outcome? = some (s.outcome (m.world.view p).segment?) := by
      rw [View.outcome?, hs]
      rfl
    obtain ⟨l, -, c, s', -, -, hcj, mc, hmc, hat⟩ :=
      h.settled_of_quiet (fun _ => Script.handler?_forwarder r) exists_r hj hm hquiet hi ho
    cases hr.symm.trans (settled_of_settles hcj hmc hat hm)

/-- The input that settles the result of a select comes before all others that are settled. -/
lemma sooner_of_settles (h : prog.Listens a f inputs (fun _ => Script.forwarder r) start)
    (exists_r : prog.At (f + inputs.length) fun m => r.index < m.world.promises.size)
    (passive : prog.Passive) (hj : f + inputs.length ≤ j) (hm : prog.moment j = some m)
    (hquiet : m.Quiet) {sr : Settlement P.Value P.Error} (hears : prog.Hears f inputs i l body)
    (hr : prog.At (l + 1) fun m => m.Settles r sr) {p p' : PromiseId} {T T' : Duration}
    {i' c' : Nat} {s' : Settlement P.Value P.Error} (hp : inputs[i]? = some p)
    (hat : prog.SettledAt c p s T) (hp' : inputs[i']? = some p') (hcj' : c' < j)
    (hat' : prog.SettledAt c' p' s' T') : p' = p ∨ Sooner a c i c' i' := by
  rcases sooner_total (a := a) hp hat hp' hat' with heq | hsooner | hsooner
  · exact Or.inl heq
  · exact Or.inr hsooner
  · -- an input that comes before would have settled the result
    have ho' : (m.world.view p').outcome? = some (s'.outcome (m.world.view p').segment?) := by
      obtain ⟨mc', hmc', hsettles', -⟩ := hat'
      rw [View.outcome?, settled_of_settles hcj' hmc' hsettles' hm]
      rfl
    obtain ⟨l', body', c'', s'', hears', hc'', -, hat''⟩ :=
      h.settled_of_quiet (fun _ => Script.handler?_forwarder r) exists_r hj hm hquiet hp' ho'
    have horder := h.hears_in_order passive hp' hat' hp hat hears' hears hsooner
    have heq := settles_unique hat'' hr
    omega

/-- **What becomes of a select** whose result nobody else settles. -/
theorem select_law (h : prog.Listens a f inputs (fun _ => Script.forwarder r) start)
    (exists_r : prog.At (f + inputs.length) fun m => r.index < m.world.promises.size)
    (passive : prog.Passive)
    (owned : ∀ c < j, prog.At c (fun m => m.Attempts r) → prog.DoneBy a (f + inputs.length) c)
    (hj : f + inputs.length ≤ j) (hm : prog.moment j = some m) (hquiet : m.Quiet) :
    prog.SelectLaw a inputs r start j m := by
  rcases hr : (m.world.view r).settlement? with _ | sr
  · have hstate : (m.world.view r).state = .unresolved := by rw [View.state, hr]
    exact ⟨iff_of_true hstate (h.unresolved_of_quiet exists_r hj hm hquiet hr),
      fun hne => absurd hstate hne⟩
  · -- the result was settled by the callback of an input
    obtain ⟨c, hcj, mr, hmr, hsettles⟩ := exists_settles hm hr
    obtain ⟨i, l, p, o, body, hp, hears, rfl, -, hpassed, ml, hml, hol⟩ :=
      h.of_shot (fun _ => Script.handler?_forwarder r) (owned c hcj ⟨mr, hmr, hsettles.attempts⟩)
        hmr hsettles.attempts
    obtain rfl := hpassed sr hsettles
    have ho := outcome?_of_le (by omega) hml hm hol
    -- and this input was settled before
    obtain ⟨s, hs, -⟩ := Option.map_eq_some_iff.mp hol
    obtain ⟨c₀, hc₀, m₀, h₀, hsettles₀⟩ := exists_settles hml hs
    have hat : prog.SettledAt c₀ p s m₀.world.clock := ⟨m₀, h₀, hsettles₀, rfl⟩
    have hstate : (m.world.view r).state ≠ .unresolved := by
      rw [View.state, hr]
      cases o <;> exact fun heq => by cases heq
    refine ⟨iff_of_false hstate fun hall => ?_, fun _ => ⟨i, p, c₀, s, _, hp, by omega, hat, ?_,
      View.passed_on ho hr, l + 1, hcj, _, mr, hmr, hsettles, ?_⟩⟩
    · have hunresolved := hall p (List.mem_of_getElem? hp)
      obtain ⟨s', hs', -⟩ := Option.map_eq_some_iff.mp ho
      rw [View.state, hs'] at hunresolved
      cases s' <;> cases hunresolved
    · intro i' p' c' s' T' hp' hcj' hat'
      exact h.sooner_of_settles exists_r passive hj hm hquiet hears ⟨mr, hmr, hsettles⟩ hp hat hp'
        hcj' hat'
    · exact h.clock_of_called passive hp hat hears hmr

end Listens

/-- **What becomes of a select.**  In every run in which no callback makes a drive call:

* a select returns its result after a known number of steps, unresolved;
* unless somebody else has attempted to settle the result, at every later moment at which no task is
  due and no delivery under way the result is as the law of selects says (`Program.SelectLaw`): it
  is unresolved exactly if all inputs are, so always if there are none; and otherwise it has ended
  as the first input has that was settled, at the instant of that settlement or of the call;
* once it is settled nothing changes it, whatever else is settled later. -/
theorem select_outcome (prog : Program P) (passive : prog.Passive) {a : Nat} {w : World P}
    {inputs : List PromiseId} {k : PromiseId → Script P Unit} {rest : List (Activity P)}
    (ha : prog.moment a = some ⟨w, .script ((Script.select inputs).bind k) :: rest⟩)
    (exist : ∀ p ∈ inputs, p.index < w.promises.size) :
    prog.At (a + 1 + inputs.length) (fun m => m.stack = .script (k ⟨w.promises.size⟩) :: rest ∧
        (m.world.view ⟨w.promises.size⟩).state = .unresolved) ∧
      (∀ j m, a + 1 + inputs.length ≤ j → prog.moment j = some m → m.Quiet →
        (∀ c < j, prog.At c (fun m => m.Attempts ⟨w.promises.size⟩) →
          prog.DoneBy a (a + 1 + inputs.length) c) →
        prog.SelectLaw a inputs ⟨w.promises.size⟩ w.clock j m) ∧
      ∀ j j' m m', j ≤ j' → prog.moment j = some m → prog.moment j' = some m' →
        (m.world.view ⟨w.promises.size⟩).state ≠ .unresolved →
        m'.world.view ⟨w.promises.size⟩ = m.world.view ⟨w.promises.size⟩ := by
  obtain ⟨⟨m₀, h₀, hstack, hlt, hnone⟩, hlistens⟩ := listens_of_select ha exist
  refine ⟨⟨m₀, h₀, hstack, by rw [View.state, hnone]⟩, fun j m hj hm hquiet owned => ?_, ?_⟩
  · exact hlistens.select_law ⟨m₀, h₀, hlt⟩ passive owned hj hm hquiet
  · intro j j' m m' hjj' hm hm' hsettled
    rcases hs : (m.world.view ⟨w.promises.size⟩).settlement? with _ | s
    · exact absurd (by rw [View.state, hs]) hsettled
    · exact view_eq_of_settled hjj' hm hm' hs

/-- A program that selects from two promises.  The second one has failed already, the first one
fails later. -/
def selectingTwo : Program Session.Play where
  settings := .withoutTraces
  walks _ := []
  internal := []
  store := {}
  main := do
    let p ← Script.create
    let q ← Script.create
    discard (Script.fail q (.failed "lost"))
    let _ ← Script.select [p, q]
    discard (Script.fail p (.failed "late"))
    discard Script.runUntilIdle

namespace selectingTwo

lemma passive : selectingTwo.Passive := by
  refine (flat_of_ends (n := 21) rfl ?_).passive
  decide +kernel

/-- Only the callbacks of the inputs attempt to settle the result. -/
lemma doneBy {c : Nat} (hc : c < 19) (hat : selectingTwo.At c fun m => m.Attempts ⟨2⟩) :
    selectingTwo.DoneBy 3 6 c := by
  have hsecond : selectingTwo.DoneBy 3 6 10 :=
    doneBy_of_called (c := 5) (by decide) (by decide) ⟨_, rfl, ⟨_, by decide, _, _, rfl⟩, rfl⟩
      ⟨_, rfl, rfl⟩ ⟨_, rfl, [_], by simp, rfl⟩
  have hfirst : selectingTwo.DoneBy 3 6 15 :=
    doneBy_of_called (c := 4) (by decide) (by decide) ⟨_, rfl, ⟨_, by decide, _, _, rfl⟩, rfl⟩
      ⟨_, rfl, rfl⟩ ⟨_, rfl, [_], by simp, rfl⟩
  obtain rfl | rfl := of_attempted (Q := fun i => i = 10 ∨ i = 15) (by decide +kernel) hc hat
  · exact hsecond
  · exact hfirst

end selectingTwo

/-- In `selectingTwo` the result has failed because of the second input when the drive is over. -/
theorem select_outcome_selectingTwo : ∃ m, selectingTwo.moment 19 = some m ∧
    (m.world.view ⟨2⟩).result? = some (.error (.failed "lost")) ∧
    selectingTwo.SelectLaw 3 [⟨0⟩, ⟨1⟩] ⟨2⟩ .zero 19 m := by
  obtain ⟨w, k, rest, ha, hsize, hclock⟩ : ∃ w k rest,
      selectingTwo.moment 3 = some ⟨w, .script ((Script.select [⟨0⟩, ⟨1⟩]).bind k) :: rest⟩ ∧
        w.promises.size = 2 ∧ w.clock = .zero := ⟨_, _, _, rfl, rfl, rfl⟩
  obtain ⟨m, hm, hfailed, hstack, hwaiting⟩ : ∃ m, selectingTwo.moment 19 = some m ∧
      (m.world.view ⟨2⟩).result? = some (.error (.failed "lost")) ∧
        m.stack = [.script (.pure ())] ∧ m.world.queue.waiting = [] := ⟨_, rfl, rfl, rfl, rfl⟩
  obtain ⟨-, hlaw, -⟩ := select_outcome selectingTwo selectingTwo.passive ha (by simp [hsize])
  rw [hsize, hclock] at hlaw
  exact ⟨m, hm, hfailed, hlaw 19 m (by decide) hm ⟨by simp [hwaiting], by simp [hstack]⟩
    fun c hc hat => selectingTwo.doneBy hc hat⟩

end Program

end Eventual
