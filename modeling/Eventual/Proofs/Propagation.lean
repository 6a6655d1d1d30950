import Eventual.Proofs.Spread

/-!
# Failures are passed on breadth first

The machine carries out the search of `World.Frontier`: a delivery passes the failure on to one
promise after the other, and the drive takes one delivery after the other.  A delivery is made for
each promise at most once, which bounds the length of the drive.  The main statement is
`failure_spreads`; `Wires.spreads` says it of what the combinators have wired.
-/

namespace Eventual

variable {P : Payload} {w w₀ : World P} {S : Set PromiseId} {s p q : PromiseId} {e : P.Error}
  {t : Trace P.Error} {d : Nat} {busy done : List PromiseId}
  {pending : List (PromiseId × Trace P.Error)} {τ : PromiseId → Option (Trace P.Error)}

namespace World

/-- A failure is passed on to one promise, which fails unless it has failed before. -/
lemma spread_to (hw : w₀.Network S) (hs : s ∈ S) (hF : w₀.Frontier s e d busy done pending τ)
    (hS : w₀.Shows τ pending w) (hp : τ p = some t) (hdepth : t.depth = d)
    (passes : w₀.Passes p q) :
    ∃ τ' pending', w₀.Frontier s e d busy done pending' τ' ∧
      w₀.Shows τ' pending' (w.settle q (.failed t.error (some t))).2 ∧
      (∀ p u, τ p = some u → τ' p = some u) ∧ ∃ u, τ' q = some u := by
  have hcarries := hF.carries p t hp
  rcases hq : τ q with _ | u
  · have hmem : q ∈ S := hw.mem_of_passes t (hcarries.mem hw hs) passes
    have hnew := hF.hit hq (hcarries.pass passes)
      (by rw [Trace.depth_ofFailure_some, hdepth])
    refine ⟨_, _, hnew, ?_, fun p u hp => (World.update_eq_some_iff hq).mpr (Or.inr hp), _,
      Function.update_self ..⟩
    rw [hcarries.error_eq]
    exact hS.hit hw hmem hq (some t) rfl
  · exact ⟨τ, pending, hF, hS.late hq _, fun _ _ h => h, u, hq⟩

end World

namespace Machine

/-- A callback that passes a failure on is over after three steps. -/
lemma reaches_of_passesTo {r : Registration P} (rs : List (Registration P))
    (rest : List (Activity P)) (hpass : r.observer.PassesTo q) (t : Trace P.Error) :
    Reaches ⟨w, .delivery p (.failed t) (r :: rs) :: rest⟩
      ⟨(w.settle q (.failed t.error (some t))).2, .delivery p (.failed t) rs :: rest⟩ := by
  have hcall : Step ⟨w, .delivery p (.failed t) (r :: rs) :: rest⟩
      ⟨w, .script (.op (.settle q (.failed t.error (some t))) fun _ => .pure ()) ::
        .delivery p (.failed t) rs :: rest⟩ := .call (hpass t)
  exact (hcall.reaches.trans (Step.operate rfl).reaches).trans Step.finish.reaches

/-- A delivery comes to its end, and then everything it passes the failure on to has failed. -/
lemma reaches_of_delivery (hw : w₀.Network S) (hs : s ∈ S) (rest : List (Activity P))
    {rs : List (Registration P)} (hrs : ∀ r ∈ rs, r ∈ w₀.waitingFor p)
    (hF : w₀.Frontier s e d busy done pending τ) (hS : w₀.Shows τ pending w)
    (hp : τ p = some t) (hdepth : t.depth = d) :
    ∃ w' τ' pending', Reaches ⟨w, .delivery p (.failed t) rs :: rest⟩ ⟨w', rest⟩ ∧
      w₀.Frontier s e d busy done pending' τ' ∧ w₀.Shows τ' pending' w' ∧
      (∀ p u, τ p = some u → τ' p = some u) ∧
      ∀ r ∈ rs, ∀ q, r.observer.PassesTo q → ∃ u, τ' q = some u := by
  induction rs generalizing w τ pending with
  | nil => exact ⟨w, τ, pending, Step.delivered.reaches, hF, hS, fun _ _ h => h, by simp⟩
  | cons r rs ih =>
    have hr := hrs r (.head rs)
    obtain ⟨q, -, hpass⟩ := hw.exists_passesTo ((hF.carries p t hp).mem hw hs) hr
    obtain ⟨τ₁, pending₁, hF₁, hS₁, hkeep₁, u, hu⟩ :=
      World.spread_to hw hs hF hS hp hdepth ⟨r, hr, hpass⟩
    obtain ⟨w', τ', pending', hreach, hF', hS', hkeep, hall⟩ :=
      ih (fun r' hr' => hrs r' (.tail r hr')) hF₁ hS₁ (hkeep₁ p t hp)
    refine ⟨w', τ', pending', (reaches_of_passesTo rs rest hpass t).trans hreach, hF', hS',
      fun p u h => hkeep p u (hkeep₁ p u h), fun r' hr' q' hpass' => ?_⟩
    rcases List.mem_cons.mp hr' with rfl | hr'
    · -- an observer passes a failure on to one promise only
      cases hpass.unique hpass' t
      exact ⟨u, hkeep q u hu⟩
    · exact hall r' hr' q' hpass'

end Machine

namespace World

/-- No more deliveries are made than there are promises. -/
lemma Frontier.length_le (h : w₀.Frontier s e d busy done pending τ) (hw : w₀.Network S)
    (hs : s ∈ S) : done.length + pending.length ≤ w₀.promises.size := by
  have hinjective : Function.Injective PromiseId.index := fun _ _ => congrArg PromiseId.mk
  have hsub : (busy ++ done ++ pending.map Prod.fst).map PromiseId.index ⊆
      List.range w₀.promises.size := by
    intro i hi
    obtain ⟨p, hp, rfl⟩ := List.mem_map.mp hi
    obtain ⟨⟨t, ht⟩, -⟩ := (h.mem_iff p).mp hp
    obtain ⟨a, ha, -⟩ := hw.member p ((h.carries p t ht).mem hw hs)
    exact List.mem_range.mpr (Array.getElem?_eq_some_iff.mp ha).1
  have hlength := ((h.nodup.map hinjective).subperm hsub).length_le
  simp only [List.length_map, List.length_append, List.length_range] at hlength
  omega

/-- What the end of the drive makes of a world in which no delivery waits. -/
lemma Shows.finishDrive (h : w₀.Shows τ [] w) : w₀.Shows τ [] (w.finishDrive (.upTo w₀.clock)) := by
  refine ⟨?_, h.due, h.bodies, h.untouched, h.failed⟩
  change w.clock.later w₀.clock = w₀.clock
  rw [h.clock]
  exact Duration.later_eq_right (Nat.le_refl _)

end World

namespace Machine

/-- The drive comes to its end, when no delivery waits any more. -/
lemma reaches_of_drive (hw : w₀.Network S) (hs : s ∈ S) (k : Nat → Script P Unit)
    (rest : List (Activity P)) (hF : w₀.Frontier s e d [] done pending τ)
    (hS : w₀.Shows τ pending w) :
    ∃ w' τ' done' d', Reaches ⟨w, .drive (.upTo w₀.clock) done.length k :: rest⟩
        ⟨w', .script (k done'.length) :: rest⟩ ∧
      w₀.Frontier s e d' [] done' [] τ' ∧ w₀.Shows τ' [] w' ∧
      ∀ p u, τ p = some u → τ' p = some u := by
  -- each round moves one promise to those that are done, and they are no more than there are
  induction hleft : w₀.promises.size - done.length using Nat.strong_induction_on
    generalizing w τ pending done d with
  | _ left ih =>
    subst hleft
    cases pending with
    | nil =>
      have hnothing : w.queue.next? (.upTo w₀.clock) = none := by
        rw [Queue.next?, hS.waiting_eq_nil]
      exact ⟨_, τ, done, d, (Step.driven hnothing).reaches, hF, hS.finishDrive, fun _ _ h => h⟩
    | cons x pending =>
      obtain ⟨p, t⟩ := x
      have hlength := hF.length_le hw hs
      rw [List.length_cons] at hlength
      have hp := hF.settled (p, t) (.head pending)
      obtain ⟨task, queue, htaken, hbody, hS₁⟩ := hS.take
      have hstart := (Step.start htaken : Step
        ⟨w, .drive (.upTo w₀.clock) done.length k :: rest⟩ _).reaches
      rw [hbody] at hstart
      obtain ⟨w₂, τ₂, pending₂, hdelivery, hF₂, hS₂, hkeep₂, hall⟩ :=
        reaches_of_delivery hw hs (.drive (.upTo w₀.clock) (done.length + 1) k :: rest)
          (fun r hr => hr) hF.pop hS₁ hp rfl
      have hclose : w₀.Frontier s e t.depth [] (p :: done) pending₂ τ₂ := by
        refine hF₂.close (hkeep₂ p t hp) rfl ?_
        rintro q ⟨r, hr, hpass⟩
        exact hall r hr q hpass
      obtain ⟨w', τ', done', d', hreach, hF', hS', hkeep⟩ :=
        ih (w₀.promises.size - (p :: done).length) (by rw [List.length_cons]; omega) hclose hS₂ rfl
      exact ⟨w', τ', done', d', (hstart.trans hdelivery).trans hreach, hF', hS',
        fun p u h => hkeep p u (hkeep₂ p u h)⟩

end Machine

namespace World

lemma Network.waitingFor_ne_nil_iff (hw : w.Network S) (hp : p ∈ S) :
    w.waitingFor p ≠ [] ↔ ∃ q, w.Passes p q := by
  constructor
  · intro hne
    obtain ⟨r, hr⟩ := List.exists_mem_of_ne_nil _ hne
    obtain ⟨q, -, hpass⟩ := hw.exists_passesTo hp hr
    exact ⟨q, r, hr, hpass⟩
  · rintro ⟨q, r, hr, -⟩
    exact List.ne_nil_of_mem hr

/-! ## The end of the search -/

/-- The failure of `s` in a world `w` has come as far as it can: `w'` shows the traces of a search
that is over, and `ran` are the promises whose deliveries were run. -/
structure Spread (w : World P) (s : PromiseId) (e : P.Error) (ran : List PromiseId)
    (τ : PromiseId → Option (Trace P.Error)) (w' : World P) : Prop where
  start : τ s = some (.ofFailure e (w.view s).segment? none)
  search : ∃ d, w.Frontier s e d [] ran [] τ
  shows : w.Shows τ [] w'

/-- Once a promise of a network has failed, the drive to the present instant carries the search to
its end. -/
lemma Network.reaches_spread (hw : w.Network S) (hs : s ∈ S) (e : P.Error)
    (k : Nat → Script P Unit) (rest : List (Activity P)) :
    ∃ w' ran τ,
      Machine.Reaches
        ⟨w, .script (do discard (Script.fail s e); let n ← Script.runUntilIdle; k n) :: rest⟩
        ⟨w', .script (k ran.length) :: rest⟩ ∧ w.Spread s e ran τ w' := by
  have hF₁ := (Frontier.initial w s e).hit rfl .start rfl
  have hS₁ := (Shows.initial hw).hit hw hs rfl none (e := e) rfl
  have hfail : Machine.Step
      ⟨w, .script (.op (.settle s (.failed e none)) fun _ => .drive .idle k) :: rest⟩
      ⟨(w.settle s (.failed e none)).2, .script (.drive .idle k) :: rest⟩ := .operate rfl
  have hdrive : Machine.Step ⟨(w.settle s (.failed e none)).2, .script (.drive .idle k) :: rest⟩
      ⟨(w.settle s (.failed e none)).2, .drive (.upTo w.clock) 0 k :: rest⟩ :=
    .drive (by rw [hS₁.clock]; rfl)
  obtain ⟨w', τ, ran, d, hreach, hF, hS, hkeep⟩ := Machine.reaches_of_drive hw hs k rest hF₁ hS₁
  exact ⟨w', ran, τ, (hfail.reaches.trans hdrive.reaches).trans hreach,
    hkeep s _ (Function.update_self ..), ⟨d, hF⟩, hS⟩

namespace Spread

variable {w' : World P} {ran : List PromiseId}

/-- The promises with a trace are those to which there is a route. -/
lemma exists_trace_iff (h : w.Spread s e ran τ w') :
    (∃ u, τ q = some u) ↔ ∃ ps, w.Route s q ps := by
  obtain ⟨d, hF⟩ := h.search
  constructor
  · rintro ⟨u, hu⟩
    obtain ⟨ps, hroute, -⟩ := (hF.carries q u hu).route
    exact ⟨ps, hroute⟩
  · rintro ⟨ps, hroute⟩
    obtain ⟨u, hu, -⟩ := hF.depth_le_of_route h.start rfl hroute
    exact ⟨u, hu⟩

/-- A promise to which there is a route has failed, with the trace of a shortest one. -/
lemma failed (h : w.Spread s e ran τ w') (hroute : ∃ ps, w.Route s q ps) :
    (w'.view q).result? = some (.error e) ∧
      ∃ t ps, (w'.view q).trace? = some t ∧ w.Route s q ps ∧
        (∀ ps', w.Route s q ps' → ps.length ≤ ps'.length) ∧ t.depth = ps.length ∧
        t.links = ps.map fun p => ⟨e, (w.view p).segment?⟩ := by
  obtain ⟨u, hu⟩ := h.exists_trace_iff.mpr hroute
  obtain ⟨d, hF⟩ := h.search
  have htrace := h.shows.failed q u hu
  have hcarries := hF.carries q u hu
  obtain ⟨ps, hroute, hlinks⟩ := hcarries.route
  have hdepth : u.depth = ps.length := by
    rw [← Trace.length_links, hlinks, List.length_map]
  refine ⟨?_, u, ps, htrace, hroute, fun ps' hroute' => ?_, hdepth, hlinks⟩
  · rw [View.result?_of_trace? htrace, hcarries.error_eq]
  · obtain ⟨u', hu', hle⟩ := hF.depth_le_of_route h.start rfl hroute'
    cases hu.symm.trans hu'
    exact hdepth ▸ hle

/-- A promise to which there is no route is as it was. -/
lemma unresolved (h : w.Spread s e ran τ w') (hw : w.Network S) (hq : q ∈ S)
    (hno : ¬ ∃ ps, w.Route s q ps) : (w'.view q).state = .unresolved := by
  have hnone : τ q = none := by
    rw [Option.eq_none_iff_forall_ne_some]
    exact fun u hu => hno (h.exists_trace_iff.mp ⟨u, hu⟩)
  obtain ⟨observed, ha⟩ := hw.eq_some hq
  rw [view_of_eq_some ((h.shows.untouched q hnone).trans ha)]
  rfl

lemma nodup_ran (h : w.Spread s e ran τ w') : ran.Nodup := by
  obtain ⟨d, hF⟩ := h.search
  have hnodup := hF.nodup
  rwa [List.map_nil, List.append_nil, List.nil_append] at hnodup

/-- The deliveries that were run are those of the promises that pass the failure on. -/
lemma mem_ran_iff (h : w.Spread s e ran τ w') (hw : w.Network S) (hs : s ∈ S) :
    q ∈ ran ↔ (∃ ps, w.Route s q ps) ∧ ∃ r, w.Passes q r := by
  obtain ⟨d, hF⟩ := h.search
  have hmem := hF.mem_iff q
  rw [List.map_nil, List.append_nil, List.nil_append] at hmem
  rw [hmem, ← h.exists_trace_iff]
  refine and_congr_right fun ⟨u, hu⟩ => ?_
  exact hw.waitingFor_ne_nil_iff ((hF.carries q u hu).mem hw hs)

end Spread

/-! ## The main statement -/

/-- **A failure spreads breadth first.**  Let a promise `s` of a network fail on its own with the
error `e`, and let the clock then be driven to the present instant.  The drive returns, and then:

* every promise to which there is a route from `s` has failed with the error `e`;
* the links of its trace are the promises of such a route, in their order, each with the error `e`;
  so the trace is as deep as the route has promises, and no route has fewer;
* every other promise of the network is still unresolved;
* as many tasks have run as there are promises on routes from `s` that pass failures on;
* no task waits. -/
theorem failure_spreads (hw : w.Network S) (hs : s ∈ S) (e : P.Error) (k : Nat → Script P Unit)
    (rest : List (Activity P)) :
    ∃ n w',
      Machine.Reaches
        ⟨w, .script (do discard (Script.fail s e); let n ← Script.runUntilIdle; k n) :: rest⟩
        ⟨w', .script (k n) :: rest⟩ ∧
      (∀ q, (∃ ps, w.Route s q ps) → (w'.view q).result? = some (.error e) ∧
        ∃ t ps, (w'.view q).trace? = some t ∧ w.Route s q ps ∧
          (∀ ps', w.Route s q ps' → ps.length ≤ ps'.length) ∧ t.depth = ps.length ∧
          t.links = ps.map fun p => ⟨e, (w.view p).segment?⟩) ∧
      (∀ q ∈ S, (¬ ∃ ps, w.Route s q ps) → (w'.view q).state = .unresolved) ∧
      (∃ ran : List PromiseId, ran.Nodup ∧ ran.length = n ∧
        ∀ q, q ∈ ran ↔ (∃ ps, w.Route s q ps) ∧ ∃ r, w.Passes q r) ∧
      w'.queue.waiting = [] := by
  obtain ⟨w', ran, τ, hreach, hspread⟩ := hw.reaches_spread hs e k rest
  exact ⟨ran.length, w', hreach, fun q => hspread.failed, fun q => hspread.unresolved hw,
    ⟨ran, hspread.nodup_ran, rfl, fun q => hspread.mem_ran_iff hw hs⟩,
    hspread.shows.waiting_eq_nil⟩

/-- Three promises: the failure of the first one is passed on to the second and to the third, that
of the second to itself and to the third, and that of the third to the first. -/
def roundabout : World Session.Play :=
  let w : World Session.Play := .fresh .withoutTraces (fun _ => []) [] {}
  [(0, 1), (1, 1), (1, 2), (0, 2), (2, 0)].foldl
    (fun w x => w.observe ⟨x.1⟩ (.onFailure (Script.passFailure ⟨x.2⟩)))
    (((w.addPromise none).2.addPromise none).2.addPromise none).2

lemma network_roundabout : roundabout.Network {⟨0⟩, ⟨1⟩, ⟨2⟩} := by
  have hpass : ∀ q,
      (Observer.onFailure (Script.passFailure q) : Observer Session.Play).PassesTo q :=
    Observer.passesTo_onFailure
  refine ⟨rfl, ?_⟩
  rintro p (rfl | rfl | rfl)
  · refine ⟨_, rfl, _, rfl, ?_⟩
    rintro r (_ | ⟨_, _ | ⟨_, hr⟩⟩)
    · exact ⟨⟨1⟩, by simp, hpass _⟩
    · exact ⟨⟨2⟩, by simp, hpass _⟩
    · cases hr
  · refine ⟨_, rfl, _, rfl, ?_⟩
    rintro r (_ | ⟨_, _ | ⟨_, hr⟩⟩)
    · exact ⟨⟨1⟩, by simp, hpass _⟩
    · exact ⟨⟨2⟩, by simp, hpass _⟩
    · cases hr
  · refine ⟨_, rfl, _, rfl, ?_⟩
    rintro r (_ | ⟨_, hr⟩)
    · exact ⟨⟨0⟩, by simp, hpass _⟩
    · cases hr

/-- In `roundabout` the failure of the first promise comes to the third one directly. -/
theorem failure_spreads_roundabout :
    roundabout.Network {⟨0⟩, ⟨1⟩, ⟨2⟩} ∧ ∃ (w' : World Session.Play) (t : Trace Failure),
      Machine.Reaches
        ⟨roundabout, [.script (do
          discard (Script.fail ⟨0⟩ (.failed "lost")); let _ ← Script.runUntilIdle; pure ())]⟩
        ⟨w', [.script (pure ())]⟩ ∧
      (w'.view ⟨2⟩).trace? = some t ∧ t.depth ≤ 2 ∧ w'.queue.waiting = [] := by
  have hroute : roundabout.Route ⟨0⟩ ⟨2⟩ [⟨0⟩, ⟨2⟩] :=
    .pass .here ⟨⟨1, _⟩, .tail _ (.head _), Observer.passesTo_onFailure ⟨2⟩⟩
  obtain ⟨_, w', hreach, hfailed, -, -, hidle⟩ :=
    failure_spreads network_roundabout (Or.inl rfl) (.failed "lost") (fun _ => pure ()) []
  obtain ⟨-, t, ps, htrace, -, hshortest, hdepth, -⟩ := hfailed ⟨2⟩ ⟨_, hroute⟩
  exact ⟨network_roundabout, w', t, hreach, htrace, hdepth ▸ hshortest _ hroute, hidle⟩

end World

/-! ## Networks that are wired -/

namespace Script

/-- **What is wired with the combinators passes failures on.**  Let a script make promises and wire
them while no task waits, let one of them then fail on its own, and let the clock be driven to the
present instant.  The script answers and the drive returns.  Then those of the promises have failed
with the error to which there is a route in the wired world, the others are unresolved, and again no
task waits. -/
theorem Wires.spreads {α : Type} {setup : Script P α} {T : α → Set PromiseId}
    (h : Wires ∅ setup T) (idle : w.queue.waiting = []) {s : α → PromiseId} (hs : ∀ a, s a ∈ T a)
    (e : P.Error) (k : α → Nat → Script P Unit) (rest : List (Activity P)) :
    let failing (a : α) : Script P Unit := do
      discard (fail (s a) e)
      let n ← runUntilIdle
      k a n
    ∃ a n wired w',
      Machine.Reaches ⟨w, .script (setup.bind failing) :: rest⟩
        ⟨wired, .script (failing a) :: rest⟩ ∧
      Machine.Reaches ⟨wired, .script (failing a) :: rest⟩ ⟨w', .script (k a n) :: rest⟩ ∧
      (∀ q ∈ T a, (w'.view q).result? = some (.error e) ↔ ∃ ps, wired.Route (s a) q ps) ∧
      (∀ q ∈ T a, (¬ ∃ ps, wired.Route (s a) q ps) → (w'.view q).state = .unresolved) ∧
      w'.queue.waiting = [] := by
  intro failing
  obtain ⟨a, wired, hwires, hwired⟩ := h.connects w (.empty idle) failing rest
  obtain ⟨w', ran, τ, hreach, hspread⟩ := hwired.reaches_spread (hs a) e (k a) rest
  refine ⟨a, ran.length, wired, w', hwires, hreach, fun q hq => ⟨fun herror => ?_, ?_⟩,
    fun q => hspread.unresolved hwired, hspread.shows.waiting_eq_nil⟩
  · by_contra hno
    rw [View.result?_of_unresolved (hspread.unresolved hwired hq hno)] at herror
    cases herror
  · exact fun hroute => (hspread.failed hroute).1

end Script

end Eventual
