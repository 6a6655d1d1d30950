import Eventual.Proofs.Network
import Mathlib.Data.List.Perm.Subperm
import Mathlib.Logic.Function.Basic

/-!
# How a failure spreads

When a promise of a network fails and the clock is driven, the failure reaches every promise to
which there is a route, and it comes on a shortest one.  The deliveries that wait form the queue of
a breadth-first search: their traces are no shallower than that of the delivery under way, and no
trace at all is deeper by more than one.  This is said of the traces alone (`World.Frontier`),
without the machine; `World.Shows` ties it to the promises and to the tasks of a world.  No promise
is delivered twice, so the drive returns even if failures go round in circles.
-/

namespace Eventual

variable {P : Payload}

/-! ## Traces and routes -/

namespace Trace

variable {E : Type}

lemma links_ofFailure_some (e : E) (s? : Option Segment) (t : Trace E) :
    (ofFailure e s? (some t)).links = t.links ++ [⟨e, s?⟩] := by
  simp [ofFailure, links]

lemma depth_ofFailure_some (e : E) (s? : Option Segment) (t : Trace E) :
    (ofFailure e s? (some t)).depth = t.depth + 1 :=
  rfl

end Trace

namespace World

/-- A failure with the error `e` that started at `s` can come to a promise with a trace. -/
inductive Carries (w : World P) (s : PromiseId) (e : P.Error) :
    PromiseId → Trace P.Error → Prop
  /-- The failure starts. -/
  | start : Carries w s e s (.ofFailure e (w.view s).segment? none)
  /-- The failure is passed on. -/
  | pass {p q : PromiseId} {t : Trace P.Error} (carries : Carries w s e p t)
      (passes : w.Passes p q) : Carries w s e q (.ofFailure e (w.view q).segment? (some t))

variable {w w₀ : World P} {S : Set PromiseId} {s p q : PromiseId} {e : P.Error}
  {t : Trace P.Error}

lemma Carries.error_eq (h : w.Carries s e p t) : t.error = e := by
  cases h with
  | start => exact Trace.error_ofFailure ..
  | pass => exact Trace.error_ofFailure ..

/-- A trace has one link for each promise on the route of the failure. -/
lemma Carries.route (h : w.Carries s e p t) :
    ∃ ps, w.Route s p ps ∧ t.links = ps.map fun p => ⟨e, (w.view p).segment?⟩ := by
  induction h with
  | start => exact ⟨[s], .here, rfl⟩
  | @pass p q t carries passes ih =>
    obtain ⟨ps, hroute, hlinks⟩ := ih
    refine ⟨ps ++ [q], .pass hroute passes, ?_⟩
    rw [Trace.links_ofFailure_some, hlinks, List.map_append]
    rfl

lemma Carries.mem (hw : w.Network S) (hs : s ∈ S) (h : w.Carries s e p t) : p ∈ S := by
  induction h with
  | start => exact hs
  | pass _ passes ih => exact hw.mem_of_passes t ih passes

/-! ## The search -/

/-- How far a failure has spread, by the traces of the promises that have failed so far: `d` is the
depth of the delivery under way, `busy` its promise, `done` are the promises whose deliveries are
over and `pending` those whose deliveries wait. -/
structure Frontier (w : World P) (s : PromiseId) (e : P.Error) (d : Nat)
    (busy done : List PromiseId) (pending : List (PromiseId × Trace P.Error))
    (τ : PromiseId → Option (Trace P.Error)) : Prop where
  carries : ∀ p t, τ p = some t → w.Carries s e p t
  depth_le : ∀ p t, τ p = some t → t.depth ≤ d + 1
  settled : ∀ x ∈ pending, τ x.1 = some x.2
  le_depth : ∀ x ∈ pending, d ≤ x.2.depth
  sorted : pending.Pairwise fun x y => x.2.depth ≤ y.2.depth
  closed : ∀ p ∈ done, ∀ q, w.Passes p q →
    ∃ t u, τ p = some t ∧ τ q = some u ∧ u.depth ≤ t.depth + 1
  nodup : (busy ++ done ++ pending.map Prod.fst).Nodup
  mem_iff : ∀ p, p ∈ busy ++ done ++ pending.map Prod.fst ↔
    (∃ t, τ p = some t) ∧ w.waitingFor p ≠ []

/-- The traces after one more promise has failed. -/
lemma update_eq_some_iff {τ : PromiseId → Option (Trace P.Error)} {u : Trace P.Error}
    (hq : τ q = none) :
    Function.update τ q (some t) p = some u ↔ p = q ∧ u = t ∨ τ p = some u := by
  by_cases hpq : p = q
  · subst hpq
    rw [Function.update_self, hq]
    simp [eq_comm]
  · rw [Function.update_of_ne hpq]
    simp [hpq]

/-- The delivery that follows the failure of a promise, if somebody waits for it. -/
def following (w : World P) (q : PromiseId) (t : Trace P.Error) :
    List (PromiseId × Trace P.Error) :=
  if (w.waitingFor q).isEmpty then [] else [(q, t)]

lemma mem_following {x : PromiseId × Trace P.Error} :
    x ∈ w.following q t ↔ x = (q, t) ∧ w.waitingFor q ≠ [] := by
  unfold following
  cases w.waitingFor q with
  | nil => simp
  | cons r rs => simp

namespace Frontier

variable {d : Nat} {busy done : List PromiseId} {pending : List (PromiseId × Trace P.Error)}
  {τ : PromiseId → Option (Trace P.Error)}

lemma initial (w : World P) (s : PromiseId) (e : P.Error) :
    w.Frontier s e 0 [] [] [] fun _ => none where
  carries := by simp
  depth_le := by simp
  settled := by simp
  le_depth := by simp
  sorted := .nil
  closed := by simp
  nodup := .nil
  mem_iff := by simp

/-- A promise fails that has not failed before. -/
lemma hit (h : w.Frontier s e d busy done pending τ) (hq : τ q = none)
    (hcarries : w.Carries s e q t) (hdepth : t.depth = d + 1) :
    w.Frontier s e d busy done (pending ++ w.following q t) (Function.update τ q (some t)) := by
  have hsame : ∀ {p u}, τ p = some u → Function.update τ q (some t) p = some u :=
    fun hp => (update_eq_some_iff hq).mpr (Or.inr hp)
  -- the promise is new to the lists, since everything on them has failed
  have hnew : q ∉ busy ++ done ++ pending.map Prod.fst := by
    intro hmem
    obtain ⟨⟨u, hu⟩, -⟩ := (h.mem_iff q).mp hmem
    cases hq.symm.trans hu
  refine ⟨?_, ?_, ?_, ?_, ?_, ?_, ?_, ?_⟩
  · intro p u hp
    rcases (update_eq_some_iff hq).mp hp with ⟨rfl, rfl⟩ | hp
    · exact hcarries
    · exact h.carries p u hp
  · intro p u hp
    rcases (update_eq_some_iff hq).mp hp with ⟨rfl, rfl⟩ | hp
    · exact Nat.le_of_eq hdepth
    · exact h.depth_le p u hp
  · intro x hx
    rcases List.mem_append.mp hx with hx | hx
    · exact hsame (h.settled x hx)
    · obtain ⟨rfl, -⟩ := mem_following.mp hx
      exact Function.update_self ..
  · intro x hx
    rcases List.mem_append.mp hx with hx | hx
    · exact h.le_depth x hx
    · obtain ⟨rfl, -⟩ := mem_following.mp hx
      dsimp only
      omega
  · refine List.pairwise_append.mpr ⟨h.sorted, ?_, fun x hx y hy => ?_⟩
    · unfold following
      split
      · exact .nil
      · exact List.pairwise_singleton _ _
    · obtain ⟨rfl, -⟩ := mem_following.mp hy
      dsimp only
      rw [hdepth]
      exact h.depth_le x.1 x.2 (h.settled x hx)
  · intro p hp q' passes
    obtain ⟨u, v, hu, hv, hle⟩ := h.closed p hp q' passes
    exact ⟨u, v, hsame hu, hsame hv, hle⟩
  · rw [List.map_append, ← List.append_assoc, List.nodup_append]
    refine ⟨h.nodup, ?_, fun p hp p' hp' heq => ?_⟩
    · unfold following
      split <;> simp
    · obtain ⟨x, hx, rfl⟩ := List.mem_map.mp hp'
      obtain ⟨rfl, -⟩ := mem_following.mp hx
      obtain rfl : p = q := heq
      exact hnew hp
  · intro p
    have hfollowing : p ∈ (w.following q t).map Prod.fst ↔ p = q ∧ w.waitingFor q ≠ [] := by
      simp [mem_following]
    rw [List.map_append, ← List.append_assoc, List.mem_append, h.mem_iff, hfollowing]
    by_cases hpq : p = q
    · subst hpq
      simp [hq]
    · simp [hpq]

/-- The next delivery is started. -/
lemma pop (h : w.Frontier s e d [] done ((p, t) :: pending) τ) :
    w.Frontier s e t.depth [p] done pending τ := by
  obtain ⟨hle, hsorted⟩ := List.pairwise_cons.mp h.sorted
  have hdepth : d ≤ t.depth := h.le_depth (p, t) (.head pending)
  refine ⟨h.carries, fun q u hu => ?_, fun x hx => h.settled x (.tail _ hx), hle, hsorted, h.closed,
    ?_, fun q => ?_⟩
  · have := h.depth_le q u hu
    omega
  · have hnodup := h.nodup
    rw [List.nil_append, List.map_cons] at hnodup
    exact (List.perm_middle.nodup_iff).mp hnodup
  · rw [← h.mem_iff q, List.nil_append, List.map_cons]
    exact (List.perm_middle.mem_iff).symm

/-- A delivery is over when everything it passes the failure on to has failed. -/
lemma close (h : w.Frontier s e d [p] done pending τ) (hp : τ p = some t) (hdepth : t.depth = d)
    (hall : ∀ q, w.Passes p q → ∃ u, τ q = some u) :
    w.Frontier s e d [] (p :: done) pending τ := by
  refine ⟨h.carries, h.depth_le, h.settled, h.le_depth, h.sorted, ?_, h.nodup, h.mem_iff⟩
  intro p' hp' q passes
  rcases List.mem_cons.mp hp' with rfl | hp'
  · obtain ⟨u, hu⟩ := hall q passes
    exact ⟨t, u, hp, hu, hdepth ▸ h.depth_le q u hu⟩
  · exact h.closed p' hp' q passes

/-- When no delivery waits any more, every promise to which there is a route has failed, with a
trace that is no deeper than the route is long. -/
lemma depth_le_of_route (h : w.Frontier s e d [] done [] τ) (hs : τ s = some t)
    (hdepth : t.depth = 1) {ps : List PromiseId} (hroute : w.Route s q ps) :
    ∃ u, τ q = some u ∧ u.depth ≤ ps.length := by
  induction hroute with
  | here => exact ⟨t, hs, Nat.le_of_eq hdepth⟩
  | @pass p q ps _ passes ih =>
    obtain ⟨u, hu, hle⟩ := ih
    have hdone : p ∈ done := by
      have hmem := (h.mem_iff p).mpr ⟨⟨u, hu⟩, ?_⟩
      · simpa using hmem
      · obtain ⟨r, hr, -⟩ := passes
        exact List.ne_nil_of_mem hr
    -- the delivery of `p` is over, so `q` has failed no deeper than one step behind it
    obtain ⟨u', v, hu', hv, hle'⟩ := h.closed p hdone q passes
    cases hu.symm.trans hu'
    refine ⟨v, hv, ?_⟩
    rw [List.length_append, List.length_singleton]
    omega

end Frontier

/-! ## The search in a world -/

/-- What a world looks like while a failure spreads in it that started when it was `w₀`: the
promises with a trace have failed, the others are untouched, and the pending deliveries wait for the
present instant. -/
structure Shows (w₀ : World P) (τ : PromiseId → Option (Trace P.Error))
    (pending : List (PromiseId × Trace P.Error)) (w : World P) : Prop where
  clock : w.clock = w₀.clock
  due : ∀ t ∈ w.queue.waiting, t.due = w₀.clock
  bodies : w.queue.waiting.map Task.body =
    pending.map fun x => .delivery x.1 (.failed x.2) (w₀.waitingFor x.1)
  untouched : ∀ p, τ p = none → w.promises[p.index]? = w₀.promises[p.index]?
  failed : ∀ p t, τ p = some t → (w.view p).trace? = some t

namespace Shows

variable {τ : PromiseId → Option (Trace P.Error)} {pending : List (PromiseId × Trace P.Error)}

lemma initial (hw : w.Network S) : w.Shows (fun _ => none) [] w where
  clock := rfl
  due t ht := by
    rw [hw.idle] at ht
    cases ht
  bodies := by rw [hw.idle]; rfl
  untouched _ _ := rfl
  failed := by simp

/-- An unresolved promise of the network fails. -/
lemma hit (h : w₀.Shows τ pending w) (hw : w₀.Network S) (hq : q ∈ S) (hτ : τ q = none)
    (cause? : Option (Trace P.Error))
    (ht : t = Trace.ofFailure e (w₀.view q).segment? cause?) :
    w₀.Shows (Function.update τ q (some t)) (pending ++ w₀.following q t)
      (w.settle q (.failed e cause?)).2 := by
  obtain ⟨observed, ha₀⟩ := hw.eq_some hq
  have ha := (h.untouched q hτ).trans ha₀
  -- all who wait pass failures on, so the delivery leaves nobody out
  have hawaits : (w₀.waitingFor q).filter (·.observer.awaits (.failed t)) = w₀.waitingFor q := by
    refine List.filter_eq_self.mpr fun r hr => ?_
    obtain ⟨q', -, hpass⟩ := hw.exists_passesTo hq hr
    exact hpass.awaits t
  have hwaiting : (w.settle q (.failed e cause?)).2.queue.waiting =
      w.queue.waiting ++ if (w₀.waitingFor q).isEmpty then []
        else [⟨w.clock, w.queue.scheduled, .delivery q (.failed t) (w₀.waitingFor q)⟩] := by
    rw [settle_unresolved ha, queue_deliver, Settlement.outcome, ← ht, Queue.deliver, hawaits]
    split
    · rw [List.append_nil]
      rfl
    · refine Queue.insertTask_eq_append fun u hu => ?_
      rw [h.due u hu, ← h.clock]
      exact Nat.le_refl _
  have hpromises : ∀ p : PromiseId, (w.settle q (.failed e cause?)).2.promises[p.index]? =
      if p.index = q.index then
        some ⟨(w₀.view q).segment?, observed, .settled (.failed e cause?)⟩
      else w.promises[p.index]? := by
    intro p
    rw [settle_unresolved ha, promises_deliver, putPromise, getElem?_putPromise _ ha]
  refine ⟨?_, ?_, ?_, ?_, ?_⟩
  · rw [settle_unresolved ha, clock_deliver]
    exact h.clock
  · intro u hu
    rw [hwaiting] at hu
    rcases List.mem_append.mp hu with hu | hu
    · exact h.due u hu
    · split at hu
      · cases hu
      · cases List.mem_singleton.mp hu
        exact h.clock
  · rw [hwaiting, List.map_append, List.map_append, h.bodies, following]
    split <;> rfl
  · intro p hp
    have hpq : p ≠ q := by
      rintro rfl
      rw [Function.update_self] at hp
      cases hp
    rw [Function.update_of_ne hpq] at hp
    rw [hpromises, if_neg fun hi => hpq (congrArg PromiseId.mk hi)]
    exact h.untouched p hp
  · intro p u hp
    have hb := hpromises p
    by_cases hpq : p = q
    · subst hpq
      rw [Function.update_self] at hp
      rw [if_pos rfl] at hb
      rw [view_of_eq_some hb, ← hp, ht]
      rfl
    · rw [Function.update_of_ne hpq] at hp
      rw [if_neg fun hi => hpq (congrArg PromiseId.mk hi)] at hb
      rw [view, hb]
      exact h.failed p u hp

/-- A promise that has failed is failed again. -/
lemma late (h : w₀.Shows τ pending w) (hτ : τ q = some t) (st : Settlement P.Value P.Error) :
    w₀.Shows τ pending (w.settle q st).2 := by
  obtain ⟨s₀, hs₀⟩ : ∃ s₀, (w.view q).settlement? = some s₀ := by
    have hfailed := h.failed q t hτ
    rcases hview : w.view q with ⟨segment?, _ | s₀⟩
    · rw [hview] at hfailed
      cases hfailed
    · exact ⟨s₀, rfl⟩
  obtain ⟨⟨segment?, observed, slot⟩, ha, rfl⟩ := settlement?_view_eq_some_iff.mp hs₀
  rw [settle_settled ha]
  exact ⟨h.clock, h.due, h.bodies, h.untouched, h.failed⟩

/-- The next delivery is taken. -/
lemma take (h : w₀.Shows τ ((p, t) :: pending) w) :
    ∃ task queue, w.queue.next? (.upTo w₀.clock) = some (task, queue) ∧
      task.body = .delivery p (.failed t) (w₀.waitingFor p) ∧
      w₀.Shows τ pending { w with queue, clock := w.clock.later task.due } := by
  have hbodies := h.bodies
  obtain ⟨task, tasks, hwaiting, hbody, htasks⟩ := List.map_eq_cons_iff.mp hbodies
  have hdue : task.due = w₀.clock := h.due task (hwaiting ▸ .head tasks)
  refine ⟨task, ⟨tasks, w.queue.scheduled⟩, ?_, hbody, ?_, ?_, htasks, h.untouched, h.failed⟩
  · refine Queue.next?_eq_some_iff.mpr ⟨hwaiting, ?_, rfl⟩
    rw [hdue]
    exact decide_eq_true (Nat.le_refl _)
  · rw [hdue, h.clock]
    exact Duration.later_eq_right (Nat.le_refl _)
  · exact fun u hu => h.due u (hwaiting ▸ .tail task hu)

lemma waiting_eq_nil (h : w₀.Shows τ [] w) : w.queue.waiting = [] :=
  List.map_eq_nil_iff.mp h.bodies

end Shows

end World

end Eventual
