import Eventual.Queue
import Mathlib.Data.List.Nodup
import Mathlib.Data.List.Perm.Basic

/-!
# The order of a queue

A task precedes another if it is due earlier, or at the same instant and was handed over earlier.
The list of a queue is kept in this order by `Queue.add` and `Queue.next?`, so the task that is
taken precedes all that stay.  Put the other way round, this is the order of urgency of a queue from
which the greatest element is taken: `Queue.Ordered.next?_iff_greatest`.
-/

namespace Eventual

universe u

variable {β : Type u}

/-- A task is due before another one, or at the same instant and has an earlier turn. -/
def Task.Precedes (t u : Task β) : Prop := t.due < u.due ∨ t.due = u.due ∧ t.turn < u.turn

lemma Task.precedes_iff {t u : Task β} :
    t.Precedes u ↔ t.due.nanos < u.due.nanos ∨ t.due.nanos = u.due.nanos ∧ t.turn < u.turn := by
  rw [Precedes, Duration.lt_iff, Duration.ext_iff]

lemma Task.Precedes.due_le {t u : Task β} (h : t.Precedes u) : t.due ≤ u.due := by
  rw [precedes_iff] at h
  rw [Duration.le_iff]
  omega

lemma Task.Precedes.irrefl {t : Task β} (h : t.Precedes t) : False := by
  rw [precedes_iff] at h
  omega

lemma Task.Precedes.asymm {t u : Task β} (h : t.Precedes u) (h' : u.Precedes t) : False := by
  rw [precedes_iff] at h h'
  omega

/-- How urgent a task is beside another one.  The order is the reverse of that of the instants and
turns: the task that is due earlier is the greater, and at one instant that with the earlier
turn. -/
def Task.urgency (t u : Task β) : Ordering :=
  (compareOfLessAndEq u.due t.due).then (compareOfLessAndEq u.turn t.turn)

/-- The more urgent of two tasks precedes the other one. -/
lemma Task.urgency_eq_gt_iff {t u : Task β} : t.urgency u = .gt ↔ t.Precedes u := by
  have hdue : compareOfLessAndEq u.due t.due = .gt ↔ t.due.nanos < u.due.nanos := by
    simp only [compareOfLessAndEq, Duration.lt_iff, Duration.ext_iff]
    split_ifs <;> simp <;> omega
  have hsame : compareOfLessAndEq u.due t.due = .eq ↔ t.due.nanos = u.due.nanos := by
    simp only [compareOfLessAndEq, Duration.lt_iff, Duration.ext_iff]
    split_ifs <;> simp <;> omega
  have hturn : compareOfLessAndEq u.turn t.turn = .gt ↔ t.turn < u.turn := by
    simp only [compareOfLessAndEq]
    split_ifs <;> simp <;> omega
  rw [urgency, Ordering.then_eq_gt, hdue, hsame, hturn, precedes_iff]

/-- A task is no more urgent than another one exactly if it does not precede it. -/
lemma Task.isLE_urgency_iff {t u : Task β} : (u.urgency t).isLE = true ↔ ¬ u.Precedes t := by
  rw [Ordering.isLE_iff_ne_gt, urgency_eq_gt_iff]

namespace Queue

variable {q : Queue β} {t u : Task β}

lemma insertTask_perm (t : Task β) (us : List (Task β)) : (insertTask t us).Perm (t :: us) := by
  induction us with
  | nil => rfl
  | cons v vs ih =>
    unfold insertTask
    split
    · rfl
    · exact (ih.cons v).trans (.swap t v vs)

lemma pairwise_insertTask {us : List (Task β)} (hus : us.Pairwise Task.Precedes)
    (ht : ∀ u ∈ us, u.turn < t.turn) : (insertTask t us).Pairwise Task.Precedes := by
  induction us with
  | nil => simp [insertTask]
  | cons v vs ih =>
    obtain ⟨hv, hvs⟩ := List.pairwise_cons.mp hus
    unfold insertTask
    split
    · rename_i hdue
      refine List.pairwise_cons.mpr ⟨fun u hu => ?_, hus⟩
      rcases List.mem_cons.mp hu with rfl | hu
      · exact Or.inl hdue
      · exact Or.inl (Nat.lt_of_lt_of_le hdue (hv u hu).due_le)
    · -- at the same instant the task goes behind `v`, which has an earlier turn
      rename_i hdue
      refine List.pairwise_cons.mpr ⟨fun u hu => ?_, ih hvs fun u hu => ht u (.tail v hu)⟩
      rcases mem_insertTask.mp hu with rfl | hu
      · have hturn := ht v (.head vs)
        rw [Duration.lt_iff] at hdue
        exact Task.precedes_iff.mpr (by omega)
      · exact hv u hu

/-- A task that is due no earlier than all that wait goes to the end. -/
lemma insertTask_eq_append {us : List (Task β)} (h : ∀ u ∈ us, u.due ≤ t.due) :
    insertTask t us = us ++ [t] := by
  induction us with
  | nil => rfl
  | cons v vs ih =>
    have hv : ¬ t.due < v.due := by
      have hle := h v (.head vs)
      rw [Duration.le_iff] at hle
      rw [Duration.lt_iff]
      omega
    rw [insertTask, if_neg hv, ih fun u hu => h u (.tail v hu), List.cons_append]

/-- The tasks wait in order, each with a turn of its own that has been given out. -/
structure Ordered (q : Queue β) : Prop where
  sorted : q.waiting.Pairwise Task.Precedes
  turn_lt : ∀ t ∈ q.waiting, t.turn < q.scheduled
  turns : (q.waiting.map Task.turn).Nodup

lemma ordered_empty : ({} : Queue β).Ordered := ⟨.nil, by simp, by simp⟩

lemma Ordered.add (h : q.Ordered) (due : Duration) (body : β) : (q.add due body).Ordered where
  sorted := pairwise_insertTask h.sorted h.turn_lt
  turn_lt u hu := by
    rcases mem_insertTask.mp hu with rfl | hu
    · exact Nat.lt_succ_self _
    · exact Nat.lt_succ_of_lt (h.turn_lt u hu)
  turns := by
    rw [Queue.add, ((insertTask_perm _ _).map Task.turn).nodup_iff, List.map_cons,
      List.nodup_cons]
    refine ⟨fun hmem => ?_, h.turns⟩
    obtain ⟨u, hu, hturn⟩ := List.mem_map.mp hmem
    exact absurd (h.turn_lt u hu) (hturn ▸ Nat.lt_irrefl _)

lemma next?_cons (v : Task β) (vs : List (Task β)) (scheduled : Nat) (h : Horizon) :
    ({ waiting := v :: vs, scheduled } : Queue β).next? h =
      if h.admits v.due then some (v, { waiting := vs, scheduled }) else none :=
  rfl

lemma next?_eq_some_iff {h : Horizon} {q' : Queue β} :
    q.next? h = some (t, q') ↔
      q.waiting = t :: q'.waiting ∧ h.admits t.due = true ∧ q'.scheduled = q.scheduled := by
  obtain ⟨waiting, scheduled⟩ := q
  obtain ⟨waiting', scheduled'⟩ := q'
  cases waiting with
  | nil => simp [next?]
  | cons v vs =>
    by_cases hv : h.admits v.due = true
    · rw [next?_cons, if_pos hv]
      constructor
      · rintro heq
        cases heq
        exact ⟨rfl, hv, rfl⟩
      · rintro ⟨hcons, -, hscheduled⟩
        cases hcons
        cases hscheduled
        rfl
    · rw [next?_cons, if_neg hv]
      refine iff_of_false (by simp) ?_
      rintro ⟨hcons, ht, -⟩
      cases hcons
      exact hv ht

lemma Ordered.next? {h : Horizon} {q' : Queue β} (hq : q.Ordered)
    (hn : q.next? h = some (t, q')) : q'.Ordered := by
  obtain ⟨hwaiting, -, hscheduled⟩ := next?_eq_some_iff.mp hn
  have hsorted := hq.sorted
  have hturns := hq.turns
  rw [hwaiting] at hsorted hturns
  refine ⟨hsorted.of_cons, fun u hu => ?_, (List.nodup_cons.mp hturns).2⟩
  rw [hscheduled]
  exact hq.turn_lt u (hwaiting ▸ .tail t hu)

/-- The task that is taken precedes all that stay, and has another turn. -/
lemma Ordered.precedes_of_next? {h : Horizon} {q' : Queue β} (hq : q.Ordered)
    (hn : q.next? h = some (t, q')) (hu : u ∈ q'.waiting) :
    t.Precedes u ∧ t.turn ≠ u.turn := by
  obtain ⟨hwaiting, -, -⟩ := next?_eq_some_iff.mp hn
  have hsorted := hq.sorted
  have hturns := hq.turns
  rw [hwaiting] at hsorted hturns
  refine ⟨List.rel_of_pairwise_cons hsorted hu, fun heq => ?_⟩
  exact (List.nodup_cons.mp hturns).1 (heq ▸ List.mem_map_of_mem hu)

/-- **The task that is taken is the greatest of those that wait, by urgency**, provided it is within
the horizon. -/
theorem Ordered.next?_iff_greatest (hq : q.Ordered) (h : Horizon) :
    (∃ q', q.next? h = some (t, q')) ↔
      (t ∈ q.waiting ∧ ∀ u ∈ q.waiting, (u.urgency t).isLE = true) ∧ h.admits t.due = true := by
  simp only [Task.isLE_urgency_iff]
  constructor
  · rintro ⟨q', hn⟩
    obtain ⟨hwaiting, hadmits, -⟩ := next?_eq_some_iff.mp hn
    refine ⟨⟨hwaiting ▸ .head _, fun u hu hut => ?_⟩, hadmits⟩
    rcases List.mem_cons.mp (hwaiting ▸ hu) with rfl | hu
    · exact hut.irrefl
    · exact hut.asymm (hq.precedes_of_next? hn hu).1
  · rintro ⟨⟨ht, hgreatest⟩, hadmits⟩
    obtain ⟨waiting, scheduled⟩ := q
    cases waiting with
    | nil => cases ht
    | cons v vs =>
      -- were the first task another one, it would precede `t`
      obtain rfl : t = v := by
        rcases List.mem_cons.mp ht with rfl | ht
        · rfl
        · exact absurd (List.rel_of_pairwise_cons hq.sorted ht) (hgreatest v (.head vs))
      exact ⟨_, by rw [next?_cons, if_pos hadmits]⟩

/-- Two tasks that wait are one, or one precedes the other. -/
lemma Ordered.eq_or_precedes (hq : q.Ordered) (ht : t ∈ q.waiting) (hu : u ∈ q.waiting)
    (hut : ¬ u.Precedes t) : u = t ∨ t.Precedes u := by
  rw [Task.precedes_iff] at hut ⊢
  by_cases hturn : u.turn = t.turn
  · exact Or.inl (List.inj_on_of_nodup_map hq.turns hu ht hturn)
  · exact Or.inr (by omega)

/-- If nothing is taken, nothing that waits is within the horizon. -/
lemma Ordered.lt_due_of_next?_eq_none {instant : Duration} (hq : q.Ordered)
    (hn : q.next? (.upTo instant) = none) (hu : u ∈ q.waiting) : instant < u.due := by
  obtain ⟨waiting, scheduled⟩ := q
  cases waiting with
  | nil => cases hu
  | cons v vs =>
    have hv : ¬ v.due ≤ instant := by
      intro hle
      have hadmits : (Horizon.upTo instant).admits v.due = true := decide_eq_true hle
      rw [next?_cons, if_pos hadmits] at hn
      cases hn
    have hlt : instant < v.due := Nat.not_le.mp hv
    rcases List.mem_cons.mp hu with rfl | hu
    · exact hlt
    · exact Nat.lt_of_lt_of_le hlt (List.rel_of_pairwise_cons hq.sorted hu).due_le

lemma waiting_eq_nil_of_next?_unbounded (hn : q.next? .unbounded = none) : q.waiting = [] := by
  obtain ⟨waiting, scheduled⟩ := q
  cases waiting with
  | nil => rfl
  | cons v vs => cases hn

end Queue

end Eventual
