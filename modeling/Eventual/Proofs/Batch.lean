import Eventual.Proofs.Handover
import Eventual.Session.Run
import Mathlib.Data.List.Flatten
import Mathlib.Data.List.Perm.Subperm

/-!
# Observers of one settlement

Those who wait on the list of a promise when it is settled go out as one task.  So whatever a
scheduler does with the tasks that wait, as long as it runs each of them at most once
(`Program.Executes`), their callbacks run one right after the other, in the order in which they were
registered; and with the queue and its clock, those registered later follow in their order too
(`Program.callbacks_in_order`).

Two facts about every delivery are behind this: its observers are in the order of their numbers
(`Machine.Lined`), and if it is to tell the first of two observers that were registered before the
settlement, it is to tell the second one as well (`Machine.Together`).
-/

namespace Eventual

variable {P : Payload}

namespace World

variable {w w' : World P} {p : PromiseId}

/-- How the list of a promise changes: it stays, or is emptied, or an observer comes last. -/
lemma Effect.waitingFor {ρ : Type} {op : Op P ρ} (h : Effect w w' op) (p : PromiseId) :
    w'.waitingFor p = w.waitingFor p ∨ w'.waitingFor p = [] ∨
      ∃ ob, w'.waitingFor p = w.waitingFor p ++ [⟨w.observed p, ob⟩] := by
  have put : ∀ {q : PromiseId} {a b : Promise P}, w.promises[q.index]? = some a →
      w'.promises = w.promises.setIfInBounds q.index b →
      (q = p ∧ w'.waitingFor p = b.slot.waiting) ∨ w'.waitingFor p = w.waitingFor p := by
    intro q a b before promises
    by_cases hq : q = p
    · subst hq
      refine Or.inl ⟨rfl, waitingFor_of_eq_some (a := b) ?_⟩
      rw [promises, getElem?_putPromise _ before, if_pos rfl]
    · right
      have hne : ¬ q.index = p.index := fun hi => hq (congrArg PromiseId.mk hi)
      simp only [World.waitingFor, promises, Array.getElem?_setIfInBounds, if_neg hne]
  cases h with
  | still promises | schedule _ promises => exact Or.inl (by simp only [World.waitingFor, promises])
  | make segment? promises =>
    left
    simp only [World.waitingFor, promises, Array.getElem?_push]
    split
    · rename_i hi
      rw [Array.getElem?_eq_none (Nat.le_of_eq hi.symm)]
      rfl
    · rfl
  | settle before promises =>
    rcases put before promises with ⟨rfl, hwaiting⟩ | hsame
    · exact Or.inr (Or.inl hwaiting)
    · exact Or.inl hsame
  | @enlist _ _ _ _ ob before promises =>
    rcases put before promises with ⟨rfl, hwaiting⟩ | hsame
    · refine Or.inr (Or.inr ⟨ob, ?_⟩)
      rw [hwaiting, waitingFor_of_eq_some before, observed_of_eq_some before]
      rfl
    · exact Or.inl hsame
  | inform before promises =>
    rcases put before promises with ⟨rfl, hwaiting⟩ | hsame
    · exact Or.inr (Or.inl hwaiting)
    · exact Or.inl hsame

end World

namespace Machine

variable {m m' : Machine P} {p : PromiseId} {o : Outcome P.Value P.Error}
  {rs : List (Registration P)} {n n' : Nat}

/-! ## Where deliveries come from -/

/-- A delivery was there before, with one observer more or with none, or it goes out to those on the
list of a promise that is settled, or to an observer that is registered late. -/
lemma Step.delivers_cases (h : m.Step m') (hd : m'.Delivers p o rs) :
    (m.Delivers p o rs ∨ ∃ r, m.Delivers p o (r :: rs)) ∨
      (∃ s, m.Settles p s ∧ rs = (m.world.waitingFor p).filter (·.observer.awaits o)) ∨
      ∃ ob, m.Observes p ob ∧ rs.Sublist [⟨m.world.observed p, ob⟩] := by
  rcases hd with ⟨t, ht, hbody⟩ | hmem
  · have before : t ∈ m.world.queue.waiting → m.Delivers p o rs := fun ht => Or.inl ⟨t, ht, hbody⟩
    cases h with
    | @operate w w' _ _ k _ rest performed =>
      cases (World.effect_of_perform performed).2 with
      | still _ queue | make _ _ queue | enlist _ _ queue =>
        exact Or.inl (Or.inl (before (queue ▸ ht)))
      | schedule _ _ queue =>
        rw [queue] at ht
        rcases Queue.mem_insertTask.mp ht with rfl | ht
        · cases hbody
        · exact Or.inl (Or.inl (before ht))
      | @settle _ _ _ _ s held _ queue =>
        rw [queue] at ht
        rcases Queue.mem_deliver ht with ht | heq
        · exact Or.inl (Or.inl (before ht))
        · cases heq.symm.trans hbody
          refine Or.inr (Or.inl ⟨s, ⟨(Array.getElem?_eq_some_iff.mp held).1, ?_, k, rest, rfl⟩, ?_⟩)
          · exact congrArg View.settlement? (World.view_of_eq_some held)
          · rw [World.waitingFor_of_eq_some held]
            rfl
      | @inform _ _ _ _ ob held _ queue =>
        rw [queue] at ht
        rcases Queue.mem_deliver ht with ht | heq
        · exact Or.inl (Or.inl (before ht))
        · cases heq.symm.trans hbody
          refine Or.inr (Or.inr ⟨ob, ⟨(Array.getElem?_eq_some_iff.mp held).1, k, rest, rfl⟩, ?_⟩)
          rw [World.observed_of_eq_some held]
          exact List.filter_sublist
    | start taken =>
      refine Or.inl (Or.inl (before ?_))
      rw [(Queue.next?_eq_some_iff.mp taken).1]
      exact .tail _ ht
    | finish | drive | attempt | delivered | call | leaveOut | driven =>
      exact Or.inl (Or.inl (before ht))
  · left
    cases h with
    | finish | delivered => exact Or.inl (Or.inr (.tail _ hmem))
    | operate | drive | driven =>
      rcases List.mem_cons.mp hmem with heq | hmem
      · cases heq
      · exact Or.inl (Or.inr (.tail _ hmem))
    | attempt =>
      rcases List.mem_cons.mp hmem with heq | hmem
      · cases heq
      · rcases List.mem_cons.mp hmem with heq | hmem
        · cases heq
        · exact Or.inl (Or.inr (.tail _ hmem))
    | call =>
      rcases List.mem_cons.mp hmem with heq | hmem
      · cases heq
      · rcases List.mem_cons.mp hmem with heq | hmem
        · cases heq
          exact Or.inr ⟨_, Or.inr (.head _)⟩
        · exact Or.inl (Or.inr (.tail _ hmem))
    | leaveOut =>
      rcases List.mem_cons.mp hmem with heq | hmem
      · cases heq
        exact Or.inr ⟨_, Or.inr (.head _)⟩
      · exact Or.inl (Or.inr (.tail _ hmem))
    | @start w hor ran k t q rest taken =>
      rcases List.mem_cons.mp hmem with heq | hmem
      · refine Or.inl (Or.inl ⟨t, ?_, Activity.ofWork_eq_delivery_iff.mp heq.symm⟩)
        rw [(Queue.next?_eq_some_iff.mp taken).1]
        exact .head _
      · rcases List.mem_cons.mp hmem with heq | hmem
        · cases heq
        · exact Or.inl (Or.inr (.tail _ hmem))

/-- Observers are told in the order of their numbers: the list of a promise is in this order, and
every delivery is. -/
structure Lined (m : Machine P) (p : PromiseId) : Prop where
  listed : (m.world.waitingFor p).Pairwise (·.number < ·.number)
  delivered : ∀ o rs, m.Delivers p o rs → rs.Pairwise (·.number < ·.number)

/-- Every step keeps the order. -/
lemma Step.lined (h : m.Step m') (hnumbered : m.Numbered p) (hm : m.Lined p) : m'.Lined p := by
  refine ⟨?_, fun o rs hd => ?_⟩
  · have hlist : m'.world.waitingFor p = m.world.waitingFor p ∨ m'.world.waitingFor p = [] ∨
        ∃ ob, m'.world.waitingFor p = m.world.waitingFor p ++ [⟨m.world.observed p, ob⟩] := by
      cases h with
      | operate performed => exact (World.effect_of_perform performed).2.waitingFor p
      | finish | drive | attempt | delivered | call | leaveOut | start | driven => exact Or.inl rfl
    rcases hlist with hsame | hnil | ⟨ob, happend⟩
    · exact hsame ▸ hm.listed
    · exact hnil ▸ .nil
    · -- whoever comes last has the greatest number
      rw [happend]
      refine List.pairwise_append.mpr
        ⟨hm.listed, List.pairwise_singleton _ _, fun r hr r' hr' => ?_⟩
      rw [List.mem_singleton.mp hr']
      exact hnumbered.lt_observed r (Multiset.mem_add.mpr
        (Or.inl (Multiset.mem_add.mpr (Or.inl (Multiset.mem_coe.mpr hr)))))
  · rcases h.delivers_cases hd with (hd | ⟨r, hd⟩) | ⟨s, -, rfl⟩ | ⟨ob, -, hsub⟩
    · exact hm.delivered o rs hd
    · exact (List.pairwise_cons.mp (hm.delivered o _ hd)).2
    · exact hm.listed.filter _
    · exact (List.pairwise_singleton _ _).sublist hsub

/-- What is unresolved after a step was unresolved before. -/
lemma Step.unresolved_before (h : m.Step m') (hnone : (m'.world.view p).settlement? = none) :
    (m.world.view p).settlement? = none := by
  rcases hs : (m.world.view p).settlement? with _ | s
  · rfl
  · rw [h.view_eq hs, hs] at hnone
    cases hnone

/-- Whoever is registered on a promise that stays unresolved comes on its list. -/
lemma Step.mem_waitingFor_of_observes (h : m.Step m') (htruthful : m.Truthful)
    (hnumbered : m.Numbered p) {ob : Observer P} (hob : m.Observes p ob)
    (hnone : (m'.world.view p).settlement? = none) :
    ⟨m.world.observed p, ob⟩ ∈ m'.world.waitingFor p := by
  rcases ((h.fate htruthful p).of_observes hnumbered hob).2 with hmem | ⟨o, ho, -⟩
  · rw [(h.truthful htruthful).outstanding_eq hnone] at hmem
    exact hmem
  · rw [View.outcome?, hnone] at ho
    cases ho

/-- Whoever is on the list of a promise that stays unresolved stays there. -/
lemma Step.mem_waitingFor (h : m.Step m') (htruthful : m.Truthful) {r : Registration P}
    (hr : r ∈ m.world.waitingFor p) (hnone : (m'.world.view p).settlement? = none) :
    r ∈ m'.world.waitingFor p := by
  have hbefore := h.unresolved_before hnone
  have hmem : r ∈ m.outstanding p := by
    rw [htruthful.outstanding_eq hbefore]
    exact hr
  rcases (h.fate htruthful p).mem_after hmem with hmem | ⟨body, hcalls⟩ | ⟨o, ho, -⟩
  · rw [(h.truthful htruthful).outstanding_eq hnone] at hmem
    exact hmem
  · -- nobody is told of a promise that is unresolved
    obtain ⟨o, ho, -⟩ := hcalls.truthful htruthful
    rw [View.outcome?, hbefore] at ho
    cases ho
  · rw [View.outcome?, hnone] at ho
    cases ho

/-- A delivery that is to tell the one observer is to tell the other one as well. -/
def Together (m : Machine P) (p : PromiseId) (n n' : Nat) : Prop :=
  ∀ o rs, m.Delivers p o rs → (∃ r ∈ rs, r.number = n) → ∃ r ∈ rs, r.number = n'

/-- Once a promise is settled, every step keeps those together who were registered before. -/
lemma Step.together (h : m.Step m') (hm : m.Lined p) (hnn' : n < n')
    (hobserved : n' < m.world.observed p) (hsettled : (m.world.view p).settlement? ≠ none)
    (htogether : m.Together p n n') : m'.Together p n n' := by
  intro o rs hd hn
  rcases h.delivers_cases hd with (hd | ⟨r, hd⟩) | ⟨s, ⟨-, hnone, -⟩, -⟩ | ⟨ob, -, hsub⟩
  · exact htogether o rs hd hn
  · obtain ⟨r₀, hr₀, rfl⟩ := hn
    obtain ⟨r', hr', rfl⟩ := htogether o _ hd ⟨r₀, .tail _ hr₀, rfl⟩
    rcases List.mem_cons.mp hr' with rfl | hr'
    · -- the first one is told first
      have hlt := (List.pairwise_cons.mp (hm.delivered o _ hd)).1 r₀ hr₀
      omega
    · exact ⟨r', hr', rfl⟩
  · exact absurd hnone hsettled
  · obtain ⟨r, hr, rfl⟩ := hn
    have heq := congrArg Registration.number (List.mem_singleton.mp (hsub.subset hr))
    simp only at heq
    omega

/-- When a promise is settled, those on its list who wait for this go out together. -/
lemma Step.together_of_settles (h : m.Step m') (hm : m.Truthful)
    {s : Settlement P.Value P.Error} (hs : m.Settles p s) {r' : Registration P}
    (hr' : r' ∈ m.world.waitingFor p)
    (hawaits : ∀ o, (m'.world.view p).outcome? = some o → r'.observer.awaits o = true) (n : Nat) :
    m'.Together p n r'.number := by
  have hno : ∀ o rs, ¬ m.Delivers p o rs := by
    intro o rs hd
    have ho := (hm p o rs hd).1
    rw [View.outcome?, hs.2.1] at ho
    cases ho
  intro o rs hd hn
  have ho := (h.truthful hm p o rs hd).1
  rcases h.delivers_cases hd with (hd | ⟨r, hd⟩) | ⟨s', -, rfl⟩ | ⟨ob, hob, -⟩
  · exact absurd hd (hno o rs)
  · exact absurd hd (hno o _)
  · exact ⟨r', List.mem_filter.mpr ⟨hr', hawaits o ho⟩, rfl⟩
  · exact absurd hob hs.not_observes

/-- A delivery under way, with nothing but its scripts above it, stays as it is, or goes on to the
next observer, or is over. -/
lemma Step.of_delivery {w : World P} {above below : List (Activity P)}
    (h : Step ⟨w, above ++ .delivery p o rs :: below⟩ m')
    (hscripts : ∀ x ∈ above, ∃ s, x = .script s)
    (hno : ¬ Drives ⟨w, above ++ .delivery p o rs :: below⟩) :
    (∃ above', m'.stack = above' ++ .delivery p o rs :: below ∧
        ∀ x ∈ above', ∃ s, x = .script s) ∨
      (above = [] ∧ rs = []) ∨
      above = [] ∧ ∃ r rs' above', rs = r :: rs' ∧
        m'.stack = above' ++ .delivery p o rs' :: below ∧ ∀ x ∈ above', ∃ s, x = .script s := by
  cases above with
  | nil =>
    cases h with
    | delivered => exact Or.inr (Or.inl ⟨rfl, rfl⟩)
    | @call _ _ _ r rs body =>
      exact Or.inr (Or.inr ⟨rfl, r, rs, [.script body], rfl, rfl, by simp⟩)
    | @leaveOut _ _ _ r rs => exact Or.inr (Or.inr ⟨rfl, r, rs, [], rfl, rfl, by simp⟩)
  | cons x above =>
    obtain ⟨s, rfl⟩ := hscripts x (.head above)
    obtain ⟨new, hnew, hscripts'⟩ := h.of_script hno
    refine Or.inl ⟨new ++ above, ?_, fun x hx => ?_⟩
    · rw [hnew, List.append_assoc]
      rfl
    · rcases List.mem_append.mp hx with hx | hx
      · exact hscripts' x hx
      · exact hscripts x (.tail _ hx)

end Machine

/-! ## Any scheduler -/

/-- What a scheduler may do: put the tasks that wait into another order, or to other instants, drop
some of them, and set the clock. -/
structure World.Rescheduled (w w' : World P) : Prop where
  tasks : (w'.queue.waiting.map Task.body).Subperm (w.queue.waiting.map Task.body)
  others : ∃ queue clock, w' = { w with queue, clock }

/-- A run of a program under some scheduler, that may do anything with the tasks that wait before
each step but run one of them twice. -/
structure Program.Executes (prog : Program P) (run : Nat → Machine P) (length : Nat) : Prop where
  first : run 0 = prog.start
  next : ∀ n < length, ∃ w, (run n).world.Rescheduled w ∧
    Machine.Step ⟨w, (run n).stack⟩ (run (n + 1))

/-- The callbacks that run between the moments `l` and `l'` are all run by one delivery of a
promise, with nothing but their own scripts between them. -/
def BackToBack (run : Nat → Machine P) (p : PromiseId) (l l' : Nat) : Prop :=
  ∃ o below, ∀ j, l ≤ j → j ≤ l' → ∃ above rs,
    (run j).stack = above ++ .delivery p o rs :: below ∧ ∀ x ∈ above, ∃ s, x = .script s

namespace World.Rescheduled

variable {w w' : World P} {p : PromiseId} {stack : List (Activity P)} {n n' : Nat}

lemma refl (w : World P) : w.Rescheduled w := ⟨List.Subperm.refl _, w.queue, w.clock, rfl⟩

lemma promises_eq (h : w.Rescheduled w') : w'.promises = w.promises := by
  obtain ⟨queue, clock, rfl⟩ := h.others
  rfl

lemma view_eq (h : w.Rescheduled w') (p : PromiseId) : w'.view p = w.view p := by
  rw [view, view, h.promises_eq]

lemma observed_eq (h : w.Rescheduled w') (p : PromiseId) : w'.observed p = w.observed p := by
  rw [observed, observed, h.promises_eq]

lemma waitingFor_eq (h : w.Rescheduled w') (p : PromiseId) :
    w'.waitingFor p = w.waitingFor p := by
  rw [waitingFor, waitingFor, h.promises_eq]

lemma observes (h : w.Rescheduled w') {ob : Observer P}
    (hob : Machine.Observes ⟨w, stack⟩ p ob) : Machine.Observes ⟨w', stack⟩ p ob :=
  ⟨by rw [h.promises_eq]; exact hob.1, hob.2⟩

lemma settles (h : w.Rescheduled w') {s : Settlement P.Value P.Error}
    (hs : Machine.Settles ⟨w, stack⟩ p s) : Machine.Settles ⟨w', stack⟩ p s :=
  ⟨by rw [h.promises_eq]; exact hs.1, by rw [h.view_eq]; exact hs.2.1, hs.2.2⟩

lemma delivers (h : w.Rescheduled w') {o : Outcome P.Value P.Error} {rs : List (Registration P)}
    (hd : Machine.Delivers ⟨w', stack⟩ p o rs) : Machine.Delivers ⟨w, stack⟩ p o rs := by
  rcases hd with ⟨t, ht, hbody⟩ | hmem
  · obtain ⟨u, hu, heq⟩ := List.mem_map.mp (h.tasks.subset (List.mem_map_of_mem ht))
    exact Or.inl ⟨u, hu, heq.trans hbody⟩
  · exact Or.inr hmem

lemma outstanding_le (h : w.Rescheduled w') (p : PromiseId) :
    Machine.outstanding ⟨w', stack⟩ p ≤ Machine.outstanding ⟨w, stack⟩ p := by
  have htoTell : ∀ v : World P, v.queue.toTell p =
      ↑((v.queue.waiting.map Task.body).flatMap (Work.toTell p)) := by
    intro v
    rw [List.flatMap_map]
    rfl
  have hle : w'.queue.toTell p ≤ w.queue.toTell p := by
    obtain ⟨l, hperm, hsub⟩ := h.tasks
    rw [htoTell, htoTell, ← Multiset.coe_eq_coe.mpr (hperm.flatMap_right _)]
    exact Multiset.coe_le.mpr (hsub.flatMap _).subperm
  refine add_le_add_left (add_le_add (le_of_eq ?_) hle) _
  rw [h.waitingFor_eq]

lemma truthful (h : w.Rescheduled w') (hm : Machine.Truthful ⟨w, stack⟩) :
    Machine.Truthful ⟨w', stack⟩ := by
  intro p o rs hd
  rw [h.view_eq]
  exact hm p o rs (h.delivers hd)

lemma numbered (h : w.Rescheduled w') (hm : Machine.Numbered ⟨w, stack⟩ p) :
    Machine.Numbered ⟨w', stack⟩ p := by
  refine ⟨Multiset.nodup_of_le (Multiset.map_le_map (h.outstanding_le p)) hm.nodup, fun r hr => ?_⟩
  rw [h.observed_eq]
  exact hm.lt_observed r (Multiset.mem_of_le (h.outstanding_le p) hr)

lemma lined (h : w.Rescheduled w') (hm : Machine.Lined ⟨w, stack⟩ p) :
    Machine.Lined ⟨w', stack⟩ p := by
  refine ⟨?_, fun o rs hd => hm.delivered o rs (h.delivers hd)⟩
  rw [h.waitingFor_eq]
  exact hm.listed

lemma knows (h : w.Rescheduled w') {Q : Observer P → Prop} (hm : Machine.Knows ⟨w, stack⟩ p n Q) :
    Machine.Knows ⟨w', stack⟩ p n Q := by
  refine ⟨?_, fun r hr => hm.outstanding r (Multiset.mem_of_le (h.outstanding_le p) hr)⟩
  rw [h.observed_eq]
  exact hm.lt_observed

lemma together (h : w.Rescheduled w') (hm : Machine.Together ⟨w, stack⟩ p n n') :
    Machine.Together ⟨w', stack⟩ p n n' :=
  fun o rs hd => hm o rs (h.delivers hd)

end World.Rescheduled

namespace Program.Executes

variable {prog : Program P} {run : Nat → Machine P} {length i i' j c l l' n : Nat}
  {p : PromiseId} {ob ob' : Observer P} {s : Settlement P.Value P.Error}
  {body body' : Script P Unit}

/-- What holds of every promise at every moment, whatever the scheduler does. -/
lemma sound (h : prog.Executes run length) (hn : n ≤ length) (p : PromiseId) :
    (run n).Truthful ∧ (run n).Numbered p ∧ (run n).Lined p := by
  induction n with
  | zero =>
    rw [h.first]
    have hno : ∀ q o rs, ¬ prog.start.Delivers q o rs := by
      rintro q o rs (⟨t, ht, -⟩ | hmem)
      · cases ht
      · cases List.mem_singleton.mp hmem
    exact ⟨fun q o rs hd => absurd hd (hno q o rs), numbered (moment_zero prog) p, .nil,
      fun o rs hd => absurd hd (hno p o rs)⟩
  | succ n ih =>
    obtain ⟨htruthful, hnumbered, hlined⟩ := ih (Nat.le_of_succ_le hn)
    obtain ⟨w, hw, hstep⟩ := h.next n hn
    have htruthful' := hw.truthful htruthful
    have hnumbered' := hw.numbered hnumbered
    exact ⟨hstep.truthful htruthful', (hstep.fate htruthful' p).numbered hnumbered',
      hstep.lined hnumbered' (hw.lined hlined)⟩

/-- What a scheduler leaves alone and every step keeps, stays. -/
lemma carry (h : prog.Executes run length) {I : Machine P → Prop}
    (keep : ∀ m m', m.Truthful → m.Numbered p → m.Lined p → I m → m.Step m' → I m')
    (resched : ∀ w w' stack, w.Rescheduled w' → I ⟨w, stack⟩ → I ⟨w', stack⟩) (hij : i ≤ j)
    (hj : j ≤ length) (hi : I (run i)) : I (run j) := by
  induction j, hij using Nat.le_induction with
  | base => exact hi
  | succ j hij ih =>
    obtain ⟨w, hw, hstep⟩ := h.next j hj
    obtain ⟨htruthful, hnumbered, hlined⟩ := h.sound (Nat.le_of_succ_le hj) p
    exact keep _ _ (hw.truthful htruthful) (hw.numbered hnumbered) (hw.lined hlined)
      (resched _ _ _ hw (ih (Nat.le_of_succ_le hj))) hstep

lemma outcome?_eq (h : prog.Executes run length) (hij : i ≤ j) (hj : j ≤ length)
    {o : Outcome P.Value P.Error} (ho : ((run i).world.view p).outcome? = some o) :
    ((run j).world.view p).outcome? = some o :=
  h.carry (p := p) (I := fun m => (m.world.view p).outcome? = some o)
    (fun _ _ _ _ _ hm hstep => hstep.outcome?_eq hm)
    (fun w w' stack hw hm => by rw [hw.view_eq]; exact hm) hij hj ho

lemma knows (h : prog.Executes run length) {Q : Observer P → Prop} (hij : i ≤ j) (hj : j ≤ length)
    (hknows : (run i).Knows p n Q) : (run j).Knows p n Q :=
  h.carry (p := p) (I := fun m => m.Knows p n Q)
    (fun _ _ htruthful _ _ hm hstep => (hstep.fate htruthful p).knows hm)
    (fun _ _ _ hw hm => hw.knows hm) hij hj hknows

/-- Whoever was registered is known from then on. -/
lemma knows_of_observes (h : prog.Executes run length) (hob : (run i).Observes p ob) (hij : i < j)
    (hj : j ≤ length) : (run j).Knows p ((run i).world.observed p) (· = ob) := by
  obtain ⟨w, hw, hstep⟩ := h.next i (Nat.lt_of_lt_of_le hij hj)
  obtain ⟨htruthful, hnumbered, -⟩ := h.sound (Nat.le_of_lt (Nat.lt_of_lt_of_le hij hj)) p
  have hknows := ((hstep.fate (hw.truthful htruthful) p).of_observes (hw.numbered hnumbered)
    (hw.observes hob)).1
  rw [hw.observed_eq] at hknows
  exact h.knows hij hj hknows

/-- Who was registered on a promise that is still unresolved is on its list. -/
lemma mem_waitingFor (h : prog.Executes run length) (hob : (run i).Observes p ob) (hij : i < j)
    (hj : j ≤ length) (hnone : ((run j).world.view p).settlement? = none) :
    ⟨(run i).world.observed p, ob⟩ ∈ (run j).world.waitingFor p := by
  induction j, hij using Nat.le_induction with
  | base =>
    obtain ⟨w, hw, hstep⟩ := h.next i hj
    obtain ⟨htruthful, hnumbered, -⟩ := h.sound (Nat.le_of_succ_le hj) p
    have hmem := hstep.mem_waitingFor_of_observes (hw.truthful htruthful) (hw.numbered hnumbered)
      (hw.observes hob) hnone
    rw [hw.observed_eq] at hmem
    exact hmem
  | succ j hij ih =>
    obtain ⟨w, hw, hstep⟩ := h.next j hj
    obtain ⟨htruthful, -, -⟩ := h.sound (Nat.le_of_succ_le hj) p
    have hbefore := hstep.unresolved_before hnone
    rw [hw.view_eq] at hbefore
    have hmem := ih (Nat.le_of_succ_le hj) hbefore
    rw [← hw.waitingFor_eq] at hmem
    exact hstep.mem_waitingFor (hw.truthful htruthful) hmem hnone

/-- Who has been called is outstanding no more. -/
lemma knows_of_calls (h : prog.Executes run length) (hcalls : (run i).Calls p n body) (hij : i < j)
    (hj : j ≤ length) : (run j).Knows p n fun _ => False := by
  obtain ⟨w, hw, hstep⟩ := h.next i (Nat.lt_of_lt_of_le hij hj)
  obtain ⟨htruthful, hnumbered, -⟩ := h.sound (Nat.le_of_lt (Nat.lt_of_lt_of_le hij hj)) p
  exact h.knows hij hj (hstep.knows_of_calls (hstep.fate (hw.truthful htruthful) p)
    (hw.numbered hnumbered) hcalls)

/-- The one of two observers that is registered later has the greater number. -/
lemma observed_lt (h : prog.Executes run length) (hob : (run i).Observes p ob) (hii' : i < i')
    (hi' : i' ≤ length) : (run i).world.observed p < (run i').world.observed p :=
  (h.knows_of_observes hob hii' hi').lt_observed

/-- A promise of which an observer is told was settled before. -/
lemma lt_of_calls (h : prog.Executes run length) (hs : (run c).Settles p s)
    (hcalls : (run l).Calls p n body) (hc : c ≤ length) (hl : l ≤ length) : c < l := by
  by_contra hle
  obtain ⟨o, ho, -⟩ := hcalls.truthful (h.sound hl p).1
  have ho' := h.outcome?_eq (Nat.not_lt.mp hle) hc ho
  rw [View.outcome?, hs.2.1] at ho'
  cases ho'

/-- A promise that was settled has an outcome. -/
lemma exists_outcome? (h : prog.Executes run length) (hs : (run c).Settles p s) (hcj : c < j)
    (hj : j ≤ length) : ∃ o, ((run j).world.view p).outcome? = some o := by
  obtain ⟨w, hw, hstep⟩ := h.next c (Nat.lt_of_lt_of_le hcj hj)
  have hafter := hstep.view_of_settles (hw.settles hs)
  exact ⟨_, h.outcome?_eq hcj hj (by rw [View.outcome?, hafter]; rfl)⟩

/-- Whoever was registered before the settlement, and is told, goes out with those before him. -/
lemma together (h : prog.Executes run length) (hs : (run c).Settles p s) (hii' : i < i')
    (hi'c : i' < c) (hob : (run i).Observes p ob) (hob' : (run i').Observes p ob')
    (hl' : l' ≤ length) (hcalls' : (run l').Calls p ((run i').world.observed p) body') (hcj : c < j)
    (hj : j ≤ length) :
    (run j).Together p ((run i).world.observed p) ((run i').world.observed p) := by
  have hc : c < length := Nat.lt_of_lt_of_le hcj hj
  have hcl' := h.lt_of_calls hs hcalls' (Nat.le_of_lt hc) hl'
  have hnn' := h.observed_lt hob hii' (by omega)
  obtain ⟨w, hw, hstep⟩ := h.next c hc
  obtain ⟨htruthful, -, -⟩ := h.sound (Nat.le_of_lt hc) p
  -- the later one waits for what the promise ends with, since he is told
  have hawaits : ∀ o, ((run (c + 1)).world.view p).outcome? = some o → ob'.awaits o = true := by
    intro o ho
    obtain ⟨o', ho', r, hr, hn, hhandler⟩ := hcalls'.truthful (h.sound hl' p).1
    obtain rfl := (h.knows_of_observes hob' (by omega) hl').outstanding r hr hn
    cases (h.outcome?_eq hcl' hl' ho).symm.trans ho'
    rw [Observer.awaits, hhandler]
    rfl
  have hmem := h.mem_waitingFor hob' hi'c (Nat.le_of_lt hc) hs.2.1
  rw [← hw.waitingFor_eq] at hmem
  have hfirst := hstep.together_of_settles (hw.truthful htruthful) (hw.settles hs) hmem hawaits
    ((run i).world.observed p)
  -- and they stay together
  induction j, hcj using Nat.le_induction with
  | base => exact hfirst
  | succ j hcj ih =>
    obtain ⟨w₁, hw₁, hstep₁⟩ := h.next j hj
    have hsettled : (w₁.view p).settlement? ≠ none := by
      obtain ⟨o, ho⟩ := h.exists_outcome? hs hcj (Nat.le_of_succ_le hj)
      rw [hw₁.view_eq]
      intro hnone
      rw [View.outcome?, hnone] at ho
      cases ho
    have hobserved : (run i').world.observed p < w₁.observed p := by
      rw [hw₁.observed_eq]
      exact h.observed_lt hob' (by omega) (Nat.le_of_succ_le hj)
    exact hstep₁.together (hw₁.lined (h.sound (Nat.le_of_succ_le hj) p).2.2) hnn' hobserved hsettled
      (hw₁.together (ih (Nat.le_of_succ_le hj)))

/-- As long as an observer is among those whom a delivery under way is still to tell, nothing
happens but what this delivery does. -/
lemma stays_until (h : prog.Executes run length)
    (passive : ∀ n ≤ length, ∀ p o rs, .delivery p o rs ∈ (run n).stack → ¬ (run n).Drives)
    {o : Outcome P.Value P.Error} {rs : List (Registration P)} {below : List (Activity P)}
    (hstack : (run l).stack = .delivery p o rs :: below) (hn : ∃ r ∈ rs, r.number = n)
    (hl' : l' ≤ length) (hcalls' : (run l').Calls p n body') (hlj : l ≤ j) (hjl' : j ≤ l') :
    ∃ above rs, (run j).stack = above ++ .delivery p o rs :: below ∧
      (∀ x ∈ above, ∃ s, x = .script s) ∧ ∃ r ∈ rs, r.number = n := by
  induction j, hlj using Nat.le_induction with
  | base => exact ⟨[], rs, hstack, by simp, hn⟩
  | succ j hlj ih =>
    obtain ⟨above, rs, hbefore, hscripts, r, hr, hnumber⟩ := ih (Nat.le_of_succ_le hjl')
    have hj : j < length := Nat.lt_of_lt_of_le hjl' hl'
    obtain ⟨w, hw, hstep⟩ := h.next j hj
    have htruthful := hw.truthful (h.sound (Nat.le_of_lt hj) p).1
    have hmem : Activity.delivery p o rs ∈ (run j).stack :=
      hbefore ▸ List.mem_append_right _ (.head below)
    have hno : ¬ Machine.Drives ⟨w, (run j).stack⟩ := passive j (Nat.le_of_lt hj) p o rs hmem
    rw [hbefore] at hstep hno
    rcases hstep.of_delivery hscripts hno with ⟨above', hafter, hscripts'⟩ | ⟨rfl, rfl⟩ |
      ⟨rfl, r₀, rs', above', rfl, hafter, hscripts'⟩
    · exact ⟨above', rs, hafter, hscripts', r, hr, hnumber⟩
    · cases hr
    · rcases List.mem_cons.mp hr with rfl | hr
      · -- he would be told now, but he is told later
        obtain ⟨body, handler⟩ := Option.isSome_iff_exists.mp
          ((htruthful p o _ (Or.inr hmem)).2 r (.head rs'))
        obtain ⟨-, -, r', hr', hnumber', -⟩ := hcalls'.truthful (h.sound hl' p).1
        have hcalls : (run j).Calls p n body := ⟨o, r, rs', below, hbefore, hnumber, handler⟩
        exact ((h.knows_of_calls hcalls hjl' hl').outstanding r' hr' hnumber').elim
      · exact ⟨above', rs', hafter, hscripts', r, hr, hnumber⟩

/-- **Observers of one settlement.**  Of two observers that were registered before the settlement
the one that was registered first is told first, and until the other one is told nothing happens but
what their delivery does. -/
theorem back_to_back (h : prog.Executes run length)
    (passive : ∀ n ≤ length, ∀ p o rs, .delivery p o rs ∈ (run n).stack → ¬ (run n).Drives)
    (hs : (run c).Settles p s) (hc : c ≤ length) (hii' : i < i') (hi'c : i' < c)
    (hob : (run i).Observes p ob) (hob' : (run i').Observes p ob') (hl : l ≤ length)
    (hcalls : (run l).Calls p ((run i).world.observed p) body) (hl' : l' ≤ length)
    (hcalls' : (run l').Calls p ((run i').world.observed p) body') :
    l < l' ∧ BackToBack run p l l' := by
  have hcl := h.lt_of_calls hs hcalls hc hl
  have hlt := h.observed_lt hob hii' (by omega)
  obtain ⟨o, r, rs, below, hstack, hnumber, -⟩ := id hcalls
  -- the later one is to be told by the delivery that tells the first one now
  have hmem : ∃ r' ∈ r :: rs, r'.number = (run i').world.observed p :=
    h.together hs hii' hi'c hob hob' hl' hcalls' hcl hl o (r :: rs)
      (Or.inr (hstack ▸ .head below)) ⟨r, .head rs, hnumber⟩
  have hll' : l < l' := by
    rcases Nat.lt_trichotomy l l' with hlt' | rfl | hgt
    · exact hlt'
    · obtain ⟨o', r', rs', below', hstack', hnumber', -⟩ := hcalls'
      cases hstack.symm.trans hstack'
      omega
    · obtain ⟨r', hr', hnumber'⟩ := hmem
      have houtstanding : r' ∈ (run l).outstanding p := by
        refine Multiset.mem_add.mpr (Or.inr (Multiset.mem_coe.mpr ?_))
        rw [hstack, List.flatMap_cons, Activity.toTell, if_pos rfl]
        exact List.mem_append_left _ hr'
      exact ((h.knows_of_calls hcalls' hgt hl).outstanding r' houtstanding hnumber').elim
  refine ⟨hll', o, below, fun j hlj hjl' => ?_⟩
  obtain ⟨above, rs', hafter, hscripts, -⟩ :=
    h.stays_until passive hstack hmem hl' hcalls' hlj hjl'
  exact ⟨above, rs', hafter, hscripts⟩

end Program.Executes

/-! ## The queue and its clock -/

namespace Program

variable {prog : Program P} {i i' c l l' n : Nat} {m m' : Machine P} {p : PromiseId}
  {ob ob' : Observer P} {s : Settlement P.Value P.Error}

/-- The machine at a moment, for moments that the run reaches. -/
def steps (prog : Program P) (n : Nat) : Machine P := (prog.moment n).getD prog.start

lemma steps_eq (hn : prog.moment n = some m) : prog.steps n = m := by
  rw [steps, hn, Option.getD_some]

/-- The run of a program is a run under some scheduler. -/
lemma executes (hn : prog.moment n = some m) : prog.Executes prog.steps n := by
  refine ⟨rfl, fun i hi => ?_⟩
  obtain ⟨m', hm'⟩ := exists_moment_of_le (Nat.succ_le_of_lt hi) hn
  obtain ⟨m₁, h₁, hstep⟩ := moment_succ_eq_some_iff.mp hm'
  rw [steps_eq h₁, steps_eq hm']
  exact ⟨m₁.world, .refl _, hstep⟩

lemma exists_moment_max (hi : prog.moment i = some m) (hl : prog.moment l = some m') :
    ∃ m, prog.moment (max i l) = some m := by
  rcases Nat.le_total i l with hle | hle
  · exact ⟨m', by rw [Nat.max_eq_right hle, hl]⟩
  · exact ⟨m, by rw [Nat.max_eq_left hle, hi]⟩

lemma Passive.steps (passive : prog.Passive) (hn : prog.moment n = some m) :
    ∀ i ≤ n, ∀ p o rs, .delivery p o rs ∈ (prog.steps i).stack → ¬ (prog.steps i).Drives := by
  intro i hi p o rs hmem
  obtain ⟨m', hm'⟩ := exists_moment_of_le hi hn
  rw [steps_eq hm'] at hmem ⊢
  exact passive i m' p o rs hm' hmem

/-- Whoever is told of a settlement waits for it. -/
lemma awaits_of_calls {mc : Machine P} {body : Script P Unit} (hi : prog.moment i = some m)
    (hob : m.Observes p ob) (hc : prog.moment c = some mc) (hs : mc.Settles p s)
    (hl : prog.moment l = some m') (hcl : c < l) (hcalls : m'.Calls p (m.world.observed p) body) :
    ob.awaits (s.outcome (mc.world.view p).segment?) = true := by
  obtain ⟨o, ho, r, hr, hnumber, handler⟩ := hcalls.truthful (truthful hl)
  have hil := lt_of_calls hi hl hcalls
  obtain rfl := (registered hi hob hil hl).1.outstanding r hr hnumber
  obtain ⟨mc', hc'⟩ := exists_moment_of_le hcl hl
  have hafter := (step_of_moment hc hc').view_of_settles hs
  have ho' := outcome?_of_le hcl hc' hl (o := s.outcome (mc.world.view p).segment?)
    (by rw [View.outcome?, hafter]; rfl)
  cases ho.symm.trans ho'
  rw [Observer.awaits, handler]
  rfl

/-- **Callbacks run in the order of their registration.** -/
theorem Passive.called_in_order (passive : prog.Passive) (hii' : i < i')
    (hi : prog.moment i = some m) (hob : m.Observes p ob) (hi' : prog.moment i' = some m')
    (hob' : m'.Observes p ob')
    (hl : prog.At l fun m₁ => ∃ body, m₁.Calls p (m.world.observed p) body)
    (hl' : prog.At l' fun m₁ => ∃ body, m₁.Calls p (m'.world.observed p) body) :
    l < l' ∧ ∀ c s, i' < c → prog.At c (fun m => m.Settles p s) →
      BackToBack prog.steps p l l' := by
  obtain ⟨m₁, h₁, body, hcalls⟩ := hl
  obtain ⟨m₁', h₁', body', hcalls'⟩ := hl'
  -- those registered before the settlement
  have hbefore : ∀ c s, i' < c → prog.At c (fun m => m.Settles p s) →
      l < l' ∧ BackToBack prog.steps p l l' := by
    rintro c s hi'c ⟨mc, hc, hs⟩
    obtain ⟨m₂, h₂⟩ := exists_moment_max h₁ h₁'
    obtain ⟨mn, hn⟩ := exists_moment_max hc h₂
    rw [← steps_eq hc] at hs
    rw [← steps_eq hi] at hob hcalls
    rw [← steps_eq hi'] at hob' hcalls'
    rw [← steps_eq h₁] at hcalls
    rw [← steps_eq h₁'] at hcalls'
    exact (executes hn).back_to_back (passive.steps hn) hs (by omega) hii' hi'c hob hob' (by omega)
      hcalls (by omega) hcalls'
  refine ⟨?_, fun c s hi'c hc => (hbefore c s hi'c hc).2⟩
  obtain ⟨o, ho, -⟩ := hcalls.truthful (truthful h₁)
  obtain ⟨s, hs, -⟩ := Option.map_eq_some_iff.mp ho
  obtain ⟨c, hcl, mc, hc, hsettles⟩ := exists_settles h₁ hs
  rcases Nat.lt_trichotomy i' c with hlt | rfl | hlt
  · exact (hbefore c s hlt ⟨mc, hc, hsettles⟩).1
  · cases hi'.symm.trans hc
    exact absurd hob' hsettles.not_observes
  · -- the one registered after the settlement is sent what happened after the other one
    have hi'l' := lt_of_calls hi' h₁' hcalls'
    have hsends := sends_of_observes hi hob hc hsettles
      (awaits_of_calls hi hob hc hsettles h₁ hcl hcalls)
    have hsends' := sends_of_observes hi' hob' hc hsettles
      (awaits_of_calls hi' hob' hc hsettles h₁' (by omega) hcalls')
    exact passive.calls_in_order (by omega) hsends hsends' ⟨m₁, h₁, body, hcalls⟩
      ⟨m₁', h₁', body', hcalls'⟩

/-- Callbacks that run back to back run in one task, and no other one starts in between. -/
lemma Passive.runs_of_backToBack (passive : prog.Passive)
    (hback : BackToBack prog.steps p l l') (hll' : l ≤ l')
    (hl' : prog.At l' fun m => ∃ n body, m.Calls p n body) :
    ∃ t below, ∀ j, l ≤ j → j ≤ l' →
      prog.Runs j t below ∧ ∀ u, ¬ prog.At j fun m => m.Starts u := by
  obtain ⟨o, below, hbetween⟩ := hback
  obtain ⟨m, hm, -⟩ := hl'
  have hstack : ∀ j, l ≤ j → j ≤ l' → prog.At j fun m => ∃ above rs,
      m.stack = above ++ .delivery p o rs :: below := by
    intro j hlj hjl'
    obtain ⟨mj, hj⟩ := exists_moment_of_le hjl' hm
    obtain ⟨above, rs, heq, -⟩ := hbetween j hlj hjl'
    rw [steps_eq hj] at heq
    exact ⟨mj, hj, above, rs, heq⟩
  obtain ⟨m₁, h₁, above, rs, heq⟩ := hstack l' hll' (Nat.le_refl l')
  obtain ⟨t, rs₀, hbody, -, hruns⟩ := runs_of_delivery h₁ heq
  obtain ⟨hor, ran, k, rest, s, hbelow, hsl', ⟨m₂, h₂, hdrive, hstarts⟩, habove⟩ := hruns
  refine ⟨t, below, fun j hlj hjl' => ?_⟩
  -- the delivery was started before the first of the two was told
  have hsj : s < j := by
    by_contra hle
    obtain ⟨m₃, h₃, above₃, rs₃, heq₃⟩ := hstack s (by omega) (Nat.le_of_lt hsl')
    cases h₂.symm.trans h₃
    have hlength := congrArg List.length (hdrive.symm.trans heq₃)
    simp only [hbelow, List.length_cons, List.length_append] at hlength
    omega
  have hruns : prog.Runs j t below := ⟨hor, ran, k, rest, s, hbelow, hsj,
    ⟨m₂, h₂, hdrive, hstarts⟩, fun i hsi hij => habove i hsi (Nat.le_trans hij hjl')⟩
  exact ⟨hruns, fun u => passive.not_starts_of_runs hbody hruns⟩

/-- **Callbacks run in the order of their registration.**

* If no callback makes a drive call, then of two observers of one promise that are told, the one
  that was registered first is told first, whether they were registered before the settlement, after
  it, or in a callback of the promise itself.  If both were registered before the settlement, one
  task runs all the while, and no other one starts.
* Whatever a scheduler does with the tasks that wait, as long as it runs each of them at most once,
  two observers that were registered before the settlement are told in the order of their
  registration, with nothing in between but the callbacks of their delivery. -/
theorem callbacks_in_order (prog : Program P) :
    (prog.Passive → ∀ p i i' m m' ob ob' l l', i < i' → prog.moment i = some m →
      m.Observes p ob → prog.moment i' = some m' → m'.Observes p ob' →
      prog.At l (fun m₁ => ∃ body, m₁.Calls p (m.world.observed p) body) →
      prog.At l' (fun m₁ => ∃ body, m₁.Calls p (m'.world.observed p) body) →
      l < l' ∧ ∀ c s, i' < c → prog.At c (fun m => m.Settles p s) →
        ∃ t below, ∀ j, l ≤ j → j ≤ l' →
          prog.Runs j t below ∧ ∀ u, ¬ prog.At j fun m => m.Starts u) ∧
    ∀ run length, prog.Executes run length →
      (∀ n ≤ length, ∀ p o rs, .delivery p o rs ∈ (run n).stack → ¬ (run n).Drives) →
      ∀ p i i' c s ob ob' l l' body body', i < i' → i' < c → c ≤ length → l ≤ length → l' ≤ length →
        (run i).Observes p ob → (run i').Observes p ob' → (run c).Settles p s →
        (run l).Calls p ((run i).world.observed p) body →
        (run l').Calls p ((run i').world.observed p) body' →
        l < l' ∧ BackToBack run p l l' := by
  constructor
  · intro passive p i i' m m' ob ob' l l' hii' hi hob hi' hob' hl hl'
    obtain ⟨hll', hback⟩ := passive.called_in_order hii' hi hob hi' hob' hl hl'
    obtain ⟨m₁, h₁, body, hcalls⟩ := hl'
    exact ⟨hll', fun c s hi'c hc => passive.runs_of_backToBack (hback c s hi'c hc)
      (Nat.le_of_lt hll') ⟨m₁, h₁, _, body, hcalls⟩⟩
  · intro run length h passive p i i' c s ob ob' l l' body body' hii' hi'c hc hl hl' hob hob' hs
      hcalls hcalls'
    exact h.back_to_back passive hs hc hii' hi'c hob hob' hl hcalls hl' hcalls'

/-- A program that registers two observers on a promise before this fails, and one afterwards. -/
def observedThrice : Program Session.Play where
  settings := .withoutTraces
  walks _ := []
  internal := []
  store := {}
  main := do
    let p ← Script.create
    Script.observe p (.onFailure fun _ => .pure ())
    Script.observe p (.onFailure fun _ => .pure ())
    discard (Script.fail p (.failed "lost"))
    Script.observe p (.onFailure fun _ => .pure ())
    discard Script.runUntilIdle

lemma passive_observedThrice : observedThrice.Passive := by
  refine (flat_of_ends (n := 20) rfl ?_).passive
  decide +kernel

/-- In `observedThrice` the observers are told at the moments 7, 9 and 13, the first two of them by
one task. -/
theorem callbacks_in_order_observedThrice :
    (∃ t below, ∀ j, 7 ≤ j → j ≤ 9 → observedThrice.Runs j t below ∧
      ∀ u, ¬ observedThrice.At j fun m => m.Starts u) ∧
      9 < 13 ∧ BackToBack observedThrice.steps ⟨0⟩ 7 9 := by
  obtain ⟨hqueue, hany⟩ := callbacks_in_order observedThrice
  have hfirst : observedThrice.At 7 fun m => ∃ body, m.Calls ⟨0⟩ 0 body :=
    ⟨_, rfl, _, _, _, _, _, rfl, rfl, rfl⟩
  have hsecond : observedThrice.At 9 fun m => ∃ body, m.Calls ⟨0⟩ 1 body :=
    ⟨_, rfl, _, _, _, _, _, rfl, rfl, rfl⟩
  have hthird : observedThrice.At 13 fun m => ∃ body, m.Calls ⟨0⟩ 2 body :=
    ⟨_, rfl, _, _, _, _, _, rfl, rfl, rfl⟩
  have hsettles : observedThrice.At 3 fun m => m.Settles ⟨0⟩ (.failed (.failed "lost") none) :=
    ⟨_, rfl, by decide, rfl, _, _, rfl⟩
  refine ⟨?_, ?_, ?_⟩
  · exact (hqueue passive_observedThrice ⟨0⟩ 1 2 _ _ _ _ 7 9 (by decide) rfl
      ⟨by decide, _, _, rfl⟩ rfl ⟨by decide, _, _, rfl⟩ hfirst hsecond).2 3 _ (by decide) hsettles
  · exact (hqueue passive_observedThrice ⟨0⟩ 2 4 _ _ _ _ 9 13 (by decide) rfl
      ⟨by decide, _, _, rfl⟩ rfl ⟨by decide, _, _, rfl⟩ hsecond hthird).1
  · obtain ⟨m, hm⟩ : ∃ m, observedThrice.moment 9 = some m := ⟨_, rfl⟩
    obtain ⟨m₇, h₇, body, hcalls⟩ := hfirst
    obtain ⟨m₉, h₉, body', hcalls'⟩ := hsecond
    obtain ⟨m₃, h₃, hs⟩ := hsettles
    rw [← steps_eq h₇] at hcalls
    rw [← steps_eq h₉] at hcalls'
    rw [← steps_eq h₃] at hs
    exact (hany _ 9 (executes hm) (passive_observedThrice.steps hm) ⟨0⟩ 1 2 3 _ _ _ 7 9 _ _
      (by decide) (by decide) (by decide) (by decide) (by decide) ⟨by decide, _, _, rfl⟩
      ⟨by decide, _, _, rfl⟩ hs hcalls hcalls').2

end Program

end Eventual
