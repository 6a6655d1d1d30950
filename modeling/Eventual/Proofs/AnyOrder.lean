import Eventual.Proofs.Errands

/-!
# Tasks in any order

The sources of a network are settled and its tasks are run in any order whatsoever
(`World.AnyOrder`).  Two things hold all the while: the world is at odds with no verdict
(`Plan.Safe`), and no errand is lost (`Plan.Live`).  So when no task waits any more and everything
that is given is settled, everything is settled, one promise after the other.
-/

namespace Eventual

variable {P : Payload}

/-! ## Running a task -/

namespace Plan

/-- An observer with an errand waits with a promise or in a task, or is to be told in the delivery
under way. -/
def Out (N : Plan P) (w : World P) (x : Option P.Value) (rs : List (Registration P))
    (e : Errand) : Prop :=
  N.Open w e ∨ ∃ r ∈ rs, N.Serves e r.observer x

/-- No errand is lost: it has been run, or it is on its way, or the observer is that follows what a
function led to. -/
def Live (N : Plan P) (w : World P) (x : Option P.Value) (rs : List (Registration P)) : Prop :=
  ∀ e, N.Made e → N.Reached w e ∨ N.Out w x rs e ∨ ∃ q, e = .next q ∧ N.Out w x rs (.pass q)

variable {N : Plan P} {w w' w₁ : World P} {e : Errand} {x : Option P.Value}
  {o : Outcome P.Value P.Error} {p q : PromiseId} {r : Registration P}
  {rs : List (Registration P)}

lemma Out.mono (h : N.Advances w w') (he : N.Out w x rs e) : N.Out w' x rs e :=
  he.imp_left (h.opened e)

lemma Live.mono (h : N.Advances w w') (hl : N.Live w x rs) : N.Live w' x rs := by
  intro e hm
  rcases hl e hm with hr | ho | ⟨q, rfl, ho⟩
  · exact .inl (h.reached e hm hr)
  · exact .inr (.inl (ho.mono h))
  · exact .inr (.inr ⟨q, rfl, ho.mono h⟩)

/-- An observer has been told: whatever errand it had is run. -/
lemma Out.told (hN : N.Sound) (hw : N.Safe w) (h : N.Advances w w')
    (hanswers : w.Answers r.observer o w') (he : N.Out w o.value? (r :: rs) e) :
    N.Out w' o.value? rs e ∨ N.Reached w' e ∨ ∃ q, e = .next q ∧ N.Open w' (.pass q) := by
  rcases he with he | ⟨r', hr', hserves⟩
  · exact .inl (.inl (h.opened e he))
  · rcases List.mem_cons.mp hr' with rfl | hr'
    · -- the callback runs this errand, so the world it comes to is the one in which it is run
      obtain ⟨w'', hanswers', -, hrun⟩ := hw.answers hN hserves
      cases hanswers.unique hanswers'
      exact .inr hrun
    · exact .inl (.inr ⟨r', hr', hserves⟩)

lemma Live.told (hN : N.Sound) (hw : N.Safe w) (h : N.Advances w w')
    (hanswers : w.Answers r.observer o w') (hl : N.Live w o.value? (r :: rs)) :
    N.Live w' o.value? rs := by
  intro e hm
  rcases hl e hm with hr | ho | ⟨q, rfl, ho⟩
  · exact .inl (h.reached e hm hr)
  · rcases ho.told hN hw h hanswers with ho' | hr | ⟨q, rfl, hopen⟩
    · exact .inr (.inl ho')
    · exact .inl hr
    · exact .inr (.inr ⟨q, rfl, .inl hopen⟩)
  · rcases ho.told hN hw h hanswers with ho | hr | ⟨q', heq, -⟩
    · exact .inr (.inr ⟨q, rfl, ho⟩)
    · exact .inl hr
    · cases heq

/-- A delivery comes to its end. -/
theorem Safe.delivery (hN : N.Sound) (hw : N.Safe w) (hl : N.Live w o.value? rs)
    (hrs : ∀ r ∈ rs, N.Right r.observer o.value?) (p : PromiseId) :
    ∃ w', Machine.Reaches ⟨w, [.delivery p o rs]⟩ ⟨w', []⟩ ∧ N.Safe w' ∧
      N.Live w' o.value? [] := by
  induction rs generalizing w with
  | nil => exact ⟨w, Machine.Step.delivered.reaches, hw, hl⟩
  | cons r rs ih =>
    obtain ⟨e, hserves⟩ := hrs r (.head rs)
    obtain ⟨w₁, hanswers, hadvances, -⟩ := hw.answers hN hserves
    obtain ⟨w', hreach, hw', hl'⟩ := ih hadvances.safe (hl.told hN hw hadvances hanswers)
      fun r' hr' => hrs r' (.tail r hr')
    obtain ⟨body, hbody, hrun⟩ := hanswers
    exact ⟨w', ((Machine.Step.call hbody).reaches.trans (hrun _)).trans hreach, hw', hl'⟩

end Plan

/-! ## Any order -/

namespace World

/-- A world without one of the tasks that wait, at some instant. -/
def withTasks (w : World P) (tasks : List (Task (Work P))) (clock : Duration) : World P :=
  { w with queue := { w.queue with waiting := tasks }, clock }

/-- What happens next if tasks are run in any order: a source is settled, or one of the tasks that
wait is run to its end, whichever, and at whatever instant. -/
inductive Happens (sources : List PromiseId) (σ : PromiseId → Settlement P.Value P.Error)
    (w : World P) : World P → Prop
  /-- A source is settled. -/
  | settle {p : PromiseId} (hp : p ∈ sources) : Happens sources σ w (w.settle p (σ p)).2
  /-- A task is run. -/
  | run {before after : List (Task (Work P))} {t : Task (Work P)} {w' : World P}
      (waiting : w.queue.waiting = before ++ t :: after) (clock : Duration)
      (run : Machine.Reaches ⟨w.withTasks (before ++ after) clock, [.ofWork t.body]⟩ ⟨w', []⟩) :
      Happens sources σ w w'

/-- A world comes to another one if tasks are run in any order, and sources are settled in
between. -/
def AnyOrder (sources : List PromiseId) (σ : PromiseId → Settlement P.Value P.Error) :
    World P → World P → Prop :=
  Relation.ReflTransGen (Happens sources σ)

end World

namespace Plan

variable {N : Plan P} {w w' : World P} {x : Option P.Value} {t : Task (Work P)}
  {before after : List (Task (Work P))}

lemma Live.of_nil (y : Option P.Value) (h : N.Live w x []) : N.Live w y [] := by
  have hout : ∀ {e}, N.Out w x [] e → N.Out w y [] e := fun he =>
    he.imp_right fun ⟨r, hr, _⟩ => nomatch hr
  intro e hm
  rcases h e hm with hr | ho | ⟨q, rfl, ho⟩
  · exact .inl hr
  · exact .inr (.inl (hout ho))
  · exact .inr (.inr ⟨q, rfl, hout ho⟩)

/-- **Any task can be run to its end**, and nothing is disturbed or lost. -/
theorem Safe.run (hN : N.Sound) (hw : N.Safe w) (hl : N.Live w x [])
    (waiting : w.queue.waiting = before ++ t :: after) (clock : Duration) :
    ∃ w', Machine.Reaches ⟨w.withTasks (before ++ after) clock, [.ofWork t.body]⟩ ⟨w', []⟩ ∧
      N.Safe w' ∧ N.Live w' x [] := by
  have hmem : ∀ u, u ∈ w.queue.waiting ↔ u = t ∨ u ∈ before ++ after := by
    intro u
    rw [waiting]
    simp only [List.mem_append, List.mem_cons]
    tauto
  obtain ⟨p, o, rs, hbody, hrs⟩ := hw.tasks t ((hmem t).mpr (.inl rfl))
  have hsafe : N.Safe (w.withTasks (before ++ after) clock) :=
    ⟨hw.promise, fun u hu => hw.tasks u ((hmem u).mpr (.inr hu)), hw.gathers, hw.couples⟩
  -- whoever is told by this task is out with the delivery from now on
  have hout : ∀ {e}, N.Out w x [] e →
      N.Out (w.withTasks (before ++ after) clock) o.value? rs e := by
    rintro e ((hwaits | ⟨u, hu, p', o', rs', hbody', r, hr, hserves⟩) | ⟨r, hr, -⟩)
    · exact .inl (.inl hwaits)
    · rcases (hmem u).mp hu with rfl | hu
      · cases hbody.symm.trans hbody'
        exact .inr ⟨r, hr, hserves⟩
      · exact .inl (.inr ⟨u, hu, p', o', rs', hbody', r, hr, hserves⟩)
    · cases hr
  have hlive : N.Live (w.withTasks (before ++ after) clock) o.value? rs := by
    intro e hm
    rcases hl e hm with hr | ho | ⟨q, rfl, ho⟩
    · exact .inl (by cases hm <;> exact hr)
    · exact .inr (.inl (hout ho))
    · exact .inr (.inr ⟨q, rfl, hout ho⟩)
  obtain ⟨w', hreach, hw', hl'⟩ := hsafe.delivery hN hlive hrs p
  rw [hbody]
  exact ⟨w', hreach, hw', hl'.of_nil x⟩

/-- Nothing is disturbed or lost, whatever happens. -/
lemma Safe.happens {sources : List PromiseId} {σ : PromiseId → Settlement P.Value P.Error}
    (hN : N.Sound) (hσ : ∀ p ∈ sources, N.Known p ∧ (σ p).value? = N.verdict p)
    (hw : N.Safe w) (hl : N.Live w x []) (h : World.Happens sources σ w w') :
    N.Safe w' ∧ N.Live w' x [] := by
  cases h with
  | settle hp =>
    obtain ⟨hadvances, -⟩ := hw.settle (hσ _ hp).1 (hσ _ hp).2
    exact ⟨hadvances.safe, hl.mono hadvances⟩
  | run waiting clock run =>
    obtain ⟨w₁, hreach, hw₁, hl₁⟩ := hw.run hN hl waiting clock
    cases hreach.unique_of_nil run
    exact ⟨hw₁, hl₁⟩

lemma Safe.anyOrder {sources : List PromiseId} {σ : PromiseId → Settlement P.Value P.Error}
    (hN : N.Sound) (hσ : ∀ p ∈ sources, N.Known p ∧ (σ p).value? = N.verdict p)
    (hw : N.Safe w) (hl : N.Live w x []) (h : World.AnyOrder sources σ w w') :
    N.Safe w' ∧ N.Live w' x [] := by
  induction h with
  | refl => exact ⟨hw, hl⟩
  | tail _ hnext ih => exact ih.1.happens hN hσ ih.2 hnext

/-! ## When nothing is left to do -/

/-- No errand is on its way if no task waits and all older promises are settled. -/
lemma not_open (idle : w.queue.waiting = []) {e : Errand}
    (hs : ∀ p, N.Known p → p.index < e.target.index → w.IsSettled p) : ¬ N.Open w e := by
  rintro (⟨p, hp, hlt, r, hr, -⟩ | ⟨t, ht, -⟩)
  · obtain ⟨s, hs⟩ := hs p hp hlt
    obtain ⟨⟨segment?, observed, slot⟩, ha, rfl⟩ := World.settlement?_view_eq_some_iff.mp hs
    rw [World.waitingFor_of_eq_some ha] at hr
    cases hr
  · rw [idle] at ht
    cases ht

lemma Live.reached (hl : N.Live w x []) {e : Errand} (hm : N.Made e)
    (hopen : ∀ e', e'.target = e.target → ¬ N.Open w e') : N.Reached w e := by
  have hout : ∀ e', e'.target = e.target → ¬ N.Out w x [] e' := by
    rintro e' heq (ho | ⟨r, hr, -⟩)
    · exact hopen e' heq ho
    · cases hr
  rcases hl e hm with hr | ho | ⟨q, rfl, ho⟩
  · exact hr
  · exact absurd ho (hout e rfl)
  · exact absurd ho (hout _ rfl)

/-- **If no task waits and all that is given is settled, everything is settled.** -/
theorem Safe.isSettled (hw : N.Safe w) (hl : N.Live w x []) (idle : w.queue.waiting = [])
    (given : ∀ p, N.given p → w.IsSettled p) {p : PromiseId} (hp : N.Known p) :
    w.IsSettled p := by
  obtain ⟨i⟩ := p
  induction i using Nat.strongRecOn with
  | ind i ih =>
    rcases hp with hp | ⟨d, derived⟩
    · exact given _ hp
    by_contra hs
    -- all older promises are settled, so the errands for this one have been run; but then it is
    -- settled, or its buffer would be full
    have hopen : ∀ e : Errand, e.target = ⟨i⟩ → ¬ N.Open w e := by
      intro e he
      exact not_open idle fun p hp hlt => ih p.index (by rw [he] at hlt; exact hlt) hp
    have hreached : ∀ {e : Errand}, N.Made e → e.target = ⟨i⟩ → N.Reached w e :=
      fun hm he => hl.reached hm fun e' he' => hopen e' (he'.trans he)
    cases d with
    | andThen p f => exact hs (hreached (.andThen derived) rfl)
    | andThenLazily p f => exact hs (hreached (.andThenLazily derived) rfl)
    | join ps =>
      obtain ⟨γ, hγ, hgathers⟩ := hw.gathers _ ps derived hs
      obtain ⟨j, hj, hnone⟩ := List.mem_iff_getElem.mp hgathers.missing
      obtain ⟨γ', v, hγ', hv⟩ := (hreached (e := .place ⟨i⟩ j)
        (.place derived (hgathers.length_eq ▸ hj)) rfl).resolve_left hs
      cases hγ.symm.trans hγ'
      rw [List.getElem?_eq_getElem hj, hnone] at hv
      cases hv
    | joinPair a b =>
      obtain ⟨π, hπ, hcouples⟩ := hw.couples _ a b derived hs
      have htaken : ∀ s, ∃ v, π.at s = some v := by
        intro s
        obtain ⟨π', v, hπ', hv⟩ :=
          (hreached (e := .side ⟨i⟩ s) (.side derived) rfl).resolve_left hs
        cases hπ.symm.trans hπ'
        exact ⟨v, hv⟩
      obtain ⟨v, hv⟩ := htaken .first
      obtain ⟨v', hv'⟩ := htaken .second
      rcases hcouples.missing with hnone | hnone
      · cases hnone.symm.trans hv
      · cases hnone.symm.trans hv'

end Plan

end Eventual
