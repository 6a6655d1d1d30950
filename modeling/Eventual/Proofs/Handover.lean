import Eventual.Proofs.Delivery

/-!
# When callbacks run

The delivery that tells an observer is handed over at one moment (`Machine.Sends`): when the promise
is settled, or when the observer is registered if the promise was settled before.  As long as no
callback drives the clock itself (`Program.Passive`), nothing else is started while a delivery is
under way.  Then a callback runs at the instant at which it was sent, callbacks run in the order in
which they were sent, and at a quiet moment, when no task is due and no delivery is under way, all
have run.
-/

namespace Eventual

variable {P : Payload}

namespace Machine

/-- The delivery that tells the `n`-th observer of a promise is about to be handed over. -/
def Sends (m : Machine P) (p : PromiseId) (n : Nat) : Prop :=
  ∃ t, m.HandsOver .zero t ∧ ∃ r ∈ t.body.toTell p, r.number = n

/-- Whether a drive call is about to be made while another one is in progress. -/
def nests (m : Machine P) : Bool :=
  match m.stack with
  | .script (.drive _ _) :: rest => rest.any Activity.isDrive
  | _ => false

/-- The promise that is about to be settled, if one is. -/
def attempted? (m : Machine P) : Option PromiseId :=
  match m.stack with
  | .script (.op (.settle p _) _) :: _ => some p
  | _ => none

/-- No task is due, and no task is under way. -/
structure Calm (m : Machine P) : Prop where
  nothingDue : ∀ t ∈ m.world.queue.waiting, m.world.clock < t.due
  nothingUnderWay : ∀ above h ran k below,
    m.stack = above ++ .drive h ran k :: below → above = []

/-- If no task waits and one thing is under way, this is all that is left to do. -/
lemma calm_of_idle {m : Machine P} {x : Activity P} (hwaiting : m.world.queue.waiting = [])
    (hstack : m.stack = [x]) : m.Calm := by
  refine ⟨by simp [hwaiting], fun above h ran k below heq => ?_⟩
  cases above with
  | nil => rfl
  | cons y above => simp [hstack] at heq

/-- No task is due, and no delivery is under way. -/
structure Quiet (m : Machine P) : Prop where
  nothingDue : ∀ t ∈ m.world.queue.waiting, m.world.clock < t.due
  noDelivery : ∀ p o rs, .delivery p o rs ∉ m.stack

end Machine

namespace Program

/-- No drive call is made while another one is in progress. -/
def Flat (prog : Program P) : Prop :=
  ∀ n m, prog.moment n = some m → m.Driving → ¬ m.Drives

/-- No drive call is made by a callback. -/
def Passive (prog : Program P) : Prop :=
  ∀ n m p o rs, prog.moment n = some m → .delivery p o rs ∈ m.stack → ¬ m.Drives

/-- The callback of the `n`-th observer of a promise is under way at a moment. -/
def Within (prog : Program P) (j : Nat) (p : PromiseId) (n : Nat) : Prop :=
  ∃ l o r rs below, l < j ∧ prog.At l (fun m => m.stack = .delivery p o (r :: rs) :: below) ∧
    r.number = n ∧ ∀ i, l < i → i ≤ j → prog.At i fun m => m.Above (.delivery p o rs :: below)

/-- What happens at moment `j` is done by the call between the moments `a` and `b`, or by a callback
of an observer that was registered by it. -/
def DoneBy (prog : Program P) (a b j : Nat) : Prop :=
  (a ≤ j ∧ j < b) ∨ ∃ c p n, a ≤ c ∧ c < b ∧
    prog.At c (fun m => (∃ ob, m.Observes p ob) ∧ m.world.observed p = n) ∧ prog.Within j p n

end Program

/-! ## Sending -/

lemma Work.mem_toTell {work : Work P} {p : PromiseId} {r : Registration P} :
    r ∈ work.toTell p ↔ ∃ o rs, work = .delivery p o rs ∧ r ∈ rs := by
  rcases work with body | ⟨q, o, rs⟩
  · simp [toTell]
  · by_cases hq : q = p
    · subst hq
      simp [toTell]
    · simp [toTell, hq]

namespace World

variable {w w' : World P}

/-- An observer in a task that waits was there before, or waited on the list of the promise, or has
just been registered. -/
lemma Effect.mem_toTell {ρ : Type} {op : Op P ρ} (h : Effect w w' op) {t : Task (Work P)}
    {p : PromiseId} {r : Registration P} (ht : t ∈ w'.queue.waiting) (hr : r ∈ t.body.toTell p) :
    t ∈ w.queue.waiting ∨ ((w.view p).settlement? = none ∧ r ∈ w.waitingFor p) ∨
      r.number = w.observed p := by
  obtain ⟨o, rs, hbody, hmem⟩ := Work.mem_toTell.mp hr
  cases h with
  | still _ queue | make _ _ queue | enlist _ _ queue => exact Or.inl (queue ▸ ht)
  | schedule _ _ queue =>
    rw [queue] at ht
    rcases Queue.mem_insertTask.mp ht with rfl | ht
    · cases hbody
    · exact Or.inl ht
  | settle before _ queue =>
    rw [queue] at ht
    rcases Queue.mem_deliver ht with ht | heq
    · exact Or.inl ht
    · cases heq.symm.trans hbody
      refine Or.inr (Or.inl ⟨?_, ?_⟩)
      · rw [view_of_eq_some before]
        rfl
      · rw [waitingFor_of_eq_some before]
        exact (List.mem_filter.mp hmem).1
  | inform before _ queue =>
    rw [queue] at ht
    rcases Queue.mem_deliver ht with ht | heq
    · exact Or.inl ht
    · cases heq.symm.trans hbody
      refine Or.inr (Or.inr ?_)
      rw [List.mem_singleton.mp (List.mem_filter.mp hmem).1, observed_of_eq_some before]

/-- What a delivery is handed over for is due at once. -/
lemma Effect.due_of_delivery {ρ : Type} {op : Op P ρ} (h : Effect w w' op) {t : Task (Work P)}
    {p : PromiseId} {o : Outcome P.Value P.Error} {rs : List (Registration P)}
    (ht : t ∈ w'.queue.waiting) (hbody : t.body = .delivery p o rs) :
    t ∈ w.queue.waiting ∨ t.due = w.clock := by
  have sent : ∀ {q : PromiseId} {o' : Outcome P.Value P.Error} {all : List (Registration P)},
      w'.queue = w.queue.deliver w.clock q o' all →
      t ∈ w.queue.waiting ∨ t.due = w.clock := by
    intro q o' all queue
    by_cases hex : ∃ r ∈ all, r.observer.awaits o' = true
    · rw [queue, Queue.deliver_of_exists hex] at ht
      rcases Queue.mem_insertTask.mp ht with rfl | ht
      · exact Or.inr rfl
      · exact Or.inl ht
    · rw [queue, Queue.deliver_of_forall_not fun r hr ho => hex ⟨r, hr, ho⟩] at ht
      exact Or.inl ht
  cases h with
  | still _ queue | make _ _ queue | enlist _ _ queue => exact Or.inl (queue ▸ ht)
  | schedule _ _ queue =>
    rw [queue] at ht
    rcases Queue.mem_insertTask.mp ht with rfl | ht
    · cases hbody
    · exact Or.inl ht
  | settle _ _ queue => exact sent queue
  | inform _ _ queue => exact sent queue

end World

namespace Machine

variable {m m' : Machine P} {p : PromiseId} {n : Nat} {t : Task (Work P)} {r : Registration P}

lemma nests_of_drives (hdriving : m.Driving) (hdrives : m.Drives) : m.nests = true := by
  obtain ⟨w, stack⟩ := m
  obtain ⟨d, k, rest, rfl⟩ := hdrives
  obtain ⟨x, hx, hdrive⟩ := hdriving
  refine List.any_eq_true.mpr ⟨x, ?_, hdrive⟩
  rcases List.mem_cons.mp hx with rfl | hx
  · cases hdrive
  · exact hx

lemma Attempts.attempted?_eq (h : m.Attempts p) : m.attempted? = some p := by
  obtain ⟨w, stack⟩ := m
  obtain ⟨-, s, k, rest, rfl⟩ := h
  rfl

lemma Settles.not_observes {q : PromiseId} {s : Settlement P.Value P.Error} {ob : Observer P}
    (hs : m.Settles q s) : ¬ m.Observes p ob := by
  obtain ⟨w, stack⟩ := m
  rintro ⟨-, k', rest', rfl⟩
  cases hs.attempts.isSettle

lemma Step.mem_toTell (h : m.Step m') (ht : t ∈ m'.world.queue.waiting)
    (hr : r ∈ t.body.toTell p) :
    t ∈ m.world.queue.waiting ∨
      ((m.world.view p).settlement? = none ∧ r ∈ m.world.waitingFor p) ∨
        r.number = m.world.observed p := by
  cases h with
  | operate performed => exact (World.effect_of_perform performed).2.mem_toTell ht hr
  | start taken =>
    left
    rw [(Queue.next?_eq_some_iff.mp taken).1]
    exact .tail _ ht
  | finish | drive | attempt | delivered | call | leaveOut | driven => exact Or.inl ht

lemma mem_outstanding_of_waiting (ht : t ∈ m.world.queue.waiting) (hr : r ∈ t.body.toTell p) :
    r ∈ m.outstanding p := by
  refine Multiset.mem_add.mpr (Or.inl (Multiset.mem_add.mpr (Or.inr ?_)))
  exact Multiset.mem_coe.mpr (List.mem_flatMap.mpr ⟨t, ht, hr⟩)

/-- A waiting delivery is for a settled promise. -/
lemma Truthful.outcome?_of_waiting (hm : m.Truthful) (ht : t ∈ m.world.queue.waiting)
    (hr : r ∈ t.body.toTell p) : ∃ o, (m.world.view p).outcome? = some o := by
  obtain ⟨o, rs, hbody, -⟩ := Work.mem_toTell.mp hr
  exact ⟨o, (hm p o rs (Or.inl ⟨t, ht, hbody⟩)).1⟩

lemma HandsOver.mem_waiting {delay : Duration} (h : m.HandsOver delay t) (hstep : m.Step m') :
    m'.world.queue.waiting = Queue.insertTask t m.world.queue.waiting := by
  obtain ⟨-, hturn, m₁, hstep₁, hqueue⟩ := h
  cases hstep.unique hstep₁
  obtain ⟨due, turn, body⟩ := t
  cases hturn
  rw [hqueue]
  rfl

/-- An observer is sent what happened when the promise is settled, or when it is registered. -/
lemma HandsOver.sent {delay : Duration} (h : m.HandsOver delay t) (hm : m.world.Timely)
    (hr : r ∈ t.body.toTell p) :
    ((m.world.view p).settlement? = none ∧ r ∈ m.world.waitingFor p) ∨
      r.number = m.world.observed p := by
  obtain ⟨-, hturn, m', hstep, -⟩ := id h
  have ht : t ∈ m'.world.queue.waiting := by
    rw [h.mem_waiting hstep]
    exact Queue.mem_insertTask.mpr (Or.inl rfl)
  rcases hstep.mem_toTell ht hr with hbefore | hsent
  · exact absurd (hm.ordered.turn_lt t hbefore) (hturn ▸ Nat.lt_irrefl _)
  · exact hsent

/-- Before an observer is sent what happened, it is in no task. -/
lemma HandsOver.not_waiting {delay : Duration} (h : m.HandsOver delay t) (htimely : m.world.Timely)
    (htruthful : m.Truthful) (hnumbered : m.Numbered p) (hr : r ∈ t.body.toTell p)
    {u : Task (Work P)} {r' : Registration P} (hu : u ∈ m.world.queue.waiting)
    (hr' : r' ∈ u.body.toTell p) : r'.number ≠ r.number := by
  rcases h.sent htimely hr with ⟨hnone, -⟩ | hnumber
  · obtain ⟨o, ho⟩ := htruthful.outcome?_of_waiting hu hr'
    rw [View.outcome?, hnone] at ho
    cases ho
  · have hlt := hnumbered.lt_observed r' (mem_outstanding_of_waiting hu hr')
    omega

end Machine

/-! ## One delivery after the other -/

namespace Program

variable {prog : Program P} {i j l n h : Nat} {m m' : Machine P} {p : PromiseId}
  {t u : Task (Work P)} {o : Outcome P.Value P.Error} {rs : List (Registration P)}
  {above below : List (Activity P)}

/-- Callbacks are driven, so they make no drive calls if none is made while another one is in
progress. -/
lemma Flat.passive (flat : prog.Flat) : prog.Passive := by
  intro n m p o rs hn hmem
  obtain ⟨above, below, hstack⟩ := List.append_of_mem hmem
  obtain ⟨t, rs₀, -, -, hor, ran, k, rest, i, rfl, -⟩ := runs_of_delivery hn hstack
  exact flat n m hn ⟨.drive hor (ran + 1) k, by simp [hstack], rfl⟩

/-- A task that is under way has been started, and was under way ever since. -/
lemma Runs.exists_starts (hruns : prog.Runs n t below) :
    ∃ s < n, prog.At s (fun m => m.Starts t) ∧ ∀ j, s < j → j ≤ n → prog.Runs j t below := by
  obtain ⟨hor, ran, k, rest, s, rfl, hsn, ⟨m, hm, hstack, hstarts⟩, habove⟩ := hruns
  refine ⟨s, hsn, ⟨m, hm, hstarts⟩, fun j hsj hjn => ?_⟩
  exact ⟨hor, ran, k, rest, s, rfl, hsj, ⟨m, hm, hstack, hstarts⟩,
    fun i hsi hij => habove i hsi (Nat.le_trans hij hjn)⟩

/-- There is no drive above a delivery. -/
lemma Passive.not_isDrive_above (passive : prog.Passive) (hn : prog.moment n = some m)
    (hstack : m.stack = above ++ .delivery p o rs :: below) : ∀ x ∈ above, x.isDrive = false := by
  induction n generalizing m above rs with
  | zero =>
    cases hn
    have hmem : Activity.delivery p o rs ∈ prog.start.stack := by
      rw [hstack]
      exact List.mem_append_right _ (.head below)
    cases List.mem_singleton.mp hmem
  | succ n ih =>
    obtain ⟨⟨w, stack⟩, h₁, hstep⟩ := moment_succ_eq_some_iff.mp hn
    rcases hstep.delivery hstack with ⟨above₀, rs₀, rfl, -⟩ | ⟨hor, ran, k, rest, t, rfl, -, -, rfl⟩
    · have hno := passive n _ p o rs₀ h₁ (List.mem_append_right _ (.head below))
      cases above₀ with
      | nil =>
        obtain ⟨new, hnew, hframe⟩ := hstep.frame
        have happend : new ++ below = (above ++ [.delivery p o rs]) ++ below := by
          rw [← hnew, hstack, List.append_assoc]
          rfl
        have heq := List.append_cancel_right happend
        intro x hx
        exact (hframe rfl hno).2 x (heq ▸ List.mem_append_left _ hx)
      | cons y above₁ =>
        obtain ⟨new, hnew, hframe⟩ := hstep.frame
        have hplain := ih h₁ rfl
        have happend : above ++ .delivery p o rs :: below =
            (new ++ above₁) ++ .delivery p o rs₀ :: below := by
          rw [← hstack, hnew, List.append_assoc]
          rfl
        have heq : above = new ++ above₁ := (List.append_inj' happend (by simp)).1
        intro x hx
        rw [heq] at hx
        rcases List.mem_append.mp hx with hx | hx
        · exact (hframe (hplain y (.head above₁)) hno).2 x hx
        · exact hplain x (.tail y hx)
    · -- the delivery has just been started
      rcases hstep.of_drive with ⟨work, hwork, -⟩ | ⟨-, rfl⟩
      · have happend : above ++ .delivery p o rs :: .drive hor (ran + 1) k :: rest =
            [] ++ .ofWork work :: .drive hor (ran + 1) k :: rest := hstack.symm.trans hwork
        obtain ⟨rfl, -⟩ := List.append_inj' happend (by simp)
        simp
      · have hlength := congrArg List.length hstack
        simp at hlength
        omega

/-- While a delivery is under way the clock stands at its instant. -/
lemma Passive.of_runs (passive : prog.Passive) (hbody : t.body = .delivery p o rs)
    (hruns : prog.Runs n t below) :
    prog.At n fun m => m.world.clock = t.due ∧
      ∃ above rs', m.stack = above ++ .delivery p o rs' :: below := by
  obtain ⟨hor, ran, k, rest, i, rfl, hin, ⟨m₀, h₀, hdrive, hstarts⟩, habove⟩ := hruns
  have hduring : ∀ l, i < l → l ≤ n → prog.At l fun m => m.world.clock = t.due ∧
      ∃ above rs', m.stack = above ++ .delivery p o rs' :: .drive hor (ran + 1) k :: rest := by
    intro l hil
    induction l, hil using Nat.le_induction with
    | base =>
      intro hle
      obtain ⟨m, hm, -⟩ := habove (i + 1) (Nat.lt_succ_self i) hle
      have hstep := step_of_moment h₀ hm
      refine ⟨m, hm, hstarts.clock_eq (timely h₀) hstep, [], rs, ?_⟩
      obtain ⟨w, stack⟩ := m₀
      obtain ⟨hor', ran', k', rest', q, rfl, taken⟩ := hstarts
      cases hdrive
      cases hstep.unique (.start taken)
      rw [hbody]
      rfl
    | succ l hil ih =>
      intro hle
      obtain ⟨⟨w, stack⟩, h₁, hclock, above, rs', rfl⟩ := ih (Nat.le_of_succ_le hle)
      obtain ⟨m, hm, hafter⟩ := habove (l + 1) (Nat.lt_succ_of_lt hil) hle
      have hno := passive l _ p o rs' h₁ (List.mem_append_right _ (.head _))
      have hplain := passive.not_isDrive_above h₁ rfl
      have hstep := step_of_moment h₁ hm
      cases above with
      | nil =>
        obtain ⟨new, -, hframe⟩ := hstep.frame
        refine ⟨m, hm, (hframe rfl hno).1.trans hclock, ?_⟩
        cases hstep with
        | @call _ _ _ _ _ body => exact ⟨[.script body], _, rfl⟩
        | leaveOut => exact ⟨[], _, rfl⟩
        | delivered => exact absurd ⟨_, hm, hafter⟩ (not_above hm rfl)
      | cons x above =>
        obtain ⟨new, hnew, hframe⟩ := hstep.frame
        refine ⟨m, hm, (hframe (hplain x (.head above)) hno).1.trans hclock, new ++ above, rs', ?_⟩
        rw [hnew, List.append_assoc]
        rfl
  exact hduring n hin (Nat.le_refl n)

lemma clock_of_calls {body : Script P Unit} (hl : prog.moment l = some m)
    (hcalls : m.Calls p n body) (hl' : prog.moment (l + 1) = some m') :
    m'.world.clock = m.world.clock := by
  obtain ⟨w, stack⟩ := m
  obtain ⟨o, r', rs, below, rfl, -, handler⟩ := hcalls
  cases (step_of_moment hl hl').unique (.call handler)
  rfl

/-- While something is under way above a delivery the clock stands still. -/
lemma Passive.clock_eq_of_above (passive : prog.Passive) (hij : i ≤ j)
    (hi : prog.moment i = some m) (hj : prog.moment j = some m')
    (during : ∀ l, i ≤ l → l < j → prog.At l fun m => m.Above (.delivery p o rs :: below)) :
    m'.world.clock = m.world.clock := by
  induction j, hij using Nat.le_induction generalizing m' with
  | base =>
    cases hi.symm.trans hj
    rfl
  | succ j hij ih =>
    obtain ⟨⟨w, stack⟩, h₁, above, hne, rfl⟩ := during j hij (Nat.lt_succ_self j)
    have hplain := passive.not_isDrive_above h₁ rfl
    have hno := passive j _ p o rs h₁ (List.mem_append_right _ (.head below))
    obtain ⟨x, above, rfl⟩ := List.exists_cons_of_ne_nil hne
    obtain ⟨new, -, hframe⟩ := (step_of_moment h₁ hj).frame
    exact (hframe (hplain x (.head above)) hno).1.trans
      (ih h₁ fun l hil hlj => during l hil (Nat.lt_succ_of_lt hlj))

/-- A run that ends is flat if no drive call is found in it that is made while another one is in
progress. -/
lemma flat_of_ends (hend : prog.moment n = none)
    (h : ∀ i < n, (prog.moment i).all (fun m => !m.nests) = true) : prog.Flat := by
  intro i m hm hdriving hdrives
  have hi : i < n := by
    by_contra hle
    obtain ⟨m', hm'⟩ := exists_moment_of_le (Nat.not_lt.mp hle) hm
    cases hend.symm.trans hm'
  have hall := h i hi
  rw [hm, Option.all_some, Machine.nests_of_drives hdriving hdrives] at hall
  cases hall

/-- The first thing that a callback does is done by the call that registered its observer. -/
lemma doneBy_of_called {a b c l : Nat} {o : Outcome P.Value P.Error} {r : Registration P}
    {rs : List (Registration P)} {below : List (Activity P)} (hac : a ≤ c) (hcb : c < b)
    (registered : prog.At c fun m => (∃ ob, m.Observes p ob) ∧ m.world.observed p = r.number)
    (called : prog.At l fun m => m.stack = .delivery p o (r :: rs) :: below)
    (begun : prog.At (l + 1) fun m => m.Above (.delivery p o rs :: below)) :
    prog.DoneBy a b (l + 1) := by
  refine Or.inr ⟨c, p, r.number, hac, hcb, registered, l, o, r, rs, below, Nat.lt_succ_self l,
    called, rfl, fun i hi hle => ?_⟩
  obtain rfl : i = l + 1 := by omega
  exact begun

/-- A run attempts to settle a promise only where it is found to. -/
lemma of_attempted {Q : Nat → Prop}
    (h : ∀ i < n, (prog.moment i).bind Machine.attempted? = some p → Q i) (hi : i < n)
    (hattempts : prog.At i fun m => m.Attempts p) : Q i := by
  obtain ⟨m, hm, hat⟩ := hattempts
  refine h i hi ?_
  rw [hm]
  exact hat.attempted?_eq

/-- A run makes only the attempts that are found in it. -/
lemma of_attempts_found {Q : Nat → PromiseId → Prop}
    (h : ∀ i < n, ∀ p ∈ (prog.moment i).bind Machine.attempted?, Q i p) (hi : i < n)
    (hattempts : prog.At i fun m => m.Attempts p) : Q i p := by
  obtain ⟨m, hm, hat⟩ := hattempts
  refine h i hi p ?_
  rw [hm]
  exact hat.attempted?_eq

/-! ## Sent and told -/

/-- The task that is to tell an observer is the only one that does. -/
lemma eq_of_handsOver {delay : Duration} {r r' : Registration P} (hh : prog.moment h = some m)
    (ht : m.HandsOver delay t) (hr : r ∈ t.body.toTell p) (hhj : h < j)
    (hj : prog.moment j = some m') (hu : u ∈ m'.world.queue.waiting)
    (hr' : r' ∈ u.body.toTell p) (hnumber : r'.number = r.number) : u = t := by
  obtain ⟨m₁, h₁⟩ := exists_moment_of_le hhj hj
  have hwaiting := ht.mem_waiting (step_of_moment hh h₁)
  have hmem : t ∈ m₁.world.queue.waiting := by
    rw [hwaiting]
    exact Queue.mem_insertTask.mpr (Or.inl rfl)
  obtain ⟨o, ho⟩ := (truthful h₁).outcome?_of_waiting hmem hr
  have hlt := (numbered h₁ p).lt_observed r (Machine.mem_outstanding_of_waiting hmem hr)
  induction j, hhj using Nat.le_induction generalizing m' with
  | base =>
    cases h₁.symm.trans hj
    rw [hwaiting] at hu
    rcases Queue.mem_insertTask.mp hu with rfl | hu
    · rfl
    · exact absurd hnumber
        (ht.not_waiting (timely hh) (truthful hh) (numbered hh p) hr hu hr')
  | succ j hhj ih =>
    obtain ⟨m₂, h₂, hstep⟩ := moment_succ_eq_some_iff.mp hj
    rcases hstep.mem_toTell hu hr' with hu | ⟨hnone, -⟩ | hnew
    · exact ih h₂ hu
    · -- the promise has been settled already
      have ho₂ := outcome?_of_le hhj h₁ h₂ ho
      rw [View.outcome?, hnone] at ho₂
      cases ho₂
    · have hle := observed_le (p := p) hhj h₁ h₂
      omega

/-- The task that is to tell an observer is the only one that is ever under way for it. -/
lemma eq_of_runs {delay : Duration} {r r' : Registration P} (hh : prog.moment h = some m)
    (ht : m.HandsOver delay t) (hr : r ∈ t.body.toTell p) (hruns : prog.Runs l u below)
    (hr' : r' ∈ u.body.toTell p) (hnumber : r'.number = r.number) : u = t ∧ h < l := by
  obtain ⟨s, hsl, ⟨m₁, h₁, hstarts⟩, -⟩ := hruns.exists_starts
  have hu := hstarts.mem_waiting
  -- the task is started after it was handed over
  have hhs : h < s := by
    by_contra hle
    have hsh := Nat.not_lt.mp hle
    rcases ht.sent (timely hh) hr with ⟨hnone, -⟩ | hnew
    · obtain ⟨o, ho⟩ := (truthful h₁).outcome?_of_waiting hu hr'
      have ho' := outcome?_of_le hsh h₁ hh ho
      rw [View.outcome?, hnone] at ho'
      cases ho'
    · have hlt := (numbered h₁ p).lt_observed r' (Machine.mem_outstanding_of_waiting hu hr')
      have hobserved := observed_le (p := p) hsh h₁ hh
      omega
  exact ⟨eq_of_handsOver hh ht hr hhs h₁ hu hr' hnumber, Nat.lt_trans hhs hsl⟩

/-- A callback runs in the task that was handed over to tell its observer. -/
lemma runs_of_calls {delay : Duration} {r : Registration P} {body : Script P Unit}
    (hh : prog.moment h = some m) (ht : m.HandsOver delay t) (hr : r ∈ t.body.toTell p)
    (hl : prog.moment l = some m') (hcalls : m'.Calls p r.number body) :
    ∃ below, prog.Runs l t below ∧ h < l := by
  obtain ⟨o, r', rs, below, hstack, hnumber, -⟩ := hcalls
  have htop : m'.stack = [] ++ .delivery p o (r' :: rs) :: below := hstack
  obtain ⟨u, rs₀, hbody, hsub, hruns⟩ := runs_of_delivery hl htop
  have hr' : r' ∈ u.body.toTell p := Work.mem_toTell.mpr ⟨o, rs₀, hbody, hsub r' (.head rs)⟩
  obtain ⟨rfl, hhl⟩ := eq_of_runs hh ht hr hruns hr' hnumber
  exact ⟨below, hruns, hhl⟩

/-- An observer has been told when the task that is to tell it neither waits nor is under way any
more. -/
lemma called_of_gone {ob : Observer P} {r : Registration P} {delay : Duration} {mi : Machine P}
    (hi : prog.moment i = some mi) (hob : mi.Observes p ob) (hij : i < j)
    (hh : prog.moment h = some m) (ht : m.HandsOver delay t) (hr : r ∈ t.body.toTell p)
    (hnumber : r.number = mi.world.observed p) (hhj : h < j) (hj : prog.moment j = some m')
    (hwaiting : t ∉ m'.world.queue.waiting) (hruns : ∀ below, ¬ prog.Runs j t below)
    (ho : (m'.world.view p).outcome? = some o) (hawaits : ob.awaits o = true) :
    ∃ l < j, prog.At l fun m₁ => ∃ body, m₁.Calls p (mi.world.observed p) body := by
  rcases (registered hi hob hij hj).2 with hmem | ⟨l, -, hlj, hcalls⟩ | ⟨o', ho', hnot⟩
  · exfalso
    rcases Multiset.mem_add.mp hmem with hmem | hstack
    · rcases Multiset.mem_add.mp hmem with hlist | hqueue
      · -- the list of a settled promise is empty
        obtain ⟨s, hs, -⟩ := Option.map_eq_some_iff.mp ho
        obtain ⟨a, ha, hslot⟩ := World.settlement?_view_eq_some_iff.mp hs
        rw [World.waitingFor_of_eq_some ha, hslot] at hlist
        cases hlist
      · obtain ⟨u, hu, hr'⟩ := List.mem_flatMap.mp (Multiset.mem_coe.mp hqueue)
        obtain rfl := eq_of_handsOver hh ht hr hhj hj hu hr' hnumber.symm
        exact hwaiting hu
    · obtain ⟨x, hx, hr'⟩ := List.mem_flatMap.mp (Multiset.mem_coe.mp hstack)
      rcases x with s | ⟨q, o', rs⟩ | ⟨hor, ran, k⟩
      · cases hr'
      · obtain ⟨above, below, hstack⟩ := List.append_of_mem hx
        obtain ⟨u, rs₀, hbody, hsub, hruns'⟩ := runs_of_delivery hj hstack
        by_cases hqp : q = p
        · subst hqp
          rw [Activity.toTell, if_pos rfl] at hr'
          have hmem := Work.mem_toTell.mpr ⟨o', rs₀, hbody, hsub _ hr'⟩
          obtain ⟨rfl, -⟩ := eq_of_runs hh ht hr hruns' hmem hnumber.symm
          exact hruns below hruns'
        · rw [Activity.toTell, if_neg hqp] at hr'
          cases hr'
      · cases hr'
  · exact ⟨l, hlj, hcalls⟩
  · cases ho.symm.trans ho'
    exact absurd hawaits hnot

/-- An observer that waits for what a promise ended with is sent it when both have happened: the
registration and the settlement. -/
lemma sends_of_observes {c : Nat} {mc : Machine P} {ob : Observer P}
    {s : Settlement P.Value P.Error} (hi : prog.moment i = some m) (hob : m.Observes p ob)
    (hc : prog.moment c = some mc) (hs : mc.Settles p s)
    (hawaits : ob.awaits (s.outcome (mc.world.view p).segment?) = true) :
    prog.At (max i c) fun m' => m'.Sends p (m.world.observed p) := by
  obtain ⟨hlt, hnone, k, rest, hstack⟩ := id hs
  rcases Nat.lt_trichotomy i c with hic | rfl | hci
  · -- the observer is on the list of the promise when this is settled
    rw [Nat.max_eq_right (Nat.le_of_lt hic)]
    obtain ⟨w, stack⟩ := mc
    cases hstack
    have hno : ∀ o, (w.view p).outcome? ≠ some o := by
      intro o ho
      rw [View.outcome?, hnone] at ho
      cases ho
    have hmem : ⟨m.world.observed p, ob⟩ ∈ w.waitingFor p := by
      rcases (registered hi hob hic hc).2 with hmem | ⟨l, -, hlc, m₁, h₁, body, hcalls⟩ | ⟨o, ho, -⟩
      · rw [(truthful hc).outstanding_eq hnone] at hmem
        exact hmem
      · obtain ⟨o, ho, -⟩ := hcalls.truthful (truthful h₁)
        exact absurd (outcome?_of_le (Nat.le_of_lt hlc) h₁ hc ho) (hno o)
      · exact absurd ho (hno o)
    obtain ⟨w', h', hqueue, -⟩ := queue_of_settle hc hlt hnone
    have hadd := hqueue ⟨i, hic, m, hi, ob, hob, hawaits⟩
    refine ⟨_, hc, ⟨w.clock, w.queue.scheduled, _⟩,
      ⟨Duration.add?_zero _, rfl, _, step_of_moment hc h', hadd⟩, ⟨m.world.observed p, ob⟩, ?_, rfl⟩
    exact Work.mem_toTell.mpr ⟨_, _, rfl, List.mem_filter.mpr ⟨hmem, hawaits⟩⟩
  · cases hi.symm.trans hc
    exact absurd hob hs.not_observes
  · -- the promise is settled when the observer is registered
    rw [Nat.max_eq_left (Nat.le_of_lt hci)]
    obtain ⟨mc', hc'⟩ := exists_moment_of_le hci hi
    have hview := (step_of_moment hc hc').view_of_settles hs
    have hafter : (mc'.world.view p).outcome? = some (s.outcome (mc.world.view p).segment?) := by
      rw [hview]
      rfl
    have ho := outcome?_of_le hci hc' hi hafter
    obtain ⟨w, stack⟩ := m
    obtain ⟨-, k', rest', hstack'⟩ := hob
    cases hstack'
    obtain ⟨w', h', hadd, -⟩ := queue_of_observe hi ho
    refine ⟨_, hi, ⟨w.clock, w.queue.scheduled, _⟩,
      ⟨Duration.add?_zero _, rfl, _, step_of_moment hi h', hadd hawaits⟩, ⟨w.observed p, ob⟩, ?_,
      rfl⟩
    exact Work.mem_toTell.mpr ⟨_, _, rfl, .head _⟩

/-- **A callback runs at the instant at which it was sent.** -/
theorem Passive.clock_of_calls (passive : prog.Passive) {body : Script P Unit}
    (hh : prog.moment h = some m) (hsends : m.Sends p n) (hl : prog.moment l = some m')
    (hcalls : m'.Calls p n body) : h < l ∧ m'.world.clock = m.world.clock := by
  obtain ⟨t, ht, r, hr, rfl⟩ := hsends
  obtain ⟨below, hruns, hhl⟩ := runs_of_calls hh ht hr hl hcalls
  obtain ⟨o, rs, hbody, -⟩ := Work.mem_toTell.mp hr
  obtain ⟨m₁, h₁, hclock, -⟩ := passive.of_runs hbody hruns
  cases hl.symm.trans h₁
  have hdue : some t.due = some m.world.clock := ht.1.symm.trans (Duration.add?_zero _)
  exact ⟨hhl, hclock.trans (Option.some.inj hdue)⟩

/-- While a delivery is under way no other task starts. -/
lemma Passive.not_starts_of_runs (passive : prog.Passive) (hbody : t.body = .delivery p o rs)
    (hruns : prog.Runs n t below) : ¬ prog.At n fun m => m.Starts u := by
  rintro ⟨m, hm, hor, ran, k, rest, q, hstack, -⟩
  obtain ⟨m₁, h₁, -, above, rs', habove⟩ := passive.of_runs hbody hruns
  cases hm.symm.trans h₁
  have hplain := passive.not_isDrive_above hm habove
  cases above with
  | nil => cases hstack.symm.trans habove
  | cons x above =>
    cases hstack.symm.trans habove
    cases hplain _ (.head above)

/-- **Callbacks run in the order in which they were sent.** -/
theorem Passive.calls_in_order (passive : prog.Passive) {p' : PromiseId} {h' n' l' : Nat}
    (hhh' : h < h') (hh : prog.At h fun m => m.Sends p n) (hh' : prog.At h' fun m => m.Sends p' n')
    (hl : prog.At l fun m => ∃ body, m.Calls p n body)
    (hl' : prog.At l' fun m => ∃ body, m.Calls p' n' body) : l < l' := by
  obtain ⟨m₁, h₁, t, ht, r, hr, rfl⟩ := hh
  obtain ⟨m₂, h₂, t', ht', r', hr', rfl⟩ := hh'
  obtain ⟨m₃, h₃, body, hcalls⟩ := hl
  obtain ⟨m₄, h₄, body', hcalls'⟩ := hl'
  obtain ⟨below, hruns, -⟩ := runs_of_calls h₁ ht hr h₃ hcalls
  obtain ⟨below', hruns', -⟩ := runs_of_calls h₂ ht' hr' h₄ hcalls'
  obtain ⟨s, hsl, ⟨m₅, h₅, hstarts⟩, hduring⟩ := hruns.exists_starts
  obtain ⟨s', hsl', ⟨m₆, h₆, hstarts'⟩, -⟩ := hruns'.exists_starts
  -- the first task starts first, and the second one only when the first is over
  obtain ⟨s₀, hs₀, m₇, h₇, hstarts₀⟩ :=
    starts_of_handsOver hhh' ⟨m₁, h₁, ht⟩ ⟨m₂, h₂, ht'⟩ h₆ hstarts'
  have hss' : s < s' := by
    rcases Nat.lt_trichotomy s₀ s with hlt | rfl | hlt
    · have hne := ((passed_of_starts hlt h₇ hstarts₀ h₅).precedes t hstarts.mem_waiting).2
      exact absurd rfl hne
    · exact hs₀
    · have hne := ((passed_of_starts hlt h₅ hstarts h₇).precedes t hstarts₀.mem_waiting).2
      exact absurd rfl hne
  have hls' : l < s' := by
    by_contra hle
    have hs'l := Nat.not_lt.mp hle
    obtain ⟨o, rs, hbody, -⟩ := Work.mem_toTell.mp hr
    exact passive.not_starts_of_runs hbody (hduring s' hss' hs'l) ⟨m₆, h₆, hstarts'⟩
  exact Nat.lt_trans hls' hsl'

/-- An observer that was sent what happened has been told when the instant of the sending is
past. -/
lemma Passive.called_of_lt (passive : prog.Passive) {ob : Observer P} {mi : Machine P}
    (hi : prog.moment i = some mi) (hob : mi.Observes p ob) (hij : i < j)
    (hh : prog.moment h = some m) (hsends : m.Sends p (mi.world.observed p)) (hhj : h < j)
    (hj : prog.moment j = some m') (hlate : m.world.clock < m'.world.clock)
    (ho : (m'.world.view p).outcome? = some o) (hawaits : ob.awaits o = true) :
    ∃ l < j, prog.At l fun m₁ => ∃ body, m₁.Calls p (mi.world.observed p) body := by
  obtain ⟨t, ht, r, hr, hnumber⟩ := hsends
  have hdue : t.due = m.world.clock :=
    (Option.some.inj (ht.1.symm.trans (Duration.add?_zero _)))
  refine called_of_gone hi hob hij hh ht hr hnumber hhj hj (fun hmem => ?_) (fun below hruns => ?_)
    ho hawaits
  · have hle : m'.world.clock.nanos ≤ t.due.nanos := (timely hj).clock_le t hmem
    rw [hdue] at hle
    exact absurd hlate (Nat.not_lt.mpr hle)
  · obtain ⟨o, rs, hbody, -⟩ := Work.mem_toTell.mp hr
    obtain ⟨m₁, h₁, hclock, -⟩ := passive.of_runs hbody hruns
    cases hj.symm.trans h₁
    rw [hclock, hdue] at hlate
    exact absurd hlate (Nat.lt_irrefl _)

/-- An observer that was sent what happened is told before all those that were sent something
later. -/
lemma Passive.called_before (passive : prog.Passive) {ob : Observer P} {p' : PromiseId}
    {mi : Machine P} {h' n' l' : Nat} (hi : prog.moment i = some mi) (hob : mi.Observes p ob)
    (hawaits : ∀ o, ob.awaits o = true) (hh : prog.moment h = some m)
    (hsends : m.Sends p (mi.world.observed p)) (hih : i ≤ h) (hhh' : h < h')
    (hh' : prog.At h' fun m => m.Sends p' n')
    (hl' : prog.At l' fun m => ∃ body, m.Calls p' n' body) :
    ∃ l < l', prog.At l fun m₁ => ∃ body, m₁.Calls p (mi.world.observed p) body := by
  obtain ⟨m', hm', t', ht', r', hr', rfl⟩ := hh'
  obtain ⟨m₁, h₁, body', hcalls'⟩ := hl'
  obtain ⟨t, ht, r, hr, hnumber⟩ := hsends
  obtain ⟨below', hruns', -⟩ := runs_of_calls hm' ht' hr' h₁ hcalls'
  obtain ⟨s', hsl', ⟨ms, hs, hstarts'⟩, -⟩ := hruns'.exists_starts
  obtain ⟨s, hss', m₀, h₀, hstarts⟩ :=
    starts_of_handsOver hhh' ⟨m, hh, ht⟩ ⟨m', hm', ht'⟩ hs hstarts'
  have hwaiting := hstarts.mem_waiting
  obtain ⟨o, rs, hbody, -⟩ := Work.mem_toTell.mp hr
  obtain ⟨o', ho'⟩ := (truthful h₀).outcome?_of_waiting hwaiting hr
  -- the task was started after it was handed over, and is over when the other one starts
  obtain ⟨m₂, h₂⟩ := exists_moment_of_le (Nat.succ_le_of_lt hss') hs
  obtain ⟨hor, ran, k, rest, q, hstack, hnext⟩ := id hstarts
  have hruns : prog.Runs (s + 1) t (.drive hor (ran + 1) k :: rest) := by
    refine ⟨hor, ran, k, rest, s, rfl, Nat.lt_succ_self s, ⟨m₀, h₀, hstack, hstarts⟩,
      fun i hi hle => ?_⟩
    obtain rfl : i = s + 1 := by omega
    obtain ⟨w, stack⟩ := m₀
    cases hstack
    cases (step_of_moment h₀ h₂).unique (.start hnext)
    exact ⟨_, h₂, [_], by simp, rfl⟩
  have hhs := (eq_of_runs hh ht hr hruns hr rfl).2
  obtain ⟨l, hls, hcalled⟩ := called_of_gone hi hob (by omega) hh ht hr hnumber (by omega) hs
    (fun hmem => ((passed_of_starts hss' h₀ hstarts hs).precedes t hmem).2 rfl)
    (fun below hruns => passive.not_starts_of_runs hbody hruns ⟨ms, hs, hstarts'⟩)
    (outcome?_of_le (Nat.le_of_lt hss') h₀ hs ho') (hawaits o')
  exact ⟨l, Nat.lt_trans hls hsl', hcalled⟩

/-! ## Quiet moments -/

/-- A delivery that waits is due. -/
lemma due_le_of_delivery {o : Outcome P.Value P.Error} {rs : List (Registration P)}
    (hn : prog.moment n = some m) (ht : t ∈ m.world.queue.waiting)
    (hbody : t.body = .delivery p o rs) : t.due ≤ m.world.clock := by
  induction n generalizing m with
  | zero =>
    cases hn
    cases ht
  | succ n ih =>
    obtain ⟨m₁, h₁, hstep⟩ := moment_succ_eq_some_iff.mp hn
    have hclock := hstep.ticks.clock_le
    have hbefore : t ∈ m₁.world.queue.waiting → t.due ≤ m.world.clock :=
      fun ht => Nat.le_trans (ih h₁ ht) hclock
    cases hstep with
    | operate performed =>
      rcases (World.effect_of_perform performed).2.due_of_delivery ht hbody with ht | hdue
      · exact hbefore ht
      · exact Nat.le_trans (Nat.le_of_eq (congrArg Duration.nanos hdue)) hclock
    | start taken =>
      refine hbefore ?_
      rw [(Queue.next?_eq_some_iff.mp taken).1]
      exact .tail _ ht
    | finish | drive | attempt | delivered | call | leaveOut | driven => exact hbefore ht

/-- A calm moment is quiet: a delivery is a task that a drive has started. -/
lemma quiet_of_calm (hn : prog.moment n = some m) (hcalm : m.Calm) : m.Quiet := by
  refine ⟨hcalm.nothingDue, fun p o rs hmem => ?_⟩
  obtain ⟨above, below, hstack⟩ := List.append_of_mem hmem
  obtain ⟨t, rs₀, -, -, hor, ran, k, rest, i, rfl, -⟩ := runs_of_delivery hn hstack
  have hnil := hcalm.nothingUnderWay (above ++ [.delivery p o rs]) hor (ran + 1) k rest
    (by rw [hstack, List.append_assoc]; rfl)
  simp at hnil

/-- **At a quiet moment everybody has been told.**  The callback of every observer that was
registered on a promise, and waits for what this has ended with, has run. -/
theorem called_of_quiet {ob : Observer P} {o : Outcome P.Value P.Error}
    (hi : prog.moment i = some m) (hob : m.Observes p ob) (hij : i < j)
    (hj : prog.moment j = some m') (hquiet : m'.Quiet) (ho : (m'.world.view p).outcome? = some o)
    (hawaits : ob.awaits o = true) :
    ∃ l, i < l ∧ l < j ∧ prog.At l fun m₁ => ∃ body, m₁.Calls p (m.world.observed p) body := by
  rcases (registered hi hob hij hj).2 with hmem | hcalled | ⟨o', ho', hnot⟩
  · exfalso
    rcases Multiset.mem_add.mp hmem with hmem | hstack
    · rcases Multiset.mem_add.mp hmem with hlist | hqueue
      · -- the list of a settled promise is empty
        obtain ⟨s, hs, -⟩ := Option.map_eq_some_iff.mp ho
        obtain ⟨a, ha, hslot⟩ := World.settlement?_view_eq_some_iff.mp hs
        rw [World.waitingFor_of_eq_some ha, hslot] at hlist
        cases hlist
      · obtain ⟨t, ht, hr⟩ := List.mem_flatMap.mp (Multiset.mem_coe.mp hqueue)
        obtain ⟨o', rs, hbody, -⟩ := Work.mem_toTell.mp hr
        have hdue : t.due.nanos ≤ m'.world.clock.nanos := due_le_of_delivery hj ht hbody
        have hlt : m'.world.clock.nanos < t.due.nanos := hquiet.nothingDue t ht
        omega
    · obtain ⟨x, hx, hr⟩ := List.mem_flatMap.mp (Multiset.mem_coe.mp hstack)
      rcases x with s | ⟨q, o', rs⟩ | ⟨hor, ran, k⟩
      · cases hr
      · exact hquiet.noDelivery q o' rs hx
      · cases hr
  · exact hcalled
  · cases ho.symm.trans ho'
    exact absurd hawaits hnot

end Program

end Eventual
