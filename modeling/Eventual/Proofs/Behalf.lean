import Eventual.Proofs.Listening
import Mathlib.Order.Interval.Set.Defs

/-!
# What is done on behalf of a call

A call does not only act while it lasts.  The callbacks of the observers that it registers and the
tasks that it hands to the scheduler act for it later, and they may register observers and hand over
tasks themselves (`Program.OnBehalf`).  A task acts while it is the innermost one under way
(`Program.Busy`): what runs within a drive that it makes itself does not act for it.  There is only
one such task at a moment.  So nothing is done on behalf of two calls that a script makes one after
the other (`Program.OnBehalf.disjoint`).
-/

namespace Eventual

variable {P : Payload}

/-- Whether an operation hands a script to the scheduler. -/
def Op.isSchedule : {ρ : Type} → Op P ρ → Bool
  | _, schedule _ _ => true
  | _, _ => false

namespace Machine

/-- The `n`-th observer of a promise is about to be registered. -/
def Registers (m : Machine P) (p : PromiseId) (n : Nat) : Prop :=
  (∃ ob, m.Observes p ob) ∧ m.world.observed p = n

/-- A script is about to hand a task to the scheduler. -/
def Schedules (m : Machine P) (t : Task (Work P)) : Prop :=
  ∃ delay body k rest, m.stack = .script (.op (.schedule delay body) k) :: rest ∧
    m.world.clock.add? delay = some t.due ∧ t.turn = m.world.queue.scheduled ∧
    t.body = .script body

lemma Schedules.isSchedule {w : World P} {ρ : Type} {o : Op P ρ} {k : ρ → Script P Unit}
    {rest : List (Activity P)} {t : Task (Work P)}
    (h : Schedules ⟨w, .script (.op o k) :: rest⟩ t) : o.isSchedule = true := by
  obtain ⟨delay, body, k', rest', hstack, -⟩ := h
  cases hstack
  rfl

lemma Schedules.unique {m : Machine P} {t u : Task (Work P)} (ht : m.Schedules t)
    (hu : m.Schedules u) : t = u := by
  obtain ⟨w, stack⟩ := m
  obtain ⟨due, turn, work⟩ := t
  obtain ⟨due', turn', work'⟩ := u
  obtain ⟨delay, body, k, rest, rfl, hdue, rfl, rfl⟩ := ht
  obtain ⟨delay', body', k', rest', hstack, hdue', rfl, rfl⟩ := hu
  cases hstack
  cases hdue.symm.trans hdue'
  rfl

end Machine

namespace Program

/-- At moment `j` the task `t` is the innermost one under way. -/
def Busy (prog : Program P) (j : Nat) (t : Task (Work P)) : Prop :=
  ∃ above below, prog.Runs j t below ∧
    prog.At j fun m => m.stack = above ++ below ∧ ∀ x ∈ above, x.isDrive = false

/-- What happens at a moment is done on behalf of what happens at the moments of a set. -/
inductive OnBehalf (prog : Program P) (A : Set Nat) : Nat → Prop
  /-- It happens at one of them. -/
  | root {j : Nat} (h : j ∈ A) : OnBehalf prog A j
  /-- It is done by a callback of an observer that was registered on behalf of them. -/
  | callback {i j n : Nat} {p : PromiseId} (before : OnBehalf prog A i)
      (registers : prog.At i fun m => m.Registers p n) (within : prog.Within j p n) :
      OnBehalf prog A j
  /-- It is done by a task that was handed over on behalf of them. -/
  | task {i j : Nat} {t : Task (Work P)} (before : OnBehalf prog A i)
      (schedules : prog.At i fun m => m.Schedules t) (busy : prog.Busy j t) : OnBehalf prog A j

variable {prog : Program P} {A B : Set Nat} {i j l n n' a b c : Nat} {p p' : PromiseId}
  {t u : Task (Work P)} {m m' : Machine P}

/-! ## The innermost task -/

/-- A stack has one innermost drive. -/
lemma append_drive_inj {above above' below below' : List (Activity P)} {h h' : Horizon}
    {ran ran' : Nat} {k k' : Nat → Script P Unit}
    (heq : above ++ .drive h ran k :: below = above' ++ .drive h' ran' k' :: below')
    (hno : ∀ x ∈ above, x.isDrive = false) (hno' : ∀ x ∈ above', x.isDrive = false) :
    above = above' ∧ Activity.drive h ran k = .drive h' ran' k' ∧ below = below' := by
  induction above generalizing above' with
  | nil =>
    cases above' with
    | nil =>
      obtain ⟨hdrive, hbelow⟩ := List.cons.inj heq
      exact ⟨rfl, hdrive, hbelow⟩
    | cons x above' =>
      cases (List.cons.inj heq).1
      cases hno' _ (.head above')
  | cons x above ih =>
    cases above' with
    | nil =>
      cases (List.cons.inj heq).1
      cases hno _ (.head above)
    | cons x' above' =>
      obtain ⟨rfl, htail⟩ := List.cons.inj heq
      obtain ⟨rfl, hrest⟩ :=
        ih htail (fun y hy => hno y (.tail x hy)) fun y hy => hno' y (.tail x hy)
      exact ⟨rfl, hrest⟩

lemma not_above_of_length {below : List (Activity P)} (hm : prog.moment j = some m)
    (hlength : m.stack.length ≤ below.length) : ¬ prog.At j fun m => m.Above below := by
  rintro ⟨m', hm', above, hne, heq⟩
  cases hm.symm.trans hm'
  have hpos := List.length_pos_iff.mpr hne
  rw [heq, List.length_append] at hlength
  omega

/-- There is one innermost task. -/
lemma Busy.unique (ht : prog.Busy j t) (hu : prog.Busy j u) : t = u := by
  obtain ⟨above, _, ⟨h, ran, k, rest, i, rfl, hij, ⟨mi, hmi, hi, hstarts⟩, habove⟩, m, hm,
    hstack, hno⟩ := ht
  obtain ⟨above', _, ⟨h', ran', k', rest', i', rfl, hij', ⟨mi', hmi', hi', hstarts'⟩, habove'⟩, m',
    hm', hstack', hno'⟩ := hu
  cases hm.symm.trans hm'
  obtain ⟨-, hdrive, rfl⟩ := append_drive_inj (hstack.symm.trans hstack') hno hno'
  cases hdrive
  -- while a task is under way, its drive starts no other one
  obtain rfl : i = i' := by
    rcases Nat.lt_trichotomy i i' with hlt | heq | hlt
    · exact absurd (habove i' hlt (Nat.le_of_lt hij')) (not_above_of_length hmi' (by simp [hi']))
    · exact heq
    · exact absurd (habove' i hlt (Nat.le_of_lt hij)) (not_above_of_length hmi (by simp [hi]))
  cases hmi.symm.trans hmi'
  obtain ⟨h₁, ran₁, k₁, rest₁, q, hstack₁, hnext⟩ := hstarts
  obtain ⟨h₂, ran₂, k₂, rest₂, q', hstack₂, hnext'⟩ := hstarts'
  cases hi.symm.trans hstack₁
  cases hi.symm.trans hstack₂
  cases hnext.symm.trans hnext'
  rfl

/-- When a task has started it is the innermost one. -/
lemma busy_of_starts (hm : prog.moment i = some m) (hstarts : m.Starts t)
    (hm' : prog.moment (i + 1) = some m') : prog.Busy (i + 1) t := by
  obtain ⟨w, stack⟩ := m
  obtain ⟨h, ran, k, rest, q, rfl, hnext⟩ := id hstarts
  cases (step_of_moment hm hm').unique (.start hnext)
  refine ⟨[.ofWork t.body], _, ⟨h, ran, k, rest, i, rfl, Nat.lt_succ_self i,
    ⟨_, hm, rfl, hstarts⟩, fun i' hi hle => ?_⟩, _, hm', rfl, ?_⟩
  · obtain rfl : i' = i + 1 := by omega
    exact ⟨_, hm', [.ofWork t.body], by simp, rfl⟩
  · intro x hx
    rw [List.mem_singleton.mp hx]
    cases t.body <;> rfl

/-- A callback is run by the innermost task. -/
lemma Passive.busy_of_within (passive : prog.Passive) (h : prog.Within j p n) :
    ∃ t o rs, t.body = .delivery p o rs ∧ prog.Busy j t := by
  obtain ⟨l, o, r, rs, below, hlj, -, -, habove⟩ := h
  obtain ⟨m, hm, above, -, hstack⟩ := habove j hlj (Nat.le_refl j)
  obtain ⟨t, rs₀, hbody, -, hruns⟩ := runs_of_delivery hm hstack
  refine ⟨t, o, rs₀, hbody, above ++ [.delivery p o rs], below, hruns, m, hm, by simp [hstack],
    fun x hx => ?_⟩
  rcases List.mem_append.mp hx with hx | hx
  · exact passive.not_isDrive_above hm hstack x hx
  · rw [List.mem_singleton.mp hx]
    rfl

/-- What acts is either a callback or a task that a script has handed over. -/
lemma Passive.not_within (passive : prog.Passive) (ht : prog.At i fun m => m.Schedules t)
    (busy : prog.Busy j t) : ¬ prog.Within j p n := by
  intro within
  obtain ⟨u, o, rs, hdelivery, busy'⟩ := passive.busy_of_within within
  obtain ⟨m, hm, delay, body, k, rest, hstack, hdue, hturn, hscript⟩ := ht
  cases busy.unique busy'
  cases hdelivery.symm.trans hscript

/-- There is one innermost callback. -/
lemma Passive.within_unique (passive : prog.Passive) (h : prog.Within j p n)
    (h' : prog.Within j p' n') : p = p' ∧ n = n' := by
  obtain ⟨l, o, r, rs, below, hlj, ⟨ml, hml, hl⟩, rfl, habove⟩ := h
  obtain ⟨l', o', r', rs', below', hlj', ⟨ml', hml', hl'⟩, rfl, habove'⟩ := h'
  obtain ⟨m, hm, above, -, hstack⟩ := habove j hlj (Nat.le_refl j)
  obtain ⟨m', hm', above', -, hstack'⟩ := habove' j hlj' (Nat.le_refl j)
  cases hm.symm.trans hm'
  have hplain : ∀ {q : PromiseId} {o : Outcome P.Value P.Error} {rs : List (Registration P)}
      {above below : List (Activity P)}, m.stack = above ++ .delivery q o rs :: below →
      (∃ h ran k rest, below = .drive h ran k :: rest) ∧
        ∀ x ∈ above ++ [.delivery q o rs], x.isDrive = false := by
    intro q o rs above below hstack
    obtain ⟨-, -, -, -, h, ran, k, rest, -, rfl, -⟩ := runs_of_delivery hm hstack
    refine ⟨⟨h, ran + 1, k, rest, rfl⟩, fun x hx => ?_⟩
    rcases List.mem_append.mp hx with hx | hx
    · exact passive.not_isDrive_above hm hstack x hx
    · rw [List.mem_singleton.mp hx]
      rfl
  obtain ⟨⟨h, ran, k, rest, rfl⟩, hno⟩ := hplain hstack
  obtain ⟨⟨h', ran', k', rest', rfl⟩, hno'⟩ := hplain hstack'
  have heq : (above ++ [.delivery p o rs]) ++ .drive h ran k :: rest =
      (above' ++ [.delivery p' o' rs']) ++ .drive h' ran' k' :: rest' := by
    simpa using hstack.symm.trans hstack'
  obtain ⟨hfront, hdrive, rfl⟩ := append_drive_inj heq hno hno'
  cases hdrive
  cases List.append_inj_right' hfront rfl
  -- while a callback is under way, its delivery runs no other one
  obtain rfl : l = l' := by
    rcases Nat.lt_trichotomy l l' with hlt | heq | hlt
    · exact absurd (habove l' hlt (Nat.le_of_lt hlj')) (not_above_of_length hml' (by simp [hl']))
    · exact heq
    · exact absurd (habove' l hlt (Nat.le_of_lt hlj)) (not_above_of_length hml (by simp [hl]))
  cases hml.symm.trans hml'
  cases hl.symm.trans hl'
  exact ⟨rfl, rfl⟩

/-! ## Where callbacks and tasks come from -/

/-- An observer is registered once. -/
lemma registers_unique (hi : prog.At i fun m => m.Registers p n)
    (hj : prog.At j fun m => m.Registers p n) : i = j := by
  have hnot : ∀ {i j : Nat}, i < j → prog.At i (fun m => m.Registers p n) →
      ¬ prog.At j fun m => m.Registers p n := by
    rintro i j hij ⟨m, hm, ⟨ob, hob⟩, rfl⟩ ⟨m', hm', -, hn⟩
    exact absurd hn (Nat.ne_of_gt (registered hm hob hij hm').1.lt_observed)
  rcases Nat.lt_trichotomy i j with hlt | heq | hlt
  · exact absurd hj (hnot hlt hi)
  · exact heq
  · exact absurd hi (hnot hlt hj)

/-- A task that a script hands over is handed over. -/
lemma handsOver_of_schedules (hm : prog.moment i = some m) (ht : m.Schedules t) :
    ∃ delay, m.HandsOver delay t := by
  obtain ⟨w, stack⟩ := m
  obtain ⟨delay, body, k, rest, rfl, hdue, hturn, hbody⟩ := ht
  exact ⟨delay, hdue, hturn, _, .operate (World.perform_schedule hdue body), hbody ▸ rfl⟩

/-- A task is handed over once. -/
lemma schedules_unique (hi : prog.At i fun m => m.Schedules t)
    (hj : prog.At j fun m => m.Schedules t) : i = j := by
  have hnot : ∀ {i j : Nat}, i < j → prog.At i (fun m => m.Schedules t) →
      ¬ prog.At j fun m => m.Schedules t := by
    rintro i j hij ⟨m, hm, hschedules⟩ ⟨m', hm', -, -, -, -, -, -, hturn', -⟩
    obtain ⟨delay, -, hturn, m₁, hstep, hqueue⟩ := handsOver_of_schedules hm hschedules
    have hle := scheduled_le hij (moment_succ_eq_some_iff.mpr ⟨m, hm, hstep⟩) hm'
    rw [hqueue, Queue.scheduled_add] at hle
    omega
  rcases Nat.lt_trichotomy i j with hlt | heq | hlt
  · exact absurd hj (hnot hlt hi)
  · exact heq
  · exact absurd hi (hnot hlt hj)

/-- A callback runs after its observer was registered. -/
lemma Within.exists_lt (h : prog.Within j p n) (hi : prog.At i fun m => m.Registers p n) :
    ∃ l, i < l ∧ l < j ∧ prog.At l fun m => ∃ body, m.Calls p n body := by
  obtain ⟨l, body, o, rs, below, hlj, ⟨m', hm', hcalls⟩, -⟩ := h.exists_calls
  obtain ⟨m, hm, -, rfl⟩ := hi
  exact ⟨l, lt_of_calls hm hm' hcalls, hlj, m', hm', body, hcalls⟩

/-- A task starts after it was handed over. -/
lemma lt_of_starts (hi : prog.At i fun m => m.Schedules t) (hj : prog.At j fun m => m.Starts t) :
    i < j := by
  obtain ⟨m, hm, -, -, -, -, -, -, hturn, -⟩ := hi
  obtain ⟨m', hm', hstarts⟩ := hj
  by_contra hle
  have hlt := (timely hm').ordered.turn_lt t hstarts.mem_waiting
  have hscheduled := scheduled_le (Nat.not_lt.mp hle) hm' hm
  omega

lemma Busy.exists_lt (h : prog.Busy j t) (hi : prog.At i fun m => m.Schedules t) :
    ∃ s, i < s ∧ s < j ∧ prog.At s fun m => m.Starts t := by
  obtain ⟨-, -, ⟨-, -, -, -, s, -, hsj, ⟨ms, hms, -, hstarts⟩, -⟩, -⟩ := h
  exact ⟨s, lt_of_starts hi ⟨ms, hms, hstarts⟩, hsj, ms, hms, hstarts⟩

namespace OnBehalf

lemma trans (h : prog.OnBehalf A j) (hA : ∀ i ∈ A, prog.OnBehalf B i) : prog.OnBehalf B j := by
  induction h with
  | root hj => exact hA _ hj
  | callback _ registers within ih => exact .callback ih registers within
  | task _ schedules busy ih => exact .task ih schedules busy

/-- What is done on behalf of a call is done on behalf of one of its parts. -/
lemma split (h : prog.OnBehalf (Set.Ico a c) j) (b : Nat) :
    prog.OnBehalf (Set.Ico a b) j ∨ prog.OnBehalf (Set.Ico b c) j := by
  induction h with
  | @root j hj =>
    rcases Nat.lt_or_ge j b with hlt | hle
    · exact Or.inl (.root ⟨hj.1, hlt⟩)
    · exact Or.inr (.root ⟨hle, hj.2⟩)
  | callback _ registers within ih =>
    exact ih.imp (fun h => .callback h registers within) fun h => .callback h registers within
  | task _ schedules busy ih =>
    exact ih.imp (fun h => .task h schedules busy) fun h => .task h schedules busy

/-- It happens at one of the moments, or is done on behalf of a callback or a task that comes from
one of them. -/
lemma cases_root (h : prog.OnBehalf A j) :
    j ∈ A ∨ (∃ i ∈ A, ∃ p n, prog.At i (fun m => m.Registers p n) ∧
        prog.OnBehalf {l | prog.Within l p n} j) ∨
      ∃ i ∈ A, ∃ t, prog.At i (fun m => m.Schedules t) ∧ prog.OnBehalf {l | prog.Busy l t} j := by
  induction h with
  | root hj => exact Or.inl hj
  | @callback i j n p _ registers within ih =>
    rcases ih with hi | ⟨i', hi', p', n', registers', h⟩ | ⟨i', hi', t, schedules, h⟩
    · exact Or.inr (Or.inl ⟨i, hi, p, n, registers, .root within⟩)
    · exact Or.inr (Or.inl ⟨i', hi', p', n', registers', .callback h registers within⟩)
    · exact Or.inr (Or.inr ⟨i', hi', t, schedules, .callback h registers within⟩)
  | @task i j t _ schedules busy ih =>
    rcases ih with hi | ⟨i', hi', p, n, registers, h⟩ | ⟨i', hi', t', schedules', h⟩
    · exact Or.inr (Or.inr ⟨i, hi, t, schedules, .root busy⟩)
    · exact Or.inr (Or.inl ⟨i', hi', p, n, registers, .task h schedules busy⟩)
    · exact Or.inr (Or.inr ⟨i', hi', t', schedules', .task h schedules busy⟩)

/-- What registers and schedules nothing has nothing done on its behalf later. -/
lemma mem_of_idle (h : prog.OnBehalf A j)
    (observes : ∀ i ∈ A, ∀ p n, ¬ prog.At i fun m => m.Registers p n)
    (schedules : ∀ i ∈ A, ∀ t, ¬ prog.At i fun m => m.Schedules t) : j ∈ A := by
  rcases h.cases_root with hj | ⟨i, hi, p, n, registers, -⟩ | ⟨i, hi, t, hschedules, -⟩
  · exact hj
  · exact absurd registers (observes i hi p n)
  · exact absurd hschedules (schedules i hi t)

lemma le (h : prog.OnBehalf A j) (hA : ∀ i ∈ A, a ≤ i) : a ≤ j := by
  induction h with
  | root hj => exact hA _ hj
  | callback _ registers within ih =>
    obtain ⟨l, hil, hlj, -⟩ := within.exists_lt registers
    omega
  | task _ schedules busy ih =>
    obtain ⟨s, his, hsj, -⟩ := busy.exists_lt schedules
    omega

/-- While a script runs, nothing is done on behalf of it but by itself. -/
lemma of_running (h : prog.OnBehalf (Set.Ico a b) j)
    (running : ∀ i, a ≤ i → i < c → prog.At i fun m => ∃ s rest, m.stack = .script s :: rest) :
    j ∈ Set.Ico a b ∨ c < j := by
  have hafter : ∀ {l}, a ≤ l → prog.At l (fun m => ∀ s rest, m.stack ≠ .script s :: rest) →
      c ≤ l := by
    intro l hal ⟨m, hm, hno⟩
    by_contra hlt
    obtain ⟨m', hm', s, rest, hstack⟩ := running l hal (Nat.not_le.mp hlt)
    cases hm.symm.trans hm'
    exact hno s rest hstack
  cases h with
  | root hj => exact Or.inl hj
  | callback before registers within =>
    obtain ⟨l, hil, hlj, m, hm, body, o, r, rs, below, hstack, -⟩ := within.exists_lt registers
    have hai := before.le fun i hi => hi.1
    refine Or.inr (Nat.lt_of_le_of_lt (hafter (l := l) (by omega) ⟨m, hm, ?_⟩) hlj)
    rintro s rest hscript
    cases hstack.symm.trans hscript
  | task before schedules busy =>
    obtain ⟨s, his, hsj, m, hm, hor, ran, k, rest, q, hstack, -⟩ := busy.exists_lt schedules
    have hai := before.le fun i hi => hi.1
    refine Or.inr (Nat.lt_of_le_of_lt (hafter (l := s) (by omega) ⟨m, hm, ?_⟩) hsj)
    rintro s rest hscript
    cases hstack.symm.trans hscript

/-- When no task is under way, nothing is done on behalf of a call that is over. -/
lemma not_of_calm (hm : prog.moment j = some m) (hcalm : m.Calm) (hA : ∀ i ∈ A, i < j) :
    ¬ prog.OnBehalf A j := by
  intro h
  cases h with
  | root hj => exact Nat.lt_irrefl j (hA j hj)
  | @callback _ _ _ p _ _ within =>
    obtain ⟨l, o, r, rs, below, hlj, -, -, habove⟩ := within
    obtain ⟨m', hm', above, -, hstack⟩ := habove j hlj (Nat.le_refl j)
    cases hm.symm.trans hm'
    refine (quiet_of_calm hm hcalm).noDelivery p o rs ?_
    rw [hstack]
    exact List.mem_append_right above (.head below)
  | task _ _ busy =>
    obtain ⟨above, _, ⟨hor, ran, k, rest, i, rfl, hij, -, habove⟩, m', hm', hstack, -⟩ := busy
    cases hm.symm.trans hm'
    obtain rfl := hcalm.nothingUnderWay above hor (ran + 1) k rest hstack
    exact not_above hm hstack (habove j hij (Nat.le_refl j))

/-- **Nothing is done on behalf of two calls** that a script makes one after the other. -/
theorem disjoint (passive : prog.Passive) {b' : Nat} (h : prog.OnBehalf (Set.Ico a b) j)
    (h' : prog.OnBehalf (Set.Ico b' c) j) (hbb' : b ≤ b')
    (running : ∀ i, a ≤ i → i < c → prog.At i fun m => ∃ s rest, m.stack = .script s :: rest) :
    False := by
  have hroot : ∀ {j}, prog.OnBehalf (Set.Ico a b) j → j ∉ Set.Ico b' c := by
    rintro j h ⟨hb', hc⟩
    rcases h.of_running running with ⟨-, hb⟩ | hlt <;> omega
  induction h with
  | root hj =>
    have hle := h'.le fun i hi => hi.1
    exact absurd hj.2 (by omega)
  | callback before registers within ih =>
    cases h' with
    | root hj => exact hroot (.callback before registers within) hj
    | callback before' registers' within' =>
      obtain ⟨rfl, rfl⟩ := passive.within_unique within within'
      cases registers_unique registers registers'
      exact ih before'
    | task before' schedules' busy' => exact passive.not_within schedules' busy' within
  | task before schedules busy ih =>
    cases h' with
    | root hj => exact hroot (.task before schedules busy) hj
    | callback before' registers' within' => exact passive.not_within schedules busy within'
    | task before' schedules' busy' =>
      cases busy.unique busy'
      cases schedules_unique schedules schedules'
      exact ih before'

end OnBehalf

/-! ## Scripts that make one attempt and nothing else -/

/-- A script that makes one attempt is called or started at moment `l`, and at moment `j` it makes
the attempt or is over. -/
def Shoots (prog : Program P) (l j : Nat) (r : PromiseId) (s : Settlement P.Value P.Error) : Prop :=
  ∃ below, prog.At (l + 1) (fun m =>
      m.stack = .script (.op (.settle r s) fun _ => .pure ()) :: below) ∧
    (j = l + 1 ∨ j = l + 2 ∧ prog.At j fun m => m.stack = .script (.pure ()) :: below)

variable {r : PromiseId} {s : Settlement P.Value P.Error}

lemma shoots_of_above {below : List (Activity P)} (hlj : l < j)
    (hbody : prog.At (l + 1) fun m =>
      m.stack = .script (.op (.settle r s) fun _ => .pure ()) :: below)
    (habove : ∀ i, l < i → i ≤ j → prog.At i fun m => m.Above below) : prog.Shoots l j r s := by
  refine ⟨below, hbody, ?_⟩
  rcases Nat.lt_or_eq_of_le (Nat.succ_le_of_lt hlj) with hlt | heq
  · obtain ⟨m, hm, -⟩ := habove (l + 2) (by omega) hlt
    have hpure : prog.At (l + 2) fun m => m.stack = .script (.pure ()) :: below :=
      ⟨m, hm, pure_of_settle hbody hm⟩
    have hle := le_of_above hpure habove (by omega)
    obtain rfl : j = l + 2 := by omega
    exact Or.inr ⟨rfl, hpure⟩
  · exact Or.inl heq.symm

namespace Shoots

lemma of_attempts (h : prog.Shoots l j r s) {q : PromiseId} (hj : prog.moment j = some m)
    (hattempts : m.Attempts q) : j = l + 1 ∧ q = r ∧ m.Attempts r ∧
      ∀ s', m.Settles q s' → s' = s := by
  obtain ⟨below, ⟨m₁, h₁, hstack₁⟩, rfl | ⟨rfl, m₂, h₂, hstack₂⟩⟩ := h
  · cases hj.symm.trans h₁
    obtain ⟨hlt, s', k, rest, hstack⟩ := id hattempts
    cases hstack.symm.trans hstack₁
    refine ⟨rfl, rfl, hattempts, ?_⟩
    rintro s'' ⟨-, -, k', rest', hstack'⟩
    cases hstack'.symm.trans hstack₁
    rfl
  · cases hj.symm.trans h₂
    obtain ⟨-, s', k, rest, hstack⟩ := hattempts
    cases hstack.symm.trans hstack₂

lemma not_registers (h : prog.Shoots l j r s) : ¬ prog.At j fun m => m.Registers p n := by
  rintro ⟨⟨w, stack⟩, hj, ⟨ob, hob⟩, -⟩
  obtain ⟨below, ⟨m₁, h₁, hstack₁⟩, rfl | ⟨rfl, m₂, h₂, hstack₂⟩⟩ := h
  · cases hj.symm.trans h₁
    cases hstack₁
    cases hob.isObserve
  · cases hj.symm.trans h₂
    cases hstack₂
    obtain ⟨-, k, rest, hstack⟩ := hob
    cases hstack

lemma not_schedules (h : prog.Shoots l j r s) : ¬ prog.At j fun m => m.Schedules t := by
  rintro ⟨⟨w, stack⟩, hj, hschedules⟩
  obtain ⟨below, ⟨m₁, h₁, hstack₁⟩, rfl | ⟨rfl, m₂, h₂, hstack₂⟩⟩ := h
  · cases hj.symm.trans h₁
    cases hstack₁
    cases hschedules.isSchedule
  · cases hj.symm.trans h₂
    obtain ⟨delay, body, k, rest, hstack, -⟩ := hschedules
    cases hstack.symm.trans hstack₂

end Shoots

/-- All that is done on behalf of a task that makes one attempt is this attempt. -/
lemma OnBehalf.of_busy (hbody : t.body = .script (.op (.settle r s) fun _ => .pure ()))
    (h : prog.OnBehalf {l | prog.Busy l t} j) :
    ∃ l, prog.At l (fun m => m.Starts t) ∧ prog.Shoots l j r s := by
  have hshoots : ∀ {j}, prog.Busy j t → ∃ l, prog.At l (fun m => m.Starts t) ∧
      prog.Shoots l j r s := by
    rintro j ⟨-, -, ⟨h, ran, k, rest, l, rfl, hlj, ⟨⟨w, stack⟩, hm, rfl, hstarts⟩, habove⟩, -⟩
    obtain ⟨m', hm', -⟩ := habove (l + 1) (Nat.lt_succ_self l) hlj
    refine ⟨l, ⟨_, hm, hstarts⟩, shoots_of_above hlj ⟨m', hm', ?_⟩ habove⟩
    obtain ⟨h₁, ran₁, k₁, rest₁, q, hstack, hnext⟩ := hstarts
    cases hstack
    cases (step_of_moment hm hm').unique (.start hnext)
    rw [hbody]
    rfl
  refine hshoots (h.mem_of_idle (fun i hi p n => ?_) fun i hi u => ?_)
  · obtain ⟨l, -, hshoots⟩ := hshoots hi
    exact hshoots.not_registers
  · obtain ⟨l, -, hshoots⟩ := hshoots hi
    exact hshoots.not_schedules

/-- All that is done on behalf of a callback that makes one attempt is this attempt. -/
lemma OnBehalf.of_within
    (hbody : ∀ l body, prog.At l (fun m => m.Calls p n body) →
      ∃ r s, body = .op (.settle r s) fun _ => .pure ())
    (h : prog.OnBehalf {l | prog.Within l p n} j) :
    prog.Within j p n ∧ ∃ l r s,
      prog.At l (fun m => m.Calls p n (.op (.settle r s) fun _ => .pure ())) ∧
        prog.Shoots l j r s := by
  have hshoots : ∀ {j}, prog.Within j p n → ∃ l r s,
      prog.At l (fun m => m.Calls p n (.op (.settle r s) fun _ => .pure ())) ∧
        prog.Shoots l j r s := by
    intro j hwithin
    obtain ⟨l, body, o, rs, below, hlj, hcalls, hstack, habove⟩ := hwithin.exists_calls
    obtain ⟨r, s, rfl⟩ := hbody l body hcalls
    exact ⟨l, r, s, hcalls, shoots_of_above hlj hstack habove⟩
  have hwithin := h.mem_of_idle (fun i hi p n => ?_) fun i hi u => ?_
  · exact ⟨hwithin, hshoots hwithin⟩
  · obtain ⟨l, r, s, -, hshoots⟩ := hshoots hi
    exact hshoots.not_registers
  · obtain ⟨l, r, s, -, hshoots⟩ := hshoots hi
    exact hshoots.not_schedules

/-! ## Calls that wait for several promises -/

namespace Listens

variable {f : Nat} {inputs : List PromiseId} {ob : Nat → Observer P} {start : Duration}

/-- What is done on behalf of a call that hands over no task is done by it or on behalf of the
callbacks of its observers. -/
lemma of_onBehalf (h : prog.Listens a f inputs ob start)
    (idle : ∀ j, a ≤ j → j < f → ∀ t, ¬ prog.At j fun m => m.Schedules t)
    (hc : prog.OnBehalf (Set.Ico a (f + inputs.length)) c) :
    c ∈ Set.Ico a (f + inputs.length) ∨ ∃ i p n, inputs[i]? = some p ∧
      prog.At (f + i) (fun m => m.Observes p (ob i) ∧ m.world.observed p = n) ∧
      prog.OnBehalf {l | prog.Within l p n} c := by
  rcases hc.cases_root with hmem | ⟨j, ⟨haj, hj⟩, p, n, ⟨m, hm, ⟨ob', hob'⟩, hn⟩, hbehalf⟩ |
    ⟨j, ⟨haj, hj⟩, t, ⟨m, hm, ht⟩, -⟩
  · exact Or.inl hmem
  · obtain ⟨i, rfl, hp⟩ := h.registers j haj hj p ob' ⟨m, hm, hob'⟩
    obtain ⟨m', hm', hob⟩ := h.observes i p hp
    cases hm.symm.trans hm'
    exact Or.inr ⟨i, p, n, hp, ⟨m, hm, hob, hn⟩, hbehalf⟩
  · exfalso
    rcases Nat.lt_or_ge j f with hlt | hle
    · exact idle j haj hlt t ⟨m, hm, ht⟩
    · -- at this moment an observer is registered
      obtain ⟨i, rfl⟩ := Nat.exists_eq_add_of_le hle
      have hi : i < inputs.length := by omega
      obtain ⟨⟨w, stack⟩, hm', -, k, rest, hstack⟩ := h.observes i _ (List.getElem?_eq_getElem hi)
      cases hm.symm.trans hm'
      cases hstack
      cases ht.isSchedule

/-- If its callbacks make one attempt each, it is all done by the call or by them. -/
lemma doneBy_of_onBehalf (h : prog.Listens a f inputs ob start)
    (idle : ∀ j, a ≤ j → j < f → ∀ t, ¬ prog.At j fun m => m.Schedules t)
    (shots : ∀ i o body, (ob i).handler? o = some body →
      ∃ r s, body = .op (.settle r s) fun _ => .pure ())
    (hc : prog.OnBehalf (Set.Ico a (f + inputs.length)) c) :
    prog.DoneBy a (f + inputs.length) c := by
  rcases h.of_onBehalf idle hc with hmem | ⟨i, p, n, hp, ⟨m, hm, hob, hn⟩, hbehalf⟩
  · exact Or.inl hmem
  · have haf := h.le
    have hi : i < inputs.length := (List.getElem?_eq_some_iff.mp hp).1
    have hbody : ∀ l body, prog.At l (fun m => m.Calls p n body) →
        ∃ r s, body = .op (.settle r s) fun _ => .pure () := by
      intro l body hcalls
      obtain ⟨-, q, m', o, -, -, -, hhandler⟩ := h.of_hears ⟨p, n, hp, ⟨m, hm, hn⟩, hcalls⟩
      exact shots i o body hhandler
    obtain ⟨hwithin, -⟩ := hbehalf.of_within hbody
    exact Or.inr ⟨f + i, p, n, by omega, by omega, ⟨m, hm, ⟨_, hob⟩, hn⟩, hwithin⟩

end Listens

end Program

end Eventual
