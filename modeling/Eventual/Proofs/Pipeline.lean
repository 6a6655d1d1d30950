import Eventual.Proofs.Alarm
import Eventual.Proofs.Selecting

/-!
# Pipelines for promises

A pipeline says how a promise is made: it is there already, or is settled at once or after a delay,
with a result that is known or that a function gives then, or it follows on another one, with what a
function makes of its value, or with what becomes of the promise that a further pipeline makes for
its value.  These are the ways to put promises one after the other by functions that do nothing
else.  A pipeline is carried out by a script, whose call lasts for a number of steps that is known
beforehand, and takes no time (`Pipeline.returns`).
-/

namespace Eventual

variable {P : Payload}

/-- What a promise is settled with that gets what a function makes of the value of another one. -/
def Outcome.mapped {V E : Type} (f : V → Except E V) : Outcome V E → Settlement V E
  | .succeeded v => .ofResult (f v)
  | .failed t => .failed t.error (some t)

/-- How a promise is made. -/
inductive Pipeline (P : Payload) : Type
  /-- It is there already. -/
  | existing (p : PromiseId)
  /-- It is settled at once, with a value or, on its own, with an error. -/
  | settled (R : Except P.Error P.Value)
  /-- It is settled after a delay. -/
  | timed (t : Timed P)
  /-- It is settled after a delay, with what a function gives when the delay is over. -/
  | deferred (t : Timed P)
  /-- It ends with what a function makes of the value of another one. -/
  | andThen (source : Pipeline P) (f : P.Value → Except P.Error P.Value)
  /-- It ends as the promise of the pipeline for the value of another one. -/
  | lazily (source : Pipeline P) (F : P.Value → Pipeline P)

namespace Script

variable {α : Type}

/-- A promise that is settled at once. -/
def ofResult (R : Except P.Error P.Value) : Script P PromiseId :=
  match R with
  | .ok v => ofValue v
  | .error e => ofError e

lemma ofResult_bind (R : Except P.Error P.Value) (k : PromiseId → Script P α) :
    (ofResult R).bind k = .op .create fun x => .op (.settle x (.ofResult R)) fun _ => k x := by
  cases R <;> rfl

/-- A promise that is settled after a delay by a function that does nothing else is settled as one
that is fulfilled or fails after the delay. -/
lemma defer_eq_settleAfter (d : Duration) (R : Except P.Error P.Value) :
    defer d (pure R) = settleAfter ⟨d, R⟩ := by
  cases R <;> rfl

/-- A promise that is settled by an observer of another one. -/
def follow (source : PromiseId) (ob : PromiseId → Observer P) : Script P PromiseId := do
  let result ← create
  observe source (ob result)
  return result

/-- The observer by which a promise gets what a function makes of the value of another one. -/
def mapper (f : P.Value → Except P.Error P.Value) (r : PromiseId) : Observer P :=
  .onEither (fun v => settleWith r (f v)) (passFailure r)

lemma handler?_mapper (f : P.Value → Except P.Error P.Value) (r : PromiseId)
    (o : Outcome P.Value P.Error) :
    (mapper f r).handler? o = some (.op (.settle r (o.mapped f)) fun _ => .pure ()) := by
  cases o with
  | succeeded v => exact congrArg some (settleWith_eq r (f v))
  | failed t => rfl

/-- The observer by which a promise is to end as the promise that is made for the value of another
one. -/
def chainer (F : P.Value → Script P PromiseId) (r : PromiseId) : Observer P :=
  .onEither (fun v => (F v).bind fun x => forward x r) (passFailure r)

lemma follow_bind (source : PromiseId) (ob : PromiseId → Observer P) (k : PromiseId → Script P α) :
    (follow source ob).bind k = .op .create fun r =>
      (observeEach (fun _ => ob r) 0 [source]).bind fun _ => k r :=
  rfl

end Script

namespace Pipeline

/-- The script that carries out a pipeline. -/
def script : Pipeline P → Script P PromiseId
  | existing p => pure p
  | settled R => Script.ofResult R
  | timed t => Script.settleAfter t
  | deferred t => Script.defer t.delay (pure t.result)
  | andThen source f => do Script.andThen (← source.script) fun v => pure (f v)
  | lazily source F => do Script.andThenLazily (← source.script) fun v => (F v).script

/-- The number of steps of a call. -/
def steps : Pipeline P → Nat
  | existing _ => 0
  | settled _ => 2
  | timed _ => 3
  | deferred _ => 3
  | andThen source _ => source.steps + 2
  | lazily source _ => source.steps + 2

/-- The number of promises that a call makes. -/
def made : Pipeline P → Nat
  | existing _ => 0
  | settled _ => 1
  | timed _ => 1
  | deferred _ => 1
  | andThen source _ => source.made + 1
  | lazily source _ => source.made + 1

/-- The promise that a call returns before which `n` promises were made. -/
def result (n : Nat) : Pipeline P → PromiseId
  | existing p => p
  | settled _ => ⟨n⟩
  | timed _ => ⟨n⟩
  | deferred _ => ⟨n⟩
  | andThen source _ => ⟨n + source.made⟩
  | lazily source _ => ⟨n + source.made⟩

/-- All promises that a pipeline refers to are among the first `n`. -/
def Known (n : Nat) : Pipeline P → Prop
  | existing p => p.index < n
  | settled _ => True
  | timed _ => True
  | deferred _ => True
  | andThen source _ => source.Known n
  | lazily source F => source.Known n ∧ ∀ v, (F v).Known n

lemma Known.mono {π : Pipeline P} {n n' : Nat} (h : π.Known n) (hn : n ≤ n') : π.Known n' := by
  induction π with
  | existing p => exact Nat.lt_of_lt_of_le h hn
  | settled _ | timed _ | deferred _ => trivial
  | andThen source f ih => exact ih h
  | lazily source F ih ihF => exact ⟨ih h.1, fun v => ihF v (h.2 v)⟩

end Pipeline

namespace Program

variable {prog : Program P} {a b c i j : Nat} {w : World P} {m : Machine P}
  {rest : List (Activity P)} {start : Duration} {x r : PromiseId}

lemma running_trans (h : prog.Running a b rest start)
    (h' : ∀ m, prog.moment b = some m → prog.Running b c rest start) :
    prog.Running a c rest start := by
  intro i m hai hic hm
  rcases Nat.le_total i b with hib | hbi
  · exact h i m hai hib hm
  · obtain ⟨mb, hmb⟩ := exists_moment_of_le hbi hm
    exact h' mb hmb i m hbi hic hm

/-! ## Settling a promise at once -/

/-- A call that settles a promise at once returns it. -/
lemma settles_of_ofResult {R : Except P.Error P.Value} {k : PromiseId → Script P Unit}
    (ha : prog.moment a = some ⟨w, .script ((Script.ofResult R).bind k) :: rest⟩) :
    prog.Running a (a + 2) rest w.clock ∧
      prog.At (a + 2) (fun m => m.stack = .script (k ⟨w.promises.size⟩) :: rest ∧
        m.world.promises.size = w.promises.size + 1) ∧
      prog.At a (fun m => m.Creates ⟨w.promises.size⟩ ∧
        ∃ k rest, m.stack = .script (.op .create k) :: rest) ∧
      prog.SettledAt (a + 1) ⟨w.promises.size⟩ (.ofResult R) w.clock := by
  obtain ⟨w₁, segment?, performed, promises, clock, -⟩ := World.perform_create w
  rw [Script.ofResult_bind] at ha
  have h₁ := moment_of_operate ha performed
  have hsize : w₁.promises.size = w.promises.size + 1 := by rw [promises, Array.size_push]
  have settled : w₁.perform (.settle ⟨w.promises.size⟩ (.ofResult R)) =
    .answer (w₁.settle ⟨w.promises.size⟩ (.ofResult R)).1
      (w₁.settle ⟨w.promises.size⟩ (.ofResult R)).2 := rfl
  refine ⟨running_succ ha fun w₁ _ _ h₁ clock₁ => ?_,
    ⟨_, moment_of_operate h₁ settled, rfl, (World.size_promises_settle ..).trans hsize⟩,
    ⟨_, ha, Machine.creates_of_create, _, _, rfl⟩, _, h₁, ⟨?_, ?_, _, _, rfl⟩, clock⟩
  · rw [← clock₁]
    refine running_succ h₁ fun w₂ _ _ h₂ clock₂ => ?_
    rw [← clock₂]
    exact running_zero h₂
  · simp [hsize]
  · simp [World.view, promises, Promise.view]

/-! ## Following on a promise -/

/-- A call at moment `a` and the instant `start` makes the promise `r` and registers an observer
for it on the promise `x`. -/
structure Attaches (prog : Program P) (a : Nat) (x r : PromiseId) (ob : Observer P)
    (start : Duration) : Prop where
  creates : prog.At a fun m => m.Creates r ∧ ∃ k rest, m.stack = .script (.op .create k) :: rest
  listens : prog.Listens a (a + 1) [x] (fun _ => ob) start

section Call

variable {ob : PromiseId → Observer P} {k : PromiseId → Script P Unit}

/-- A call that lets a promise follow on another one returns it. -/
lemma attaches_of_follow
    (ha : prog.moment a = some ⟨w, .script ((Script.follow x ob).bind k) :: rest⟩)
    (exist : x.index < w.promises.size) (awaits : ∀ r o, (ob r).awaits o = true) :
    prog.Running a (a + 2) rest w.clock ∧
      prog.At (a + 2) (fun m => m.stack = .script (k ⟨w.promises.size⟩) :: rest ∧
        m.world.promises.size = w.promises.size + 1) ∧
      prog.Attaches a x ⟨w.promises.size⟩ (ob ⟨w.promises.size⟩) w.clock := by
  obtain ⟨w₁, segment?, performed, promises, clock, -⟩ := World.perform_create w
  rw [Script.follow_bind] at ha
  have hcreates : prog.At a fun m => m.Creates ⟨w.promises.size⟩ ∧
      ∃ k rest, m.stack = .script (.op .create k) :: rest :=
    ⟨_, ha, Machine.creates_of_create, _, _, rfl⟩
  have hsize : w₁.promises.size = w.promises.size + 1 := by rw [promises, Array.size_push]
  have h₁ := moment_of_operate ha performed
  have hlistens := listens_of_observeEach (Nat.le_add_right a 1) (fun _ o => awaits _ o) h₁
    (by simp [hsize]; omega) ?_
  · rw [clock] at hlistens
    obtain ⟨⟨m, hm, hstack, hsize', -⟩, hlistens⟩ := hlistens
    refine ⟨?_, ⟨m, hm, hstack, hsize'.trans hsize⟩, hcreates, hlistens⟩
    refine running_succ ha fun w₂ _ performed₂ h₂ clock₂ => ?_
    cases performed.symm.trans performed₂
    rw [← clock₂]
    refine running_succ h₂ fun w₃ _ _ h₃ clock₃ => ?_
    rw [← clock₃]
    exact running_zero h₃
  · intro j haj hj
    obtain rfl : j = a := by omega
    refine ⟨_, ha, clock.symm, fun p ob hob => ?_, fun p hattempts => ?_⟩
    · cases hob.isObserve
    · cases hattempts.isSettle

end Call

end Program

namespace Pipeline

open Program

variable {prog : Program P} {a : Nat} {w : World P} {k : PromiseId → Script P Unit}
  {rest : List (Activity P)}

lemma script_timed (t : Timed P) : (timed t).script = Script.settleAfter t := rfl

lemma script_deferred (t : Timed P) : (deferred t).script = Script.settleAfter t :=
  Script.defer_eq_settleAfter t.delay t.result

lemma script_andThen_bind (source : Pipeline P) (f : P.Value → Except P.Error P.Value)
    (k : PromiseId → Script P Unit) :
    (andThen source f).script.bind k =
      source.script.bind fun x => (Script.follow x (Script.mapper f)).bind k :=
  Script.bind_assoc _ k source.script

lemma script_lazily_bind (source : Pipeline P) (F : P.Value → Pipeline P)
    (k : PromiseId → Script P Unit) :
    (lazily source F).script.bind k =
      source.script.bind fun x =>
        (Script.follow x (Script.chainer fun v => (F v).script)).bind k :=
  Script.bind_assoc _ k source.script

lemma awaits_mapper (f : P.Value → Except P.Error P.Value) (r : PromiseId)
    (o : Outcome P.Value P.Error) : (Script.mapper f r).awaits o = true := by
  cases o <;> rfl

lemma awaits_chainer (F : P.Value → Script P PromiseId) (r : PromiseId)
    (o : Outcome P.Value P.Error) : (Script.chainer F r).awaits o = true := by
  cases o <;> rfl

/-- A call after another one that takes no time, and lets a promise follow on what that returned. -/
lemma returns_follow {b n : Nat} {x : PromiseId} {ob : PromiseId → Observer P} {start : Duration}
    (hrunning : prog.Running a b rest start)
    (hreturns : ∀ m, prog.moment b = some m →
      m.stack = .script ((Script.follow x ob).bind k) :: rest ∧ m.world.promises.size = n ∧
        x.index < n)
    (awaits : ∀ r o, (ob r).awaits o = true) (hab : a ≤ b) :
    prog.Running a (b + 2) rest start ∧
      (∀ m, prog.moment (b + 2) = some m →
        m.stack = .script (k ⟨n⟩) :: rest ∧ m.world.promises.size = n + 1) ∧
      ∀ m, prog.moment b = some m → prog.Attaches b x ⟨n⟩ (ob ⟨n⟩) start := by
  have hfollow : ∀ m, prog.moment b = some m → prog.Running b (b + 2) rest start ∧
      prog.At (b + 2) (fun m => m.stack = .script (k ⟨n⟩) :: rest ∧
        m.world.promises.size = n + 1) ∧ prog.Attaches b x ⟨n⟩ (ob ⟨n⟩) start := by
    rintro ⟨w₁, stack⟩ h₁
    obtain ⟨hstack, rfl, hlt⟩ := hreturns _ h₁
    cases hstack
    rw [← (hrunning _ _ hab (Nat.le_refl _) h₁).2]
    exact attaches_of_follow h₁ hlt awaits
  refine ⟨running_trans hrunning fun m hm => (hfollow m hm).1, fun m hm => ?_,
    fun m hm => (hfollow m hm).2.2⟩
  obtain ⟨m₁, h₁⟩ := exists_moment_of_le (Nat.le_add_right b 2) hm
  obtain ⟨m', hm', hstack, hsize⟩ := (hfollow m₁ h₁).2.1
  cases hm.symm.trans hm'
  exact ⟨hstack, hsize⟩

/-- **The call of a pipeline** lasts for a known number of steps and takes no time; if it returns,
it returns the promise of the pipeline. -/
theorem returns (π : Pipeline P)
    (ha : prog.moment a = some ⟨w, .script (π.script.bind k) :: rest⟩)
    (known : π.Known w.promises.size) :
    prog.Running a (a + π.steps) rest w.clock ∧
      ∀ m, prog.moment (a + π.steps) = some m →
        m.stack = .script (k (π.result w.promises.size)) :: rest ∧
        m.world.promises.size = w.promises.size + π.made ∧
        (π.result w.promises.size).index < w.promises.size + π.made := by
  induction π generalizing k with
  | existing p =>
    refine ⟨running_zero ha, fun m hm => ?_⟩
    cases ha.symm.trans hm
    exact ⟨rfl, rfl, known⟩
  | settled R =>
    obtain ⟨hrunning, ⟨m', hm', hstack, hsize⟩, -⟩ := settles_of_ofResult ha
    refine ⟨hrunning, fun m hm => ?_⟩
    cases hm.symm.trans hm'
    exact ⟨hstack, hsize, Nat.lt_succ_self _⟩
  | timed t | deferred t =>
    simp only [script_timed, script_deferred] at ha
    refine ⟨running_settleAfter ha, fun m hm => ?_⟩
    obtain ⟨hstack, hsize, -⟩ := arms_of_settleAfter ha hm
    exact ⟨hstack, hsize, Nat.lt_succ_self _⟩
  | andThen source f ih =>
    rw [script_andThen_bind] at ha
    obtain ⟨hrunning, hreturns⟩ := ih ha known
    obtain ⟨hrunning', hreturns', -⟩ :=
      returns_follow hrunning hreturns (awaits_mapper f) (Nat.le_add_right _ _)
    exact ⟨hrunning', fun m hm => ⟨(hreturns' m hm).1, (hreturns' m hm).2, Nat.lt_succ_self _⟩⟩
  | lazily source F ih =>
    rw [script_lazily_bind] at ha
    obtain ⟨hrunning, hreturns⟩ := ih ha known.1
    obtain ⟨hrunning', hreturns', -⟩ :=
      returns_follow hrunning hreturns (awaits_chainer _) (Nat.le_add_right _ _)
    exact ⟨hrunning', fun m hm => ⟨(hreturns' m hm).1, (hreturns' m hm).2, Nat.lt_succ_self _⟩⟩

/-- A pipeline by which a promise gets what a function makes of a value lets it follow on the
promise of its source. -/
lemma attaches_of_andThen {source : Pipeline P} {f : P.Value → Except P.Error P.Value}
    (ha : prog.moment a = some ⟨w, .script ((andThen source f).script.bind k) :: rest⟩)
    (known : source.Known w.promises.size) {m : Machine P}
    (hm : prog.moment (a + source.steps) = some m) :
    prog.Attaches (a + source.steps) (source.result w.promises.size)
      ((andThen source f).result w.promises.size)
      (Script.mapper f ((andThen source f).result w.promises.size)) w.clock := by
  rw [script_andThen_bind] at ha
  obtain ⟨hrunning, hreturns⟩ := source.returns ha known
  obtain ⟨-, -, hattaches⟩ :=
    returns_follow hrunning hreturns (awaits_mapper f) (Nat.le_add_right _ _)
  exact hattaches m hm

/-- A pipeline by which a promise is to end as another one that is made for a value lets it follow
on the promise of its source. -/
lemma attaches_of_lazily {source : Pipeline P} {F : P.Value → Pipeline P}
    (ha : prog.moment a = some ⟨w, .script ((lazily source F).script.bind k) :: rest⟩)
    (known : source.Known w.promises.size) {m : Machine P}
    (hm : prog.moment (a + source.steps) = some m) :
    prog.Attaches (a + source.steps) (source.result w.promises.size)
      ((lazily source F).result w.promises.size)
      (Script.chainer (fun v => (F v).script) ((lazily source F).result w.promises.size))
      w.clock := by
  rw [script_lazily_bind] at ha
  obtain ⟨hrunning, hreturns⟩ := source.returns ha known
  obtain ⟨-, -, hattaches⟩ :=
    returns_follow hrunning hreturns (awaits_chainer _) (Nat.le_add_right _ _)
  exact hattaches m hm

end Pipeline

end Eventual
