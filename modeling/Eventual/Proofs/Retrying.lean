import Eventual.Proofs.Composed
import Eventual.Proofs.Handover

/-!
# Retry loops and the rest of a program

A retry loop is spread over the callbacks of observers and the tasks that it hands over.  What
belongs to it is told apart from everything else by its name: other scripts are confined to the
scope that lacks the name (`Scope.withoutRetry`).  Where the loop runs a script that it was given,
the thunk or the callback for errors, that script is confined too, and the loop goes on once it is
over (`Activity.Resumes`).  Each of these keeps its form in a step.
-/

namespace Eventual

variable {P : Payload}

/-! ## The parts of a loop -/

namespace Retry

variable (t : Retry P) (ρ : RetryId)

/-- The observer of the promise that the `n`-th call of the thunk has given; calls are counted from
zero, and attempts, as they are reported, from one. -/
def watcher (n : Nat) : Observer P :=
  .onEither (Script.passValue t.result) (t.afterFailure ρ (n + 1))

/-- What is done with the promise that the `n`-th call of the thunk has given. -/
def await (n : Nat) (p : PromiseId) : Script P Unit := .op (.observe p (t.watcher ρ n)) .pure

/-- An attempt is counted, the thunk is called for the `n`-th time, and its promise is awaited. -/
def trial (n : Nat) : Script P Unit :=
  .op (.countAttempt ρ) fun _ => (t.thunk n).bind (t.await ρ n)

/-- The next attempt is set for later. -/
def pause : Script P Unit := .op (.schedule t.interval (.attempt ρ (.pure ()))) .pure

/-- The next attempt is set for later, and that is reported. -/
def again : Script P Unit := .op (.emit (.scheduling t.interval)) fun _ => t.pause ρ

lemma nextAttempt_eq (n : Nat) :
    ({ t with attempts := n } : Retry P).nextAttempt ρ = .op (.view t.result) fun v =>
      if v.isSettled then .op (.emit (.retryAbandoned n)) .pure else t.trial ρ n :=
  rfl

lemma afterFailure_eq (n : Nat) (trace : Trace P.Error) :
    t.afterFailure ρ n trace = .op (.emit (.retrying n t.interval)) fun _ =>
      (t.onError trace).bind fun _ => t.again ρ :=
  rfl

end Retry

lemma Script.keepTrying_bind {α : Type} (thunk : Nat → Script P PromiseId) (interval : Duration)
    (onError : Trace P.Error → Script P Unit) (k : PromiseId → Script P α) :
    (keepTrying thunk interval onError).bind k = .op .create fun result =>
      .op (.openRetry result interval thunk onError) fun r => .attempt r (k result) :=
  rfl

/-! ## Everything else -/

/-- The scope of scripts that do not use a retry loop. -/
def Scope.withoutRetry (ρ : RetryId) : Scope P where
  trace _ := True
  settlement _ := True
  gathering _ := True
  pairing _ := True
  retry r := r ≠ ρ
  fulfilled _ := trivial
  passed _ _ := trivial
  traced _ _ _ _ := trivial

/-- An attempt of a loop is about to be counted. -/
def Machine.Counts (m : Machine P) (ρ : RetryId) : Prop :=
  ∃ k rest, m.stack = .script (.op (.countAttempt ρ) k) :: rest

/-- Whether an operation counts an attempt. -/
def Op.isCount : {ρ : Type} → Op P ρ → Bool
  | _, countAttempt _ => true
  | _, _ => false

lemma Machine.Counts.isCount {w : World P} {ρ : RetryId} {α : Type} {o : Op P α}
    {k : α → Script P Unit} {rest : List (Activity P)}
    (h : Counts ⟨w, .script (.op o k) :: rest⟩ ρ) : o.isCount = true := by
  obtain ⟨k', rest', hstack⟩ := h
  cases hstack
  rfl

lemma World.announces_withoutRetry {w w' : World P} {ρ : RetryId} (h : ρ.index < w.retries.size) :
    Announces (.withoutRetry ρ) w w' := by
  refine ⟨fun _ _ _ => trivial, fun _ _ _ => trivial, fun i hi _ heq => ?_⟩
  rw [← heq] at h
  exact Nat.not_lt.mpr hi h

lemma World.ConfinedTo.emit {S : Scope P} {exempt : PromiseId → Nat → Prop} {late : Nat → Prop}
    {w : World P} (hw : w.ConfinedTo S exempt late) (e : Event) :
    (w.emit e).ConfinedTo S exempt late :=
  ⟨hw.traces, hw.waiting, hw.tasks, hw.loops⟩

/-- What follows on the call of a retry loop does not use a loop, if the whole does not use it. -/
lemma Script.of_keepTrying_bind {α : Type} {thunk : Nat → Script P PromiseId} {interval : Duration}
    {onError : Trace P.Error → Script P Unit} {k : PromiseId → Script P α} {ρ : RetryId}
    (h : ((keepTrying thunk interval onError).bind k).ConfinedTo (Scope.withoutRetry ρ))
    (r : PromiseId) :
    (∀ n, (thunk n).ConfinedTo (Scope.withoutRetry ρ)) ∧
      (∀ trace, (onError trace).ConfinedTo (Scope.withoutRetry ρ)) ∧
      (k r).ConfinedTo (Scope.withoutRetry ρ) := by
  rw [keepTrying_bind] at h
  cases h with
  | op _ _ _ rest =>
    have hopen := rest r trivial
    cases hopen with
    | op _ carried thunks rest =>
      refine ⟨fun n => thunks _ ⟨n, rfl⟩, fun trace => carried _ ⟨trace, trivial, rfl⟩, ?_⟩
      -- the program might be told of any other loop
      have hne : (⟨ρ.index + 1⟩ : RetryId) ≠ ρ := by
        intro heq
        exact Nat.succ_ne_self ρ.index (congrArg RetryId.index heq)
      have hattempt := rest ⟨ρ.index + 1⟩ hne
      cases hattempt with
      | attempt _ rest => exact rest

namespace Machine

variable {S : Scope P} {exempt : PromiseId → Nat → Prop} {late : Nat → Prop} {m m' : Machine P}

/-- Everything in a machine is confined, save for exempt observers and tasks. -/
structure ConfinedSave (S : Scope P) (exempt : PromiseId → Nat → Prop) (late : Nat → Prop)
    (m : Machine P) : Prop where
  world : m.world.ConfinedTo S exempt late
  stack : ∀ x ∈ m.stack, x.ConfinedTo S exempt

lemma ConfinedTo.save (h : m.ConfinedTo S) (exempt : PromiseId → Nat → Prop)
    (late : Nat → Prop) : m.ConfinedSave S exempt late :=
  ⟨h.world.mono (fun _ _ h => h.elim) fun _ h => h.elim,
    fun x hx => (h.stack x hx).mono fun _ _ h => h.elim⟩

/-- Observers that are not outstanding and tasks that do not wait need not be exempt. -/
lemma ConfinedSave.confinedTo (h : m.ConfinedSave S exempt late)
    (hexempt : ∀ p, ∀ r ∈ m.outstanding p, ¬ exempt p r.number)
    (hlate : ∀ t ∈ m.world.queue.waiting, ¬ late t.turn) : m.ConfinedTo S := by
  have hdrop : ∀ p r, r ∈ m.outstanding p → r.ConfinedTo S exempt p →
      r.ConfinedTo S (fun _ _ => False) p :=
    fun p r hr hconfined => Or.inr (hconfined.resolve_left (hexempt p r hr))
  refine ⟨⟨h.world.traces, fun p r hr => ?_, fun t ht => Or.inr ?_, h.world.loops⟩, fun x hx => ?_⟩
  · refine hdrop p r (Multiset.mem_add.mpr (Or.inl (Multiset.mem_add.mpr (Or.inl ?_))))
      (h.world.waiting p r hr)
    exact Multiset.mem_coe.mpr hr
  · have hbody := (h.world.tasks t ht).resolve_left (hlate t ht)
    rcases hwork : t.body with body | ⟨p, o, rs⟩
    · rwa [hwork] at hbody
    · rw [hwork] at hbody
      refine ⟨hbody.1, fun r hr => hdrop p r ?_ (hbody.2 r hr)⟩
      exact mem_outstanding_of_waiting ht (Work.mem_toTell.mpr ⟨o, rs, hwork, hr⟩)
  · rcases x with s | ⟨p, o, rs⟩ | ⟨hor, ran, k⟩
    · exact h.stack _ hx
    · obtain ⟨ho, hrs⟩ := h.stack _ hx
      refine ⟨ho, fun r hr => hdrop p r ?_ (hrs r hr)⟩
      refine Multiset.mem_add.mpr (Or.inr (Multiset.mem_coe.mpr (List.mem_flatMap.mpr ⟨_, hx, ?_⟩)))
      rw [Activity.toTell, if_pos rfl]
      exact hr
    · exact h.stack _ hx

/-- What can happen in a machine in which everything is confined, save for exempt observers and
tasks. -/
lemma Step.confinedSave (h : m.Step m') (hm : m.ConfinedSave S exempt late)
    (announces : World.Announces S m.world m'.world) :
    m'.ConfinedSave S exempt late ∨
      (∃ p n body, exempt p n ∧ m.Calls p n body ∧ m'.world = m.world ∧
        ∃ o rs rest, m'.stack = .script body :: .delivery p o rs :: rest ∧
          ConfinedSave S exempt late ⟨m.world, .delivery p o rs :: rest⟩) ∨
      ∃ t, m.Starts t ∧ late t.turn := by
  obtain ⟨w, stack⟩ := m
  cases stack with
  | nil => cases h
  | cons x rest =>
    obtain ⟨hworld, ⟨new, hnew, hconfined⟩ |
      ⟨p, o, r, rs, body, rfl, hexempt, handler, hstack, hd⟩ |
      ⟨t, hor, ran, k, rfl, hstarts, hlate, -⟩⟩ :=
        h.confined hm.world (hm.stack x (.head rest)) announces
    · refine Or.inl ⟨hworld, fun y hy => ?_⟩
      rw [hnew] at hy
      rcases List.mem_append.mp hy with hy | hy
      · exact hconfined y hy
      · exact hm.stack y (.tail x hy)
    · have hsame : m'.world = w := congrArg Machine.world (h.unique (.call handler))
      refine Or.inr (Or.inl ⟨p, r.number, body, hexempt, ⟨o, r, rs, rest, rfl, rfl, handler⟩, hsame,
        o, rs, rest, hstack, hm.world, fun y hy => ?_⟩)
      rcases List.mem_cons.mp hy with rfl | hy
      · exact hd
      · exact hm.stack y (.tail _ hy)
    · exact Or.inr (Or.inr ⟨t, hstarts, hlate⟩)

lemma not_counts_of_confined {w : World P} {ρ : RetryId} {x : Activity P}
    {rest : List (Activity P)} (hx : x.ConfinedTo (.withoutRetry ρ) exempt) :
    ¬ Counts ⟨w, x :: rest⟩ ρ := by
  rintro ⟨k, rest', hstack⟩
  cases hstack
  cases hx with
  | op permitted => exact permitted rfl

lemma ConfinedSave.not_counts {ρ : RetryId} (hm : m.ConfinedSave (.withoutRetry ρ) exempt late) :
    ¬ m.Counts ρ := by
  obtain ⟨w, stack⟩ := m
  intro hcounts
  obtain ⟨k, rest, rfl⟩ := id hcounts
  exact not_counts_of_confined (hm.stack _ (.head rest)) hcounts

/-- A loop counts its attempts, and nothing else about it changes. -/
lemma Step.retries (h : m.Step m') {ρ : RetryId} {t : Retry P}
    (ht : m.world.retries[ρ.index]? = some t) :
    (m.Counts ρ ∧ m'.world.retries[ρ.index]? = some { t with attempts := t.attempts + 1 }) ∨
      (¬ m.Counts ρ ∧ m'.world.retries[ρ.index]? = some t) := by
  by_cases hcounts : m.Counts ρ
  · left
    refine ⟨hcounts, ?_⟩
    obtain ⟨w, stack⟩ := m
    obtain ⟨k, rest, rfl⟩ := hcounts
    cases h with
    | operate performed =>
      cases performed
      change (w.retries.modify _ _)[ρ.index]? = _
      rw [Array.getElem?_modify, if_pos rfl, ht, Option.map_some]
  · refine Or.inr ⟨hcounts, ?_⟩
    obtain ⟨hlt, -⟩ := Array.getElem?_eq_some_iff.mp ht
    cases h with
    | @operate _ w' _ o k r rest performed =>
      cases World.fills_of_perform performed with
      | still same => rw [same.retries, ht]
      | openGathering _ _ retries | gather _ _ _ retries | openPairing _ _ retries
      | couple _ _ retries => rw [retries, ht]
      | openRetry _ _ retries => rw [retries, Array.getElem?_push, if_neg (Nat.ne_of_lt hlt), ht]
      | @countAttempt r _ _ retries =>
        have hne : r.index ≠ ρ.index := by
          intro heq
          obtain rfl : r = ρ := congrArg RetryId.mk heq
          exact hcounts ⟨k, rest, rfl⟩
        rw [retries, Array.getElem?_modify, if_neg hne, ht]
    | finish | drive | attempt | delivered | call | leaveOut | start | driven => exact ht

lemma Step.retries_eq (h : m.Step m') {ρ : RetryId} {t : Retry P}
    (ht : m.world.retries[ρ.index]? = some t) (hno : ¬ m.Counts ρ) :
    m'.world.retries[ρ.index]? = some t := by
  rcases h.retries ht with ⟨hcounts, -⟩ | ⟨-, hsame⟩
  · exact absurd hcounts hno
  · exact hsame

end Machine

/-! ## Scripts that a loop was given -/

/-- What may be left to do of a script. -/
inductive Script.Rest {α : Type} (s : Script P α) : Script P α → Prop
  /-- Everything. -/
  | all : Rest s s
  /-- What follows on an operation. -/
  | op {ρ : Type} {o : Op P ρ} {k : ρ → Script P α} (before : Rest s (.op o k)) (r : ρ) :
      Rest s (k r)
  /-- What follows on a drive call. -/
  | drive {d : Drive} {k : Nat → Script P α} (before : Rest s (.drive d k)) (n : Nat) : Rest s (k n)
  /-- What follows on an attempt of a retry loop. -/
  | attempt {r : RetryId} {k : Script P α} (before : Rest s (.attempt r k)) : Rest s k

/-- An activity is what is left of a script, and is confined; once it is over, `f` goes on with the
answer. -/
inductive Activity.Resumes (S : Scope P) {α : Type} (s : Script P α) (f : α → Script P Unit) :
    Activity P → Prop
  /-- A script is under way. -/
  | script {s' : Script P α} (left : s.Rest s') (confined : s'.ConfinedTo S) :
      Resumes S s f (.script (s'.bind f))
  /-- It drives the clock. -/
  | drive {h : Horizon} {ran : Nat} {k : Nat → Script P α} (left : ∀ n, s.Rest (k n))
      (confined : ∀ n, (k n).ConfinedTo S) : Resumes S s f (.drive h ran fun n => (k n).bind f)

namespace Machine

variable {S : Scope P} {α : Type} {s : Script P α} {f : α → Script P Unit} {w : World P}
  {x : Activity P} {rest : List (Activity P)} {m' : Machine P}

/-- A script that a loop was given is over, or makes a step and is still under way. -/
lemma Step.resumes (h : Step ⟨w, x :: rest⟩ m')
    (hw : w.ConfinedTo S (fun _ _ => False) fun _ => False) (hx : x.Resumes S s f)
    (announces : World.Announces S w m'.world) :
    (∃ a, x = .script (f a)) ∨
      m'.world.ConfinedTo S (fun _ _ => False) (fun _ => False) ∧
        ∃ above y, m'.stack = above ++ y :: rest ∧ y.Resumes S s f ∧
          ∀ z ∈ above, z.ConfinedTo S fun _ _ => False := by
  cases hx with
  | @script s' left confined =>
    cases confined with
    | pure a => exact Or.inl ⟨a, rfl⟩
    | @op _ _ o k permitted carried thunks hrest =>
      right
      cases h with
      | @operate _ w' _ _ _ r _ performed =>
        have leaves : o.Leaves S (fun _ _ => False) (fun _ => False) w :=
          World.leaves_of_permitted w permitted carried thunks
        exact ⟨hw.perform leaves performed, [], _, rfl,
          .script (left.op r) (hrest r (hw.tells announces performed)), by simp⟩
    | drive d hrest =>
      right
      cases h with
      | drive => exact ⟨hw, [], _, rfl, .drive left.drive hrest, by simp⟩
    | @attempt _ r k permitted hrest =>
      right
      cases h with
      | attempt =>
        have hnext : (Activity.script (w.nextAttempt r)).ConfinedTo S fun _ _ => False :=
          hw.nextAttempt permitted
        exact ⟨hw, [.script (w.nextAttempt r)], _, rfl, .script left.attempt hrest,
          by simpa using hnext⟩
  | @drive hor ran k left confined =>
    right
    cases h with
    | @start _ _ _ _ t q _ taken =>
      have hwaiting := (Queue.next?_eq_some_iff.mp taken).1
      have ht := (hw.tasks t (hwaiting ▸ .head _)).resolve_left not_false
      have hwork : (Activity.ofWork t.body).ConfinedTo S fun _ _ => False := confinedTo_ofWork ht
      exact ⟨⟨hw.traces, hw.waiting, fun u hu => hw.tasks u (hwaiting ▸ .tail t hu), hw.loops⟩,
        [.ofWork t.body], _, rfl, .drive left confined, by simpa using hwork⟩
    | driven =>
      exact ⟨⟨hw.traces, hw.waiting, hw.tasks, hw.loops⟩, [], _, rfl,
        .script (left ran) (confined ran), by simp⟩

lemma not_counts_of_resumes {ρ : RetryId} (hx : x.Resumes (.withoutRetry ρ) s f)
    (hno : ∀ a, x ≠ .script (f a)) : ¬ Counts ⟨w, x :: rest⟩ ρ := by
  rintro ⟨k, rest', hstack⟩
  cases hx with
  | script left confined =>
    cases confined with
    | pure a => exact hno a rfl
    | op permitted =>
      cases hstack
      exact permitted rfl
    | drive | attempt => cases hstack
  | drive => cases hstack

/-- A step in which a script that a loop was given is under way below others that are confined. -/
lemma Step.resumes_below {ρ : RetryId} {t : Retry P} {above below : List (Activity P)}
    (h : Step ⟨w, above ++ x :: below⟩ m') (ht : w.retries[ρ.index]? = some t)
    (hothers : ConfinedTo (.withoutRetry ρ) ⟨w, above ++ below⟩)
    (hx : x.Resumes (.withoutRetry ρ) s f) :
    (above = [] ∧ ∃ a, x = .script (f a)) ∨
      m'.world.retries[ρ.index]? = some t ∧
        ∃ above' y, m'.stack = above' ++ y :: below ∧ y.Resumes (.withoutRetry ρ) s f ∧
          ConfinedTo (.withoutRetry ρ) ⟨m'.world, above' ++ below⟩ := by
  have announces : World.Announces (.withoutRetry ρ) w m'.world :=
    World.announces_withoutRetry (Array.getElem?_eq_some_iff.mp ht).1
  cases above with
  | nil =>
    by_cases hover : ∃ a, x = .script (f a)
    · exact Or.inl ⟨rfl, hover⟩
    · rcases h.resumes hothers.world hx announces with hdone | ⟨hworld, new, y, hstack, hy, hnew⟩
      · exact absurd hdone hover
      · refine Or.inr ⟨h.retries_eq ht (not_counts_of_resumes hx fun a ha => hover ⟨a, ha⟩), new, y,
          hstack, hy, hworld, fun z hz => ?_⟩
        rcases List.mem_append.mp hz with hz | hz
        · exact hnew z hz
        · exact hothers.stack z hz
  | cons z above =>
    have hz : z.ConfinedTo (.withoutRetry ρ) fun _ _ => False := hothers.stack z (.head _)
    obtain ⟨hworld, ⟨new, hnew, hconfined⟩ | ⟨_, _, _, _, _, -, hfalse, -⟩ |
      ⟨_, _, _, _, -, -, hfalse, -⟩⟩ := h.confined hothers.world hz announces
    · refine Or.inr ⟨h.retries_eq ht (not_counts_of_confined hz), new ++ above, x,
        by simp [hnew], hx, hworld, fun y hy => ?_⟩
      rw [List.append_assoc] at hy
      rcases List.mem_append.mp hy with hy | hy
      · exact hconfined y hy
      · exact hothers.stack y (.tail z hy)
    · exact hfalse.elim
    · exact hfalse.elim

end Machine

end Eventual
