import Eventual.Proofs.Buffer
import Eventual.Proofs.Registration

/-!
# What scripts may come to do

A script is confined to a scope if, whatever it is told within the scope, it does nothing outside
it: it attempts only settlements of the scope, and uses only buffers and retry loops that belong to
the scope.  The callbacks and tasks that it hands over are confined as well.  Everything in a
machine comes from scripts, so a machine in which all is confined stays like that
(`Machine.Step.confined`); a few observers and tasks can be exempt, and then the step says when one
of them gets its turn.
-/

namespace Eventual

variable {P : Payload}

/-- What a script may be told, and what it may do. -/
structure Scope (P : Payload) : Type 1 where
  /-- The traces that it may be told. -/
  trace : Trace P.Error → Prop
  /-- The settlements that it may attempt. -/
  settlement : Settlement P.Value P.Error → Prop
  /-- The gatherings that it may be told of and may use. -/
  gathering : GatheringId → Prop
  /-- The pairings that it may be told of and may use. -/
  pairing : PairingId → Prop
  /-- The retry loops that it may be told of and of which it may make attempts. -/
  retry : RetryId → Prop
  /-- Values may be passed on. -/
  fulfilled : ∀ v, settlement (.fulfilled v)
  /-- Failures may be passed on. -/
  passed : ∀ t, trace t → settlement (.failed t.error (some t))
  /-- What a promise fails with is told to its observers. -/
  traced : ∀ e segment? cause?, settlement (.failed e cause?) →
    trace (.ofFailure e segment? cause?)

namespace Op

/-- An operation is within a scope. -/
def Permitted (S : Scope P) : {ρ : Type} → Op P ρ → Prop
  | _, settle _ s => S.settlement s
  | _, gather g _ _ => S.gathering g
  | _, couple g _ _ => S.pairing g
  | _, countAttempt r => S.retry r
  | _, _ => True

/-- The answer of an operation tells nothing outside a scope. -/
def Tells (S : Scope P) : {ρ : Type} → Op P ρ → ρ → Prop
  | _, view _, v => ∀ t, v.trace? = some t → S.trace t
  | _, openGathering _, g => S.gathering g
  | _, openPairing, g => S.pairing g
  | _, openRetry _ _ _ _, r => S.retry r
  | _, _, _ => True

/-- An operation hands over a callback or a task, which will be told nothing outside a scope. -/
def Carries (S : Scope P) : {ρ : Type} → Op P ρ → Script P Unit → Prop
  | _, observe _ ob, body => ∃ o, ob.handler? o = some body ∧ ∀ t, o = .failed t → S.trace t
  | _, schedule _ task, body => body = task
  | _, openRetry _ _ _ onError, body => ∃ t, S.trace t ∧ body = onError t
  | _, _, _ => False

/-- An operation hands over a script that gives the promise of an attempt. -/
def CarriesThunk : {ρ : Type} → Op P ρ → Script P PromiseId → Prop
  | _, openRetry _ _ thunk _, s => ∃ n, s = thunk n
  | _, _, _ => False

end Op

/-- A script does nothing outside a scope as long as it is told nothing outside it. -/
inductive Script.ConfinedTo (S : Scope P) : {α : Type} → Script P α → Prop
  /-- Nothing is done. -/
  | pure {α : Type} (a : α) : ConfinedTo S (.pure a)
  /-- An operation of the scope is carried out. -/
  | op {ρ α : Type} {o : Op P ρ} {k : ρ → Script P α} (permitted : o.Permitted S)
      (carried : ∀ body, o.Carries S body → ConfinedTo S body)
      (thunks : ∀ s, o.CarriesThunk s → ConfinedTo S s)
      (rest : ∀ r, o.Tells S r → ConfinedTo S (k r)) : ConfinedTo S (.op o k)
  /-- The clock is driven. -/
  | drive {α : Type} (d : Drive) {k : Nat → Script P α} (rest : ∀ n, ConfinedTo S (k n)) :
      ConfinedTo S (.drive d k)
  /-- An attempt of a retry loop of the scope is made. -/
  | attempt {α : Type} {r : RetryId} {k : Script P α} (permitted : S.retry r)
      (rest : ConfinedTo S k) : ConfinedTo S (.attempt r k)

/-- The callbacks of an observer are confined. -/
def Observer.ConfinedTo (S : Scope P) (ob : Observer P) : Prop :=
  ∀ o body, ob.handler? o = some body → (∀ t, o = .failed t → S.trace t) → body.ConfinedTo S

/-- An outcome tells nothing outside a scope. -/
def Outcome.ConfinedTo (S : Scope P) (o : Outcome P.Value P.Error) : Prop :=
  ∀ t, o = .failed t → S.trace t

/-- Some observers of a promise are confined, save those whose numbers are exempt. -/
def Registration.ConfinedTo (S : Scope P) (exempt : PromiseId → Nat → Prop) (p : PromiseId)
    (r : Registration P) : Prop :=
  exempt p r.number ∨ r.observer.ConfinedTo S

/-- A task is confined, save for exempt observers. -/
def Work.ConfinedTo (S : Scope P) (exempt : PromiseId → Nat → Prop) : Work P → Prop
  | .script body => body.ConfinedTo S
  | .delivery p o rs => o.ConfinedTo S ∧ ∀ r ∈ rs, r.ConfinedTo S exempt p

/-- Something under way is confined, save for exempt observers. -/
def Activity.ConfinedTo (S : Scope P) (exempt : PromiseId → Nat → Prop) : Activity P → Prop
  | .script s => s.ConfinedTo S
  | .delivery p o rs => o.ConfinedTo S ∧ ∀ r ∈ rs, r.ConfinedTo S exempt p
  | .drive _ _ k => ∀ n, (k n).ConfinedTo S

/-- Whatever waits in a world is confined, save for exempt observers and for tasks whose turns are
exempt. -/
structure World.ConfinedTo (S : Scope P) (exempt : PromiseId → Nat → Prop) (late : Nat → Prop)
    (w : World P) : Prop where
  traces : ∀ p t, (w.view p).trace? = some t → S.trace t
  waiting : ∀ p, ∀ r ∈ w.waitingFor p, r.ConfinedTo S exempt p
  tasks : ∀ t ∈ w.queue.waiting, late t.turn ∨ t.body.ConfinedTo S exempt
  loops : ∀ (i : Nat) (t : Retry P), w.retries[i]? = some t →
    (∀ n, (t.thunk n).ConfinedTo S) ∧ ∀ trace, S.trace trace → (t.onError trace).ConfinedTo S

/-- What an operation leaves behind in a world is confined, save for exempt observers and tasks. -/
def Op.Leaves (S : Scope P) (exempt : PromiseId → Nat → Prop) (late : Nat → Prop) (w : World P) :
    {ρ : Type} → Op P ρ → Prop
  | _, settle _ s => S.settlement s
  | _, observe p ob => exempt p (w.observed p) ∨ ob.ConfinedTo S
  | _, schedule _ body => late w.queue.scheduled ∨ body.ConfinedTo S
  | _, openRetry _ _ thunk onError =>
    (∀ n, (thunk n).ConfinedTo S) ∧ ∀ t, S.trace t → (onError t).ConfinedTo S
  | _, _ => True

/-- The names given out between two worlds belong to a scope. -/
structure World.Announces (S : Scope P) (w w' : World P) : Prop where
  gatherings : ∀ i, w.gatherings.size ≤ i → i < w'.gatherings.size → S.gathering ⟨i⟩
  pairings : ∀ i, w.pairings.size ≤ i → i < w'.pairings.size → S.pairing ⟨i⟩
  retries : ∀ i, w.retries.size ≤ i → i < w'.retries.size → S.retry ⟨i⟩

variable {S : Scope P} {exempt : PromiseId → Nat → Prop} {late : Nat → Prop}

lemma Activity.ConfinedTo.mono {exempt' : PromiseId → Nat → Prop} {x : Activity P}
    (hx : x.ConfinedTo S exempt) (hexempt : ∀ p n, exempt p n → exempt' p n) :
    x.ConfinedTo S exempt' := by
  rcases x with s | ⟨p, o, rs⟩ | ⟨h, ran, k⟩
  · exact hx
  · exact ⟨hx.1, fun r hr => (hx.2 r hr).imp_left (hexempt p r.number)⟩
  · exact hx

/-! ## Confined scripts -/

namespace Script

variable {α β : Type}

lemma ConfinedTo.bind {s : Script P α} {f : α → Script P β} (hs : s.ConfinedTo S)
    (hf : ∀ a, (f a).ConfinedTo S) : (s.bind f).ConfinedTo S := by
  induction hs with
  | pure a => exact hf a
  | op permitted carried thunks _ _ _ ih =>
    exact .op permitted carried thunks fun r hr => ih r hr hf
  | drive d _ ih => exact .drive d fun n => ih n hf
  | attempt permitted _ ih => exact .attempt permitted (ih hf)

/-- An operation that hands nothing over. -/
lemma confinedTo_once {ρ : Type} {o : Op P ρ} (permitted : o.Permitted S)
    (carried : ∀ body, ¬ o.Carries S body) (thunks : ∀ s, ¬ o.CarriesThunk s) :
    (once o).ConfinedTo S :=
  .op permitted (fun body h => absurd h (carried body)) (fun s h => absurd h (thunks s))
    fun r _ => .pure r

lemma confinedTo_emit (e : Event) : (emit e : Script P Unit).ConfinedTo S :=
  confinedTo_once trivial (fun _ h => h) fun _ h => h

lemma confinedTo_settle (p : PromiseId) {s : Settlement P.Value P.Error} (h : S.settlement s) :
    (once (.settle p s)).ConfinedTo S :=
  confinedTo_once h (fun _ h => h) fun _ h => h

lemma confinedTo_observe (p : PromiseId) {ob : Observer P} (h : ob.ConfinedTo S) :
    (observe p ob).ConfinedTo S := by
  refine .op trivial ?_ (fun _ h => h.elim) fun r _ => .pure r
  rintro body ⟨o, handler, told⟩
  exact h o body handler told

lemma confinedTo_schedule (delay : Duration) {body : Script P Unit} (h : body.ConfinedTo S) :
    (schedule delay body).ConfinedTo S := by
  refine .op trivial ?_ (fun _ h => h.elim) fun r _ => .pure r
  rintro _ rfl
  exact h

lemma confinedTo_later (delay : Duration) {body : Script P Unit} (h : body.ConfinedTo S) :
    (later delay body).ConfinedTo S :=
  (confinedTo_emit _).bind fun _ => confinedTo_schedule delay h

lemma confinedTo_passValue (target : PromiseId) (v : P.Value) :
    (passValue target v).ConfinedTo S :=
  (confinedTo_settle target (S.fulfilled v)).bind fun _ => .pure ()

lemma confinedTo_passFailure (target : PromiseId) {t : Trace P.Error} (h : S.trace t) :
    (passFailure target t).ConfinedTo S :=
  (confinedTo_settle target (S.passed t h)).bind fun _ => .pure ()

end Script

lemma Observer.confinedTo_onEither {f : P.Value → Script P Unit}
    {g : Trace P.Error → Script P Unit} (hf : ∀ v, (f v).ConfinedTo S)
    (hg : ∀ t, S.trace t → (g t).ConfinedTo S) : (onEither f g).ConfinedTo S := by
  rintro (v | t) body handler told
  · cases handler
    exact hf v
  · cases handler
    exact hg t (told t rfl)

/-- An attempt of a retry loop is confined, if the loop belongs to the scope. -/
lemma Retry.confinedTo_nextAttempt {t : Retry P} {r : RetryId} (permitted : S.retry r)
    (hthunk : ∀ n, (t.thunk n).ConfinedTo S)
    (honError : ∀ trace, S.trace trace → (t.onError trace).ConfinedTo S) :
    (t.nextAttempt r).ConfinedTo S := by
  have hafter : ∀ trace, S.trace trace →
      (t.afterFailure r (t.attempts + 1) trace).ConfinedTo S := by
    intro trace htrace
    refine (Script.confinedTo_emit _).bind fun _ => (honError trace htrace).bind fun _ => ?_
    exact Script.confinedTo_later _ (.attempt permitted (.pure ()))
  have hobserver := Observer.confinedTo_onEither
    (fun v => Script.confinedTo_passValue t.result v) hafter
  refine Script.ConfinedTo.op trivial (fun _ h => h.elim) (fun _ h => h.elim) fun v _ => ?_
  change Script.ConfinedTo S (if v.isSettled then _ else _)
  split
  · exact Script.confinedTo_emit _
  · refine Script.ConfinedTo.op permitted (fun _ h => h.elim) (fun _ h => h.elim) fun _ _ => ?_
    exact (hthunk t.attempts).bind fun next => Script.confinedTo_observe next hobserver

/-! ## Confined worlds -/

namespace World

variable {w w' : World P}

lemma ConfinedTo.nextAttempt (hw : w.ConfinedTo S exempt late) {r : RetryId}
    (permitted : S.retry r) : (w.nextAttempt r).ConfinedTo S := by
  rw [World.nextAttempt]
  split
  · rename_i t ht
    obtain ⟨hthunk, honError⟩ := hw.loops r.index t ht
    exact t.confinedTo_nextAttempt permitted hthunk honError
  · exact .pure ()

lemma ConfinedTo.outcome (hw : w.ConfinedTo S exempt late) {p : PromiseId}
    {o : Outcome P.Value P.Error} (ho : (w.view p).outcome? = some o) : o.ConfinedTo S := by
  rintro t rfl
  exact hw.traces p t (View.outcome?_eq_failed_iff.mp ho)

/-- What is confined stays so if more observers and tasks are exempt. -/
lemma ConfinedTo.mono {exempt' : PromiseId → Nat → Prop} {late' : Nat → Prop}
    (hw : w.ConfinedTo S exempt late) (hexempt : ∀ p n, exempt p n → exempt' p n)
    (hlate : ∀ n, late n → late' n) : w.ConfinedTo S exempt' late' where
  traces := hw.traces
  waiting p r hr := (hw.waiting p r hr).imp_left (hexempt p r.number)
  tasks t ht := by
    refine (hw.tasks t ht).imp (hlate t.turn) fun hbody => ?_
    rcases hwork : t.body with body | ⟨p, o, rs⟩
    · rwa [hwork] at hbody
    · rw [hwork] at hbody
      exact ⟨hbody.1, fun r hr => (hbody.2 r hr).imp_left (hexempt p r.number)⟩
  loops := hw.loops

lemma waitingFor_of_putPromise {q : PromiseId} {a b : Promise P}
    (before : w.promises[q.index]? = some a)
    (promises : w'.promises = w.promises.setIfInBounds q.index b) (p : PromiseId) :
    w'.waitingFor p = if p = q then b.slot.waiting else w.waitingFor p := by
  have hi : p.index = q.index ↔ p = q :=
    ⟨fun h => congrArg PromiseId.mk h, congrArg PromiseId.index⟩
  simp only [waitingFor, promises, getElem?_putPromise b before, hi]
  split <;> rfl

lemma view_of_putPromise {q : PromiseId} {a b : Promise P}
    (before : w.promises[q.index]? = some a)
    (promises : w'.promises = w.promises.setIfInBounds q.index b) (p : PromiseId) :
    w'.view p = if p = q then b.view else w.view p := by
  have hi : p.index = q.index ↔ p = q :=
    ⟨fun h => congrArg PromiseId.mk h, congrArg PromiseId.index⟩
  simp only [view, promises, getElem?_putPromise b before, hi]
  by_cases hp : p = q
  · simp [hp]
  · simp [hp]

/-- Of what a new promise shows nothing is settled, and nobody waits for it. -/
lemma view_of_push {segment? : Option Segment}
    (promises : w'.promises = w.promises.push ⟨segment?, 0, .unresolved []⟩) (p : PromiseId) :
    w'.view p = w.view p ∧ w'.waitingFor p = w.waitingFor p ∨
      (w'.view p).settlement? = none ∧ w'.waitingFor p = [] := by
  by_cases hp : p.index = w.promises.size
  · right
    simp [view, waitingFor, promises, hp, Promise.view]
  · left
    simp [view, waitingFor, promises, Array.getElem?_push, hp]

/-- What an operation of the scope leaves behind is confined. -/
lemma leaves_of_permitted {ρ : Type} {o : Op P ρ} (w : World P) (permitted : o.Permitted S)
    (carried : ∀ body, o.Carries S body → body.ConfinedTo S)
    (thunks : ∀ s, o.CarriesThunk s → s.ConfinedTo S) : o.Leaves S exempt late w := by
  cases o with
  | settle => exact permitted
  | observe p ob => exact Or.inr fun o body handler told => carried body ⟨o, handler, told⟩
  | schedule delay body => exact Or.inr (carried body rfl)
  | openRetry result interval thunk onError =>
    exact ⟨fun n => thunks _ ⟨n, rfl⟩, fun t ht => carried _ ⟨t, ht, rfl⟩⟩
  | create | createUnder | view | now | pending | settings | openGathering | gather | openPairing
  | couple | countAttempt | emit | note | load | save => trivial

/-- A failure that is told after an operation was told before, or has just been made. -/
lemma Effect.traces {ρ : Type} {o : Op P ρ} (h : Effect w w' o)
    (leaves : o.Leaves S exempt late w) (hw : w.ConfinedTo S exempt late) (p : PromiseId)
    (t : Trace P.Error) (ht : (w'.view p).trace? = some t) : S.trace t := by
  have same : ∀ {q : PromiseId} {a b : Promise P}, w.promises[q.index]? = some a →
      w'.promises = w.promises.setIfInBounds q.index b → b.view = a.view → S.trace t := by
    intro q a b before promises hview
    rw [view_of_putPromise before promises] at ht
    split at ht
    · rw [hview, ← view_of_eq_some before] at ht
      exact hw.traces q t ht
    · exact hw.traces p t ht
  cases h with
  | still promises | schedule _ promises =>
    simp only [view, promises] at ht
    exact hw.traces p t ht
  | make segment? promises =>
    rcases view_of_push promises p with ⟨hview, -⟩ | ⟨hnone, -⟩
    · exact hw.traces p t (hview ▸ ht)
    · simp [View.trace?, hnone] at ht
  | @settle q segment? observed _ s before promises =>
    rw [view_of_putPromise before promises] at ht
    split at ht
    · cases s with
      | fulfilled v => cases ht
      | failed e cause? =>
        cases ht
        exact S.traced e segment? cause? leaves
    · exact hw.traces p t ht
  | enlist before promises => exact same before promises rfl
  | inform before promises => exact same before promises rfl

lemma Effect.waiting {ρ : Type} {o : Op P ρ} (h : Effect w w' o)
    (leaves : o.Leaves S exempt late w) (hw : w.ConfinedTo S exempt late) (p : PromiseId) :
    ∀ r ∈ w'.waitingFor p, r.ConfinedTo S exempt p := by
  cases h with
  | still promises | schedule _ promises =>
    simpa only [waitingFor, promises] using hw.waiting p
  | make segment? promises =>
    rcases view_of_push promises p with ⟨-, hwaiting⟩ | ⟨-, hnil⟩
    · rw [hwaiting]
      exact hw.waiting p
    · simp [hnil]
  | settle before promises =>
    rw [waitingFor_of_putPromise before promises]
    split
    · simp
    · exact hw.waiting p
  | @enlist q _ observed waiting ob before promises =>
    rw [waitingFor_of_putPromise before promises]
    split
    · rename_i hp
      subst hp
      intro r hr
      rcases List.mem_append.mp hr with hr | hr
      · refine hw.waiting p r ?_
        rwa [waitingFor_of_eq_some before]
      · obtain rfl := List.mem_singleton.mp hr
        have hob : exempt p (w.observed p) ∨ ob.ConfinedTo S := leaves
        rwa [observed_of_eq_some before] at hob
    · exact hw.waiting p
  | inform before promises =>
    rw [waitingFor_of_putPromise before promises]
    split
    · simp
    · exact hw.waiting p

lemma Effect.tasks {ρ : Type} {o : Op P ρ} (h : Effect w w' o)
    (leaves : o.Leaves S exempt late w) (hw : w.ConfinedTo S exempt late) :
    ∀ t ∈ w'.queue.waiting, late t.turn ∨ t.body.ConfinedTo S exempt := by
  -- a delivery of what a promise has ended with, to some of its observers
  have sent : ∀ {p : PromiseId} {out : Outcome P.Value P.Error} {rs : List (Registration P)},
      w'.queue = w.queue.deliver w.clock p out rs → out.ConfinedTo S →
      (∀ r ∈ rs, r.ConfinedTo S exempt p) →
      ∀ t ∈ w'.queue.waiting, late t.turn ∨ t.body.ConfinedTo S exempt := by
    intro p out rs queue hout hrs t ht
    rw [queue] at ht
    rcases Queue.mem_deliver ht with ht | hbody
    · exact hw.tasks t ht
    · rw [hbody]
      exact Or.inr ⟨hout, fun r hr => hrs r (List.mem_filter.mp hr).1⟩
  cases h with
  | still _ queue | make _ _ queue | enlist _ _ queue =>
    rw [queue]
    exact hw.tasks
  | schedule _ _ queue =>
    intro t ht
    rw [queue] at ht
    rcases Queue.mem_insertTask.mp ht with rfl | ht
    · exact leaves
    · exact hw.tasks t ht
  | @settle p segment? _ waiting s before _ queue =>
    refine sent queue ?_ ?_
    · rintro t ht
      cases s with
      | fulfilled v => cases ht
      | failed e cause? =>
        cases ht
        exact S.traced e segment? cause? leaves
    · have hwaiting := hw.waiting p
      rwa [waitingFor_of_eq_some before] at hwaiting
  | @inform p segment? observed s ob before _ queue =>
    refine sent queue (hw.outcome (outcome?_view_of_settled before)) fun r hr => ?_
    obtain rfl := List.mem_singleton.mp hr
    have hob : exempt p (w.observed p) ∨ ob.ConfinedTo S := leaves
    rwa [observed_of_eq_some before] at hob

/-- The loops after an operation are those before it and one that it opens. -/
lemma Fills.loops {ρ : Type} {o : Op P ρ} {r : ρ} (h : Fills w w' o r)
    (leaves : o.Leaves S exempt late w) (hw : w.ConfinedTo S exempt late) (i : Nat) (t : Retry P)
    (ht : w'.retries[i]? = some t) :
    (∀ n, (t.thunk n).ConfinedTo S) ∧ ∀ trace, S.trace trace → (t.onError trace).ConfinedTo S := by
  cases h with
  | still same => exact hw.loops i t (same.retries ▸ ht)
  | openGathering _ _ retries | gather _ _ _ retries | openPairing _ _ retries
  | couple _ _ retries => exact hw.loops i t (retries ▸ ht)
  | openRetry _ _ retries =>
    rw [retries, Array.getElem?_push] at ht
    split at ht
    · cases ht
      exact leaves
    · exact hw.loops i t ht
  | countAttempt _ _ retries =>
    rw [retries, Array.getElem?_modify] at ht
    split at ht
    · obtain ⟨t₀, ht₀, rfl⟩ := Option.map_eq_some_iff.mp ht
      exact hw.loops i t₀ ht₀
    · exact hw.loops i t ht

/-- A world stays confined under an operation that leaves nothing else behind. -/
lemma ConfinedTo.perform {ρ : Type} {o : Op P ρ} {r : ρ} (hw : w.ConfinedTo S exempt late)
    (leaves : o.Leaves S exempt late w) (h : w.perform o = .answer r w') :
    w'.ConfinedTo S exempt late :=
  have effect := (effect_of_perform h).2
  ⟨effect.traces leaves hw, effect.waiting leaves hw, effect.tasks leaves hw,
    (fills_of_perform h).loops leaves hw⟩

/-- In a confined world nothing outside the scope is told, if the names given out belong to it. -/
lemma ConfinedTo.tells {ρ : Type} {o : Op P ρ} {r : ρ} (hw : w.ConfinedTo S exempt late)
    (announces : Announces S w w') (h : w.perform o = .answer r w') : o.Tells S r := by
  cases o with
  | view p =>
    cases h
    exact hw.traces p
  | openGathering n =>
    cases h
    exact announces.gatherings _ (Nat.le_refl _) (by simp)
  | openPairing =>
    cases h
    exact announces.pairings _ (Nat.le_refl _) (by simp)
  | openRetry result interval thunk onError =>
    cases h
    exact announces.retries _ (Nat.le_refl _) (by simp)
  | create | createUnder | settle | observe | schedule | now | pending | settings | gather | couple
  | countAttempt | emit | note | load | save => trivial

end World

/-! ## Confined machines -/

namespace Machine

variable {m m' : Machine P}

lemma confinedTo_ofWork {work : Work P} (h : work.ConfinedTo S exempt) :
    (Activity.ofWork work).ConfinedTo S exempt := by
  cases work <;> exact h

/-- **What is confined stays confined.**  In a step of a confined activity in a confined world
whatever is new is confined, unless an exempt observer is called or an exempt task is started. -/
theorem Step.confined {w : World P} {x : Activity P} {rest : List (Activity P)}
    (h : Step ⟨w, x :: rest⟩ m') (hw : w.ConfinedTo S exempt late) (hx : x.ConfinedTo S exempt)
    (announces : World.Announces S w m'.world) :
    m'.world.ConfinedTo S exempt late ∧
      ((∃ new, m'.stack = new ++ rest ∧ ∀ y ∈ new, y.ConfinedTo S exempt) ∨
        (∃ p o r rs body, x = .delivery p o (r :: rs) ∧ exempt p r.number ∧
          r.observer.handler? o = some body ∧
          m'.stack = .script body :: .delivery p o rs :: rest ∧
          (Activity.delivery p o rs).ConfinedTo S exempt) ∨
        ∃ t hor ran k, x = .drive hor ran k ∧ Starts ⟨w, x :: rest⟩ t ∧ late t.turn ∧
          m'.stack = .ofWork t.body :: .drive hor (ran + 1) k :: rest) := by
  cases h with
  | finish | delivered => exact ⟨hw, Or.inl ⟨[], rfl, by simp⟩⟩
  | @operate _ w' _ o k r _ performed =>
    cases hx with
    | op permitted carried thunks hrest =>
      have hk : (Activity.script (k r)).ConfinedTo S exempt :=
        hrest r (hw.tells announces performed)
      have leaves : o.Leaves S exempt late w := World.leaves_of_permitted w permitted carried thunks
      exact ⟨hw.perform leaves performed, Or.inl ⟨[.script (k r)], rfl, by simpa using hk⟩⟩
  | @drive _ d hor k =>
    cases hx with
    | drive _ hrest =>
      have hdrive : (Activity.drive hor 0 k).ConfinedTo S exempt := hrest
      exact ⟨hw, Or.inl ⟨[.drive hor 0 k], rfl, by simpa using hdrive⟩⟩
  | @attempt _ r k =>
    cases hx with
    | attempt permitted hrest =>
      have hnext : (Activity.script (w.nextAttempt r)).ConfinedTo S exempt :=
        hw.nextAttempt permitted
      have hk : (Activity.script k).ConfinedTo S exempt := hrest
      exact ⟨hw, Or.inl ⟨[.script (w.nextAttempt r), .script k], rfl,
        by simpa using ⟨hnext, hk⟩⟩⟩
  | @call _ p o r rs body _ handler =>
    obtain ⟨ho, hrs⟩ := hx
    have hdelivery : (Activity.delivery p o rs).ConfinedTo S exempt :=
      ⟨ho, fun r' hr' => hrs r' (.tail _ hr')⟩
    refine ⟨hw, ?_⟩
    rcases hrs r (.head rs) with hexempt | hr
    · exact Or.inr (Or.inl ⟨p, o, r, rs, body, rfl, hexempt, handler, rfl, hdelivery⟩)
    · have hbody : (Activity.script body).ConfinedTo S exempt := hr o body handler ho
      exact Or.inl ⟨[.script body, .delivery p o rs], rfl, by simpa using ⟨hbody, hdelivery⟩⟩
  | @leaveOut _ p o r rs =>
    obtain ⟨ho, hrs⟩ := hx
    have hdelivery : (Activity.delivery p o rs).ConfinedTo S exempt :=
      ⟨ho, fun r' hr' => hrs r' (.tail _ hr')⟩
    exact ⟨hw, Or.inl ⟨[.delivery p o rs], rfl, by simpa using hdelivery⟩⟩
  | @start _ hor ran k t q _ taken =>
    have hwaiting := (Queue.next?_eq_some_iff.mp taken).1
    have hw' : World.ConfinedTo S exempt late { w with queue := q, clock := w.clock.later t.due } :=
      ⟨hw.traces, hw.waiting, fun u hu => hw.tasks u (hwaiting ▸ .tail t hu), hw.loops⟩
    refine ⟨hw', ?_⟩
    rcases hw.tasks t (hwaiting ▸ .head _) with hlate | ht
    · exact Or.inr (Or.inr ⟨t, hor, ran, k, rfl, ⟨_, _, _, _, _, rfl, taken⟩, hlate, rfl⟩)
    · have hwork := confinedTo_ofWork ht
      exact Or.inl ⟨[.ofWork t.body, .drive hor (ran + 1) k], rfl, by simpa using ⟨hwork, hx⟩⟩
  | @driven _ hor ran k =>
    have hw' : (w.finishDrive hor).ConfinedTo S exempt late :=
      ⟨hw.traces, hw.waiting, hw.tasks, hw.loops⟩
    have hk : (Activity.script (k ran)).ConfinedTo S exempt := hx ran
    exact ⟨hw', Or.inl ⟨[.script (k ran)], rfl, by simpa using hk⟩⟩

/-- Everything in a machine is confined. -/
structure ConfinedTo (S : Scope P) (m : Machine P) : Prop where
  world : m.world.ConfinedTo S (fun _ _ => False) fun _ => False
  stack : ∀ x ∈ m.stack, x.ConfinedTo S fun _ _ => False

lemma Step.confinedTo (h : m.Step m') (hm : m.ConfinedTo S)
    (announces : World.Announces S m.world m'.world) : m'.ConfinedTo S := by
  obtain ⟨w, stack⟩ := m
  cases stack with
  | nil => cases h
  | cons x rest =>
    obtain ⟨hworld, ⟨new, hnew, hconfined⟩ | ⟨_, _, _, _, _, -, hfalse, -⟩ |
      ⟨_, _, _, _, -, -, hfalse, -⟩⟩ := h.confined hm.world (hm.stack x (.head rest)) announces
    · refine ⟨hworld, fun y hy => ?_⟩
      rw [hnew] at hy
      rcases List.mem_append.mp hy with hy | hy
      · exact hconfined y hy
      · exact hm.stack y (.tail x hy)
    · exact hfalse.elim
    · exact hfalse.elim

end Machine

end Eventual
