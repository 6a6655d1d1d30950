import Eventual.Combinator.Join
import Eventual.Combinator.Retry
import Mathlib.Data.List.Forall2
import Mathlib.Tactic.Common

/-!
# Scripts that cannot tell two runs apart

Two runs differ in the stacks under which promises are made.  So what a script is told in one of
them and in the other one is alike only: traces and views may differ in their stacks.  Two scripts
are alike if they do the same as long as what they are told is alike (`Script.Alike`); a script
that is alike to itself does not depend on stacks.  Whatever the library offers makes scripts that
are alike out of callbacks that are alike.
-/

namespace Eventual

/-! ## What is told -/

section

variable {V E : Type}

/-- The same error, under stacks that are alike. -/
structure Link.Alike (S : Option Segment → Option Segment → Prop) (l l' : Link E) : Prop where
  error_eq : l.error = l'.error
  segment : S l.segment? l'.segment?

/-- Links that are alike, one by one. -/
structure Trace.Alike (S : Option Segment → Option Segment → Prop) (t t' : Trace E) : Prop where
  head : t.head.Alike S t'.head
  earlier : List.Forall₂ (Link.Alike S) t.earlier t'.earlier

/-- The same value, or the same error because of failures that are alike. -/
inductive Settlement.Alike (S : Option Segment → Option Segment → Prop) :
    Settlement V E → Settlement V E → Prop
  | fulfilled (v : V) : Alike S (.fulfilled v) (.fulfilled v)
  | failed (e : E) {cause? cause?' : Option (Trace E)}
      (cause : Option.Rel (Trace.Alike S) cause? cause?') :
      Alike S (.failed e cause?) (.failed e cause?')

/-- The same value, or traces that are alike. -/
inductive Outcome.Alike (S : Option Segment → Option Segment → Prop) :
    Outcome V E → Outcome V E → Prop
  | succeeded (v : V) : Alike S (.succeeded v) (.succeeded v)
  | failed {t t' : Trace E} (trace : t.Alike S t') : Alike S (.failed t) (.failed t')

/-- Of promises that are not settled any stacks can be read; of settled ones, stacks and settlements
that are alike. -/
inductive View.Alike (S : Option Segment → Option Segment → Prop) : View V E → View V E → Prop
  | unsettled (segment? segment?' : Option Segment) : Alike S ⟨segment?, none⟩ ⟨segment?', none⟩
  | settled {segment? segment?' : Option Segment} {s s' : Settlement V E}
      (segment : S segment? segment?') (settlement : s.Alike S s') :
      Alike S ⟨segment?, some s⟩ ⟨segment?', some s'⟩

variable {S : Option Segment → Option Segment → Prop}

lemma Link.map_error_eq {l l' : List (Link E)} (h : List.Forall₂ (Link.Alike S) l l') :
    l.map error = l'.map error := by
  induction h with
  | nil => rfl
  | cons hl _ ih => rw [List.map_cons, List.map_cons, hl.error_eq, ih]

namespace Trace

variable {t t' : Trace E}

lemma Alike.error_eq (h : t.Alike S t') : t.error = t'.error := h.head.error_eq

lemma Alike.links (h : t.Alike S t') : List.Forall₂ (Link.Alike S) t.links t'.links :=
  List.rel_reverse (.cons h.head h.earlier)

lemma Alike.depth_eq (h : t.Alike S t') : t.depth = t'.depth := by
  rw [depth, depth, h.earlier.length_eq]

lemma Alike.ofFailure {e : E} {segment? segment?' : Option Segment} {c c' : Option (Trace E)}
    (hs : S segment? segment?') (hc : Option.Rel (Alike S) c c') :
    (ofFailure e segment? c).Alike S (.ofFailure e segment?' c') := by
  cases hc with
  | none => exact ⟨⟨rfl, hs⟩, .nil⟩
  | some h => exact ⟨⟨rfl, hs⟩, .cons h.head h.earlier⟩

end Trace

lemma Settlement.Alike.outcome {s s' : Settlement V E} {segment? segment?' : Option Segment}
    (hs : S segment? segment?') (h : s.Alike S s') :
    (s.outcome segment?).Alike S (s'.outcome segment?') := by
  cases h with
  | fulfilled v => exact .succeeded v
  | failed e cause => exact .failed (.ofFailure hs cause)

namespace View

variable {v v' : View V E}

lemma Alike.state_eq (h : v.Alike S v') : v.state = v'.state := by
  cases h with
  | unsettled => rfl
  | settled _ settlement => cases settlement <;> rfl

lemma Alike.isSettled_eq (h : v.Alike S v') : v.isSettled = v'.isSettled := by
  rw [isSettled, isSettled, h.state_eq]

lemma Alike.result?_eq (h : v.Alike S v') : v.result? = v'.result? := by
  cases h with
  | unsettled => rfl
  | settled _ settlement => cases settlement <;> rfl

lemma Alike.trace? (h : v.Alike S v') : Option.Rel (Trace.Alike S) v.trace? v'.trace? := by
  cases h with
  | unsettled => exact .none
  | settled segment settlement =>
    cases settlement with
    | fulfilled => exact .none
    | failed e cause => exact .some (.ofFailure segment cause)

end View

/-! If a stack is alike to itself, so is whatever is told. -/

lemma Trace.Alike.refl (hS : ∀ s, S s s) (t : Trace E) : t.Alike S t where
  head := ⟨rfl, hS _⟩
  earlier := List.forall₂_same.mpr fun _ _ => ⟨rfl, hS _⟩

lemma Settlement.Alike.refl (hS : ∀ s, S s s) (s : Settlement V E) : s.Alike S s := by
  cases s with
  | fulfilled v => exact .fulfilled v
  | failed e cause? =>
    cases cause? with
    | none => exact .failed e .none
    | some t => exact .failed e (.some (.refl hS t))

lemma Outcome.Alike.refl (hS : ∀ s, S s s) (o : Outcome V E) : o.Alike S o := by
  cases o with
  | succeeded v => exact .succeeded v
  | failed t => exact .failed (.refl hS t)

lemma View.Alike.refl (hS : ∀ s, S s s) (v : View V E) : v.Alike S v := by
  obtain ⟨segment?, _ | s⟩ := v
  · exact .unsettled _ _
  · exact .settled (hS _) (.refl hS s)

/-! What is alike stays so if more stacks are alike. -/

lemma optionRel_imp {α : Type} {R R' : α → α → Prop} {a a' : Option α} (h : Option.Rel R a a')
    (hR : ∀ b b', R b b' → R' b b') : Option.Rel R' a a' := by
  cases h with
  | none => exact .none
  | some h => exact .some (hR _ _ h)

variable {S' : Option Segment → Option Segment → Prop}

lemma Link.Alike.imp {l l' : Link E} (h : l.Alike S l') (hS : ∀ s s', S s s' → S' s s') :
    l.Alike S' l' :=
  ⟨h.error_eq, hS _ _ h.segment⟩

lemma Trace.Alike.imp {t t' : Trace E} (h : t.Alike S t') (hS : ∀ s s', S s s' → S' s s') :
    t.Alike S' t' :=
  ⟨h.head.imp hS, h.earlier.imp fun _ _ hl => hl.imp hS⟩

lemma Settlement.Alike.imp {s s' : Settlement V E} (h : s.Alike S s')
    (hS : ∀ s s', S s s' → S' s s') : s.Alike S' s' := by
  cases h with
  | fulfilled v => exact .fulfilled v
  | failed e cause => exact .failed e (optionRel_imp cause fun _ _ ht => ht.imp hS)

lemma Outcome.Alike.imp {o o' : Outcome V E} (h : o.Alike S o') (hS : ∀ s s', S s s' → S' s s') :
    o.Alike S' o' := by
  cases h with
  | succeeded v => exact .succeeded v
  | failed trace => exact .failed (trace.imp hS)

end

/-! ## Scripts that are alike -/

variable {P : Payload}

/-- What may differ between two runs, and what scripts may do. -/
structure Likeness (P : Payload) where
  /-- The stacks of two promises are alike. -/
  segment : Option Segment → Option Segment → Prop
  /-- Two notes are alike. -/
  note : P.Note → P.Note → Prop
  /-- What is remembered in the two runs is alike. -/
  store : P.Store → P.Store → Prop
  /-- Retry loops may be used. -/
  loops : Prop

/-- Two operations that hand nothing over do the same. -/
def Op.Alike (L : Likeness P) : {ρ : Type} → Op P ρ → Op P ρ → Prop
  | _, observe _ _, _ | _, schedule _ _, _ | _, openRetry _ _ _ _, _ => False
  | _, createUnder s, o' => o' = .createUnder s ∧ L.segment (some s) (some s)
  | _, settle p s, o' => ∃ s', o' = .settle p s' ∧ s.Alike L.segment s'
  | _, note n, o' => ∃ n', o' = .note n' ∧ L.note n n'
  | _, save x, o' => ∃ x', o' = .save x' ∧ L.store x x'
  | _, o, o' => o' = o

/-- Two answers to an operation are alike. -/
def Op.Answers (L : Likeness P) : {ρ : Type} → Op P ρ → ρ → ρ → Prop
  | _, view _, v, v' => v.Alike L.segment v'
  | _, settings, s, s' => s.maxFrames = s'.maxFrames
  | _, load, x, x' => L.store x x'
  | _, _, r, r' => r = r'

/-- Two scripts do the same, and give answers that are related, as long as they are told what is
alike. -/
inductive Script.Alike (L : Likeness P) :
    {α : Type} → (α → α → Prop) → Script P α → Script P α → Prop
  /-- Nothing is done. -/
  | pure {α : Type} {R : α → α → Prop} {a a' : α} (answer : R a a') : Alike L R (.pure a) (.pure a')
  /-- An operation is carried out that hands nothing over. -/
  | op {ρ α : Type} {R : α → α → Prop} {o o' : Op P ρ} {k k' : ρ → Script P α}
      (alike : o.Alike L o') (rest : ∀ r r', o.Answers L r r' → Alike L R (k r) (k' r')) :
      Alike L R (.op o k) (.op o' k')
  /-- An observer is registered. -/
  | observe {α : Type} {R : α → α → Prop} (p : PromiseId) {ob ob' : Observer P}
      {k k' : Unit → Script P α}
      (awaits : ∀ o o', o.Alike L.segment o' → ob.awaits o = ob'.awaits o')
      (callbacks : ∀ o o' body body', o.Alike L.segment o' → ob.handler? o = some body →
        ob'.handler? o' = some body' → Alike L Eq body body')
      (rest : Alike L R (k ()) (k' ())) :
      Alike L R (.op (.observe p ob) k) (.op (.observe p ob') k')
  /-- A task is scheduled. -/
  | schedule {α : Type} {R : α → α → Prop} (delay : Duration) {body body' : Script P Unit}
      {k k' : Unit → Script P α} (task : Alike L Eq body body') (rest : Alike L R (k ()) (k' ())) :
      Alike L R (.op (.schedule delay body) k) (.op (.schedule delay body') k')
  /-- A retry loop is opened. -/
  | openRetry {α : Type} {R : α → α → Prop} (result : PromiseId) (interval : Duration)
      {thunk thunk' : Nat → Script P PromiseId} {onError onError' : Trace P.Error → Script P Unit}
      {k k' : RetryId → Script P α} (thunks : ∀ n, Alike L Eq (thunk n) (thunk' n))
      (callbacks : ∀ t t', t.Alike L.segment t' → Alike L Eq (onError t) (onError' t'))
      (rest : ∀ r, Alike L R (k r) (k' r)) :
      Alike L R (.op (.openRetry result interval thunk onError) k)
        (.op (.openRetry result interval thunk' onError') k')
  /-- The clock is driven. -/
  | drive {α : Type} {R : α → α → Prop} (d : Drive) {k k' : Nat → Script P α}
      (rest : ∀ n, Alike L R (k n) (k' n)) : Alike L R (.drive d k) (.drive d k')
  /-- An attempt of a retry loop is made. -/
  | attempt {α : Type} {R : α → α → Prop} (r : RetryId) {k k' : Script P α} (loops : L.loops)
      (rest : Alike L R k k') : Alike L R (.attempt r k) (.attempt r k')

/-- Two observers wait for the same, with callbacks that are alike. -/
structure Observer.Alike (L : Likeness P) (ob ob' : Observer P) : Prop where
  awaits : ∀ o o', o.Alike L.segment o' → ob.awaits o = ob'.awaits o'
  callbacks : ∀ o o' body body', o.Alike L.segment o' → ob.handler? o = some body →
    ob'.handler? o' = some body' → body.Alike L Eq body'

variable {L : Likeness P} {α β : Type} {Q : α → α → Prop} {R : β → β → Prop}

lemma Observer.Alike.onEither {f f' : P.Value → Script P Unit}
    {g g' : Trace P.Error → Script P Unit} (hf : ∀ v, (f v).Alike L Eq (f' v))
    (hg : ∀ t t', t.Alike L.segment t' → (g t).Alike L Eq (g' t')) :
    (Observer.onEither f g).Alike L (.onEither f' g') where
  awaits o o' h := by cases h <;> rfl
  callbacks o o' body body' h hbody hbody' := by
    cases h with
    | succeeded v =>
      cases hbody
      cases hbody'
      exact hf v
    | failed trace =>
      cases hbody
      cases hbody'
      exact hg _ _ trace

lemma Observer.Alike.onSuccess {f f' : P.Value → Script P Unit}
    (hf : ∀ v, (f v).Alike L Eq (f' v)) : (Observer.onSuccess f).Alike L (.onSuccess f') where
  awaits o o' h := by cases h <;> rfl
  callbacks o o' body body' h hbody hbody' := by
    cases h with
    | succeeded v =>
      cases hbody
      cases hbody'
      exact hf v
    | failed trace => cases hbody

lemma Observer.Alike.onFailure {g g' : Trace P.Error → Script P Unit}
    (hg : ∀ t t', t.Alike L.segment t' → (g t).Alike L Eq (g' t')) :
    (Observer.onFailure g).Alike L (.onFailure g') where
  awaits o o' h := by cases h <;> rfl
  callbacks o o' body body' h hbody hbody' := by
    cases h with
    | succeeded v => cases hbody
    | failed trace =>
      cases hbody
      cases hbody'
      exact hg _ _ trace

namespace Script

/-! ## Sequencing -/

/-- **One after the other, scripts that are alike are alike.** -/
theorem Alike.bind {s s' : Script P α} {f f' : α → Script P β} (hs : s.Alike L Q s')
    (hf : ∀ a a', Q a a' → (f a).Alike L R (f' a')) : (s.bind f).Alike L R (s'.bind f') := by
  induction hs with
  | pure answer => exact hf _ _ answer
  | op alike _ ih => exact .op alike fun r r' hr => ih r r' hr hf
  | observe p awaits callbacks _ _ ih => exact .observe p awaits callbacks (ih hf)
  | schedule delay task _ _ ih => exact .schedule delay task (ih hf)
  | openRetry result interval thunks callbacks _ _ _ ih =>
    exact .openRetry result interval thunks callbacks fun r => ih r hf
  | drive d _ ih => exact .drive d fun n => ih n hf
  | attempt r loops _ ih => exact .attempt r loops (ih hf)

/-- What follows on equal answers. -/
lemma Alike.then {s s' : Script P α} {f f' : α → Script P β} (hs : s.Alike L Eq s')
    (hf : ∀ a, (f a).Alike L R (f' a)) : (s.bind f).Alike L R (s'.bind f') :=
  hs.bind fun a _ h => h ▸ hf a

lemma alike_once (o o' : Op P α) (h : o.Alike L o') (hr : ∀ r r', o.Answers L r r' → Q r r') :
    (once o).Alike L Q (once o') :=
  .op h fun r r' h => .pure (hr r r' h)

/-! ## What the library offers -/

lemma alike_create : (create : Script P PromiseId).Alike L Eq create :=
  alike_once .create .create rfl fun _ _ h => h

lemma alike_createUnder {s : Segment} (h : L.segment (some s) (some s)) :
    (createUnder s : Script P PromiseId).Alike L Eq (createUnder s) :=
  alike_once (.createUnder s) (.createUnder s) ⟨rfl, h⟩ fun _ _ h => h

lemma alike_settle (p : PromiseId) {s s' : Settlement P.Value P.Error} (h : s.Alike L.segment s') :
    (once (.settle p s)).Alike L Eq (once (.settle p s')) :=
  alike_once (.settle p s) (.settle p s') ⟨s', rfl, h⟩ fun _ _ h => h

lemma alike_fulfill (p : PromiseId) (v : P.Value) : (fulfill p v).Alike L Eq (fulfill p v) :=
  alike_settle p (.fulfilled v)

lemma alike_fail (p : PromiseId) (e : P.Error) : (fail p e).Alike L Eq (fail p e) :=
  alike_settle p (.failed e .none)

lemma alike_failBecause (p : PromiseId) (e : P.Error) {t t' : Trace P.Error}
    (h : t.Alike L.segment t') : (failBecause p e t).Alike L Eq (failBecause p e t') :=
  alike_settle p (.failed e (.some h))

lemma alike_observe (p : PromiseId) {ob ob' : Observer P} (h : ob.Alike L ob') :
    (observe p ob).Alike L Eq (observe p ob') :=
  .observe p h.awaits h.callbacks (.pure rfl)

lemma alike_view (p : PromiseId) :
    (view p : Script P _).Alike L (View.Alike L.segment) (view p) :=
  alike_once (.view p) (.view p) rfl fun _ _ h => h

lemma alike_schedule (delay : Duration) {body body' : Script P Unit} (h : body.Alike L Eq body') :
    (schedule delay body).Alike L Eq (schedule delay body') :=
  .schedule delay h (.pure rfl)

lemma alike_now : (now : Script P Duration).Alike L Eq now :=
  alike_once .now .now rfl fun _ _ h => h

lemma alike_pending : (pending : Script P Nat).Alike L Eq pending :=
  alike_once .pending .pending rfl fun _ _ h => h

lemma alike_emit (e : Event) : (emit e : Script P Unit).Alike L Eq (emit e) :=
  alike_once (.emit e) (.emit e) rfl fun _ _ h => h

lemma alike_note {n n' : P.Note} (h : L.note n n') :
    (note n : Script P Unit).Alike L Eq (note n') :=
  alike_once (.note n) (.note n') ⟨n', rfl, h⟩ fun _ _ h => h

lemma alike_load : (load : Script P P.Store).Alike L L.store load :=
  alike_once .load .load rfl fun _ _ h => h

lemma alike_save {x x' : P.Store} (h : L.store x x') :
    (save x : Script P Unit).Alike L Eq (save x') :=
  alike_once (.save x) (.save x') ⟨x', rfl, h⟩ fun _ _ h => h

lemma Alike.discard {s s' : Script P α} (h : s.Alike L Q s') :
    (discard s).Alike L Eq (discard s') :=
  h.bind fun _ _ _ => .pure rfl

lemma alike_later (delay : Duration) {body body' : Script P Unit} (h : body.Alike L Eq body') :
    (later delay body).Alike L Eq (later delay body') :=
  (alike_emit _).then fun _ => alike_schedule delay h

lemma alike_settleWith (p : PromiseId) (r : Except P.Error P.Value) :
    (settleWith p r).Alike L Eq (settleWith p r) := by
  cases r with
  | ok v => exact (alike_fulfill p v).discard
  | error e => exact (alike_fail p e).discard

lemma alike_passValue (target : PromiseId) (v : P.Value) :
    (passValue target v).Alike L Eq (passValue target v) :=
  (alike_fulfill target v).discard

lemma alike_passFailure (target : PromiseId) {t t' : Trace P.Error} (h : t.Alike L.segment t') :
    (passFailure target t).Alike L Eq (passFailure target t') := by
  rw [passFailure, passFailure, h.error_eq]
  exact (alike_failBecause target t'.error h).discard

/-- What an observer does that passes failures on. -/
lemma alike_passing {target : PromiseId} {f f' : P.Value → Script P Unit}
    (hf : ∀ v, (f v).Alike L Eq (f' v)) :
    (Observer.onEither f (passFailure target)).Alike L (.onEither f' (passFailure target)) :=
  .onEither hf fun _ _ => alike_passFailure target

lemma alike_forward (source target : PromiseId) :
    (forward source target : Script P Unit).Alike L Eq (forward source target) :=
  alike_observe source (alike_passing (alike_passValue target))

lemma alike_forwardValue (source target : PromiseId) :
    (forwardValue source target : Script P Unit).Alike L Eq (forwardValue source target) :=
  alike_observe source (.onSuccess (alike_passValue target))

lemma alike_forwardFailure (source target : PromiseId) :
    (forwardFailure source target : Script P Unit).Alike L Eq (forwardFailure source target) :=
  alike_observe source (.onFailure fun _ _ => alike_passFailure target)

/-- A promise is made, something is done for it, and it is the answer. -/
lemma alike_result {f f' : PromiseId → Script P Unit} (hf : ∀ p, (f p).Alike L Eq (f' p)) :
    (create.bind fun p => (f p).bind fun _ => pure p).Alike L Eq
      (create.bind fun p => (f' p).bind fun _ => pure p) :=
  alike_create.then fun p => (hf p).then fun _ => .pure rfl

lemma alike_ofValue (v : P.Value) : (ofValue v).Alike L Eq (ofValue v) :=
  alike_result fun p => (alike_fulfill p v).discard

lemma alike_ofError (e : P.Error) : (ofError e).Alike L Eq (ofError e) :=
  alike_result fun p => (alike_fail p e).discard

lemma alike_fulfillAfter (v : P.Value) (delay : Duration) :
    (fulfillAfter v delay).Alike L Eq (fulfillAfter v delay) :=
  alike_result fun p => alike_later delay (alike_fulfill p v).discard

lemma alike_failAfter (e : P.Error) (delay : Duration) :
    (failAfter e delay).Alike L Eq (failAfter e delay) :=
  alike_result fun p => alike_later delay (alike_fail p e).discard

lemma alike_defer (delay : Duration) {thunk thunk' : Script P (Except P.Error P.Value)}
    (h : thunk.Alike L Eq thunk') : (defer delay thunk).Alike L Eq (defer delay thunk') :=
  alike_result fun p => alike_later delay (h.then (alike_settleWith p))

lemma alike_deferLazily {thunk thunk' : Script P PromiseId} (h : thunk.Alike L Eq thunk') :
    (deferLazily thunk).Alike L Eq (deferLazily thunk') :=
  alike_result fun p => alike_later .zero (h.then fun q => alike_forward q p)

lemma alike_andThen (source : PromiseId) {f f' : P.Value → Script P (Except P.Error P.Value)}
    (hf : ∀ v, (f v).Alike L Eq (f' v)) : (andThen source f).Alike L Eq (andThen source f') :=
  alike_result fun p =>
    alike_observe source (alike_passing fun v => (hf v).then (alike_settleWith p))

lemma alike_andThenLazily (source : PromiseId) {f f' : P.Value → Script P PromiseId}
    (hf : ∀ v, (f v).Alike L Eq (f' v)) :
    (andThenLazily source f).Alike L Eq (andThenLazily source f') :=
  alike_result fun p =>
    alike_observe source (alike_passing fun v => (hf v).then fun q => alike_forward q p)

lemma alike_fromCallback {operation operation' : Callback → Script P (Except P.Error Unit)}
    (h : ∀ c, (operation c).Alike L Eq (operation' c)) :
    (fromCallback operation).Alike L Eq (fromCallback operation') := by
  refine alike_create.then fun p => (h ⟨p⟩).then fun r => ?_
  cases r with
  | ok => exact .pure rfl
  | error e => exact (alike_fail p e).discard.then fun _ => .pure rfl

lemma alike_forwardEach (target : PromiseId) (inputs : List PromiseId) :
    (forwardEach target inputs : Script P Unit).Alike L Eq (forwardEach target inputs) := by
  induction inputs with
  | nil => exact .pure rfl
  | cons p ps ih => exact (alike_forward p target).then fun _ => ih

lemma alike_select (inputs : List PromiseId) :
    (select inputs : Script P PromiseId).Alike L Eq (select inputs) :=
  alike_result fun p => alike_forwardEach p inputs

lemma alike_withTimeout (input : PromiseId) (limit : Duration) :
    (withTimeout input limit : Script P PromiseId).Alike L Eq (withTimeout input limit) :=
  (alike_failAfter (P.timeout limit) limit).then fun trigger => alike_select [input, trigger]

lemma alike_fulfillSince (result : PromiseId) (start : Duration) :
    (fulfillSince result start : Script P Unit).Alike L Eq (fulfillSince result start) :=
  alike_now.then fun clock => (alike_fulfill result (P.span (clock.monus start))).discard

lemma alike_elapsed (input : PromiseId) :
    (elapsed input : Script P PromiseId).Alike L Eq (elapsed input) :=
  alike_create.then fun result => alike_now.then fun start =>
    (alike_observe input (.onEither (fun _ => alike_fulfillSince result start) fun _ _ _ =>
      alike_fulfillSince result start)).then fun _ => .pure rfl

lemma alike_gatherInto (result : PromiseId) (g : GatheringId) (i : Nat) (v : P.Value) :
    (gatherInto result g i v).Alike L Eq (gatherInto result g i v) := by
  refine (alike_once (.gather g i v) (.gather g i v) rfl fun _ _ h => h).then fun complete => ?_
  cases complete with
  | none => exact .pure rfl
  | some vs => exact alike_passValue result (P.list vs)

lemma alike_gatherEach (result : PromiseId) (g : GatheringId) (i : Nat) (inputs : List PromiseId) :
    (gatherEach result g i inputs : Script P Unit).Alike L Eq (gatherEach result g i inputs) := by
  induction inputs generalizing i with
  | nil => exact .pure rfl
  | cons p ps ih =>
    exact (alike_observe p (alike_passing (alike_gatherInto result g i))).then fun _ => ih (i + 1)

lemma alike_join (inputs : List PromiseId) :
    (join inputs : Script P PromiseId).Alike L Eq (join inputs) := by
  refine alike_create.then fun result => ?_
  -- a join of nothing is settled at once
  cases inputs with
  | nil => exact (alike_fulfill result (P.list [])).discard.then fun _ => .pure rfl
  | cons p ps =>
    have hopen (n : Nat) : (once (.openGathering n) : Script P _).Alike L Eq
        (once (.openGathering n)) :=
      alike_once (.openGathering n) (.openGathering n) rfl fun _ _ h => h
    have hgather : (Script.bind (once (.openGathering (p :: ps).length)) fun g =>
        (gatherEach result g 0 (p :: ps)).bind fun _ => .pure result : Script P _).Alike L Eq _ :=
      (hopen _).then fun g => (alike_gatherEach result g 0 (p :: ps)).then fun _ => .pure rfl
    exact hgather

lemma alike_coupleInto (result : PromiseId) (g : PairingId) (side : Side) (v : P.Value) :
    (coupleInto result g side v).Alike L Eq (coupleInto result g side v) := by
  refine (alike_once (.couple g side v) (.couple g side v) rfl fun _ _ h => h).then
    fun complete => ?_
  cases complete with
  | none => exact .pure rfl
  | some vs => exact alike_passValue result (P.pair vs.1 vs.2)

lemma alike_joinPair (first second : PromiseId) :
    (joinPair first second : Script P PromiseId).Alike L Eq (joinPair first second) := by
  have hopen : (once .openPairing : Script P _).Alike L Eq (once .openPairing) :=
    alike_once .openPairing .openPairing rfl fun _ _ h => h
  refine alike_create.then fun result => hopen.then fun g => ?_
  exact (alike_observe first (alike_passing (alike_coupleInto result g .first))).then fun _ =>
    (alike_observe second (alike_passing (alike_coupleInto result g .second))).then fun _ =>
      .pure rfl

lemma alike_keepTrying (loops : L.loops) {thunk thunk' : Nat → Script P PromiseId}
    (interval : Duration) {onError onError' : Trace P.Error → Script P Unit}
    (hthunk : ∀ n, (thunk n).Alike L Eq (thunk' n))
    (honError : ∀ t t', t.Alike L.segment t' → (onError t).Alike L Eq (onError' t')) :
    (keepTrying thunk interval onError).Alike L Eq (keepTrying thunk' interval onError') :=
  alike_create.then fun result =>
    .openRetry result interval hthunk honError fun r => .attempt r loops (.pure rfl)

end Script

/-! ## Retry loops -/

/-- Two retry loops that are alike. -/
structure Retry.Alike (L : Likeness P) (t t' : Retry P) : Prop where
  result_eq : t.result = t'.result
  interval_eq : t.interval = t'.interval
  attempts_eq : t.attempts = t'.attempts
  thunk : ∀ n, (t.thunk n).Alike L Eq (t'.thunk n)
  onError : ∀ e e', e.Alike L.segment e' → (t.onError e).Alike L Eq (t'.onError e')

/-- Attempts of loops that are alike are alike. -/
lemma Retry.Alike.nextAttempt {t t' : Retry P} (h : t.Alike L t') (loops : L.loops) (r : RetryId) :
    (t.nextAttempt r).Alike L Eq (t'.nextAttempt r) := by
  obtain ⟨result, interval, thunk, onError, attempts⟩ := t
  obtain ⟨result', interval', thunk', onError', attempts'⟩ := t'
  obtain ⟨hresult, hinterval, hattempts, hthunk, honError⟩ := h
  dsimp only at hresult hinterval hattempts
  -- the loops differ in their scripts only
  subst hresult hinterval hattempts
  have hafter : ∀ e e', e.Alike L.segment e' →
      (Retry.afterFailure ⟨result, interval, thunk, onError, attempts⟩ r (attempts + 1) e).Alike L
        Eq (Retry.afterFailure ⟨result, interval, thunk', onError', attempts⟩ r (attempts + 1)
          e') :=
    fun e e' he => (Script.alike_emit _).then fun _ => (honError e e' he).then fun _ =>
      Script.alike_later interval (.attempt r loops (.pure rfl))
  refine (Script.alike_view result).bind fun v v' hv => ?_
  rw [hv.isSettled_eq]
  split
  · exact Script.alike_emit _
  · have hcount : (Script.once (.countAttempt r) : Script P Unit).Alike L Eq
        (Script.once (.countAttempt r)) :=
      Script.alike_once (.countAttempt r) (.countAttempt r) rfl fun _ _ h => h
    exact hcount.then fun _ => (hthunk attempts).then fun next =>
      Script.alike_observe next (.onEither (Script.alike_passValue result) hafter)

end Eventual
