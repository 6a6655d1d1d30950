import Eventual.Proofs.Likeness
import Eventual.Proofs.Run
import Eventual.Session.Run

/-!
# Steps of sessions depend on no stack

What a step does is the same in two runs in which what it is told is alike: no step looks at a
stack, except to note it, and no step looks at a text.  This is shown for all forms of steps at
once, by recursion along them; what is made on the spot, and which callbacks are registered, is
part of a step (`Step.Has`).
-/

namespace Eventual.Session

/-! ## Notes that are alike -/

/-- The same is seen, or traces that are alike. -/
inductive Seen.Alike (S : Option Segment → Option Segment → Prop) : Seen → Seen → Prop
  | same (seen : Seen) : Alike S seen seen
  | failure {t t' : Trace Failure} (trace : t.Alike S t') : Alike S (.failure t) (.failure t')

/-- The same answer, or any two texts, any two stacks, or traces that are alike. -/
inductive Reply.Alike (S : Option Segment → Option Segment → Prop) : Reply → Reply → Prop
  | same (r : Reply) : Alike S r r
  | text (s s' : String) : Alike S (.text s) (.text s')
  | trace {t? t?' : Option (Trace Failure)} (trace : Option.Rel (Trace.Alike S) t? t?') :
      Alike S (.trace t?) (.trace t?')
  | segment (s? s?' : Option Segment) : Alike S (.segment s?) (.segment s?')

/-- The same note of what is alike. -/
inductive Note.Alike (S : Option Segment → Option Segment → Prop) : Note → Note → Prop
  | called (tag : String) (at_ : Duration) {x x' : Seen} (seen : x.Alike S x') :
      Alike S (.called tag at_ x) (.called tag at_ x')
  | act {r r' : Reply} (reply : r.Alike S r') : Alike S (.act r) (.act r')
  | answered {r r' : Reply} (reply : r.Alike S r') : Alike S (.answered r) (.answered r')

/-- The likeness of sessions: they remember the same. -/
def likeness (S : Option Segment → Option Segment → Prop) (loops : Prop) : Likeness Play where
  segment := S
  note := Note.Alike S
  store := Eq
  loops := loops

/-- The same value was received, and traces that are alike. -/
structure Received.Alike (S : Option Segment → Option Segment → Prop) (c c' : Received) : Prop where
  value_eq : c.value = c'.value
  trace : Option.Rel (Trace.Alike S) c.trace? c'.trace?

/-! ## The parts of a step -/

/-- A recipe makes use of a given stack or of a retry loop only if it may. -/
def Recipe.Permitted (L : Likeness Play) : Recipe → Prop
  | promise _ (some s) => L.segment (some s) (some s)
  | keepTrying _ _ _ _ => L.loops
  | _ => True

mutual

/-- A promise is made on the spot according to a recipe, or when a callback runs. -/
def Source.Has : Source → Recipe → Prop
  | .named _, _ | .unknown _, _ => False
  | .made m, r => m.Has r
termination_by structural s => s

/-- One of several sources has a recipe. -/
def sourcesHave : List Source → Recipe → Prop
  | [], _ => False
  | s :: rest, r => s.Has r ∨ sourcesHave rest r
termination_by structural ss => ss

/-- A promise is made according to a recipe, or for it, or when a callback runs. -/
def Making.Has : Making → Recipe → Prop
  | .mk _ recipe, r => recipe.Has r
termination_by structural m => m

/-- A recipe is another one, or has it. -/
def Recipe.Has : Recipe → Recipe → Prop
  | .promise kind segment?, r => .promise kind segment? = r
  | .ofValue value, r => .ofValue value = r
  | .ofError error, r => .ofError error = r
  | .fulfillAfter value delay, r => .fulfillAfter value delay = r
  | .failAfter error delay, r => .failAfter error delay = r
  | .select inputs, r => .select inputs = r ∨ sourcesHave inputs r
  | .join inputs, r => .join inputs = r ∨ sourcesHave inputs r
  | .joinPair first second, r => .joinPair first second = r ∨ first.Has r ∨ second.Has r
  | .withTimeout input limit, r => .withTimeout input limit = r ∨ input.Has r
  | .elapsed input, r => .elapsed input = r ∨ input.Has r
  | .keepTrying attempts interval tag? onError, r =>
    .keepTrying attempts interval tag? onError = r ∨ sourcesHave attempts r ∨ onError.Has r
  | .defer delay callback f, r => .defer delay callback f = r ∨ callback.Has r
  | .deferLazily callback result, r =>
    .deferLazily callback result = r ∨ callback.Has r ∨ result.Has r
  | .fromCallback now? keep? error?, r => .fromCallback now? keep? error? = r
  | .andThen source callback f, r => .andThen source callback f = r ∨ source.Has r ∨ callback.Has r
  | .andThenLazily source callback result, r =>
    .andThenLazily source callback result = r ∨ source.Has r ∨ callback.Has r ∨ result.Has r
  | .andThenApply source callback f, r =>
    .andThenApply source callback f = r ∨ source.Has r ∨ callback.Has r
  | .chain source n, r => .chain source n = r ∨ source.Has r
termination_by structural recipe => recipe

/-- A step of a callback has a recipe. -/
def Callback.Has : Callback → Recipe → Prop
  | .mk _ acts, r => stepsHave acts r
termination_by structural callback => callback

/-- A callback, if there is one, has a recipe. -/
def callbackHas : Option Callback → Recipe → Prop
  | none, _ => False
  | some callback, r => callback.Has r
termination_by structural callback? => callback?

/-- One of several steps has a recipe. -/
def stepsHave : List Step → Recipe → Prop
  | [], _ => False
  | s :: rest, r => s.Has r ∨ stepsHave rest r
termination_by structural ss => ss

/-- The promise behind a cause has a recipe. -/
def Cause.Has : Cause → Recipe → Prop
  | .received, _ => False
  | .traceOf p, r => p.Has r
termination_by structural cause => cause

/-- A step makes a promise according to a recipe, or one of its callbacks does when it runs. -/
def Step.Has : Step → Recipe → Prop
  | .make m, r => m.Has r
  | .fulfill p _, r | .fail p _, r | .peek p, r | .state p, r | .trace p, r | .segment p, r
  | .debug p, r | .debugTrace p, r | .sameRuntime p, r => p.Has r
  | .failBecause p _ cause, r => p.Has r ∨ cause.Has r
  | .observe p onValue onError, r => p.Has r ∨ callbackHas onValue r ∨ callbackHas onError r
  | .forward _ source target, r => source.Has r ∨ target.Has r
  | .schedule _ callback, r => callback.Has r
  | .call _ _, _ | .debugRuntime, _ | .drop _, _ | .now, _ | .pending, _ | .drive _, _ | .sleep _, _
  | .unknown _, _ => False
termination_by structural s => s

end

/-! ## Scripts that may be refused -/

/-- Answers that are related, or the same refusal. -/
inductive Related {α : Type} (R : α → α → Prop) : Except Refusal α → Except Refusal α → Prop
  | ok {a a' : α} (answer : R a a') : Related R (.ok a) (.ok a')
  | error (r : Refusal) : Related R (.error r) (.error r)

/-- Two scripts that may be refused are alike. -/
def Act.Alike (L : Likeness Play) {α : Type} (R : α → α → Prop) (x x' : Act α) : Prop :=
  Script.Alike L (Related R) x.run x'.run

variable {L : Likeness Play} {α β : Type} {Q : α → α → Prop} {R : β → β → Prop}

namespace Act

lemma alike_pure {a a' : α} (h : Q a a') : Act.Alike L Q (pure a) (pure a') :=
  .pure (.ok h)

lemma alike_throw (r : Refusal) : Act.Alike L Q (throw r) (throw r) :=
  .pure (.error r)

lemma Alike.bind {x x' : Act α} {f f' : α → Act β} (hx : Act.Alike L Q x x')
    (hf : ∀ a a', Q a a' → Act.Alike L R (f a) (f' a')) : Act.Alike L R (x >>= f) (x' >>= f') := by
  refine Script.Alike.bind hx ?_
  rintro _ _ (h | r)
  · exact hf _ _ h
  · exact .pure (.error r)

lemma Alike.then {x x' : Act α} {f f' : α → Act β} (hx : Act.Alike L Eq x x')
    (hf : ∀ a, Act.Alike L R (f a) (f' a)) : Act.Alike L R (x >>= f) (x' >>= f') :=
  hx.bind fun a _ h => h ▸ hf a

lemma alike_lift {s s' : Script Play α} (h : s.Alike L Q s') :
    Act.Alike L Q (liftM s) (liftM s') :=
  h.bind fun _ _ ha => .pure (.ok ha)

/-- What a script answers is told of in the same way. -/
lemma alike_map {s s' : Script Play α} (h : s.Alike L Eq s') (f : α → β) :
    Act.Alike L Eq (liftM s >>= fun a => pure (f a)) (liftM s' >>= fun a => pure (f a)) :=
  (alike_lift h).then fun _ => alike_pure rfl

end Act

/-! ## Names and kinds -/

section

variable {S : Option Segment → Option Segment → Prop} {loops : Prop}

/-- Sessions remember the same. -/
lemma alike_load : (Script.load : Script Play Ledger).Alike (likeness S loops) Eq Script.load :=
  Script.alike_load

lemma alike_note {n n' : Note} (h : n.Alike S n') :
    (Script.note (P := Play) n).Alike (likeness S loops) Eq (Script.note (P := Play) n') :=
  Script.alike_note h

lemma alike_lookUp (name : String) :
    Act.Alike (likeness S loops) Eq (lookUp name) (lookUp name) := by
  refine (Act.alike_lift alike_load).then fun ledger => ?_
  cases ledger.promises.find? name with
  | some h => exact Act.alike_pure rfl
  | none => exact Act.alike_throw _

lemma alike_enter (as? : Option String) (h : Handle) :
    Act.Alike (likeness S loops) Eq (enter as? h) (enter as? h) := by
  cases as? with
  | none => exact Act.alike_pure rfl
  | some name =>
    exact (Act.alike_lift alike_load).then fun ledger => Act.alike_lift (Script.alike_save rfl)

lemma alike_ofKind (k : Kind) (h : Handle) : Act.Alike L Eq (h.ofKind k) (h.ofKind k) := by
  unfold Handle.ofKind
  split
  · exact Act.alike_pure rfl
  · exact Act.alike_throw _

lemma alike_idsOfKind (k : Kind) (hs : List Handle) :
    Act.Alike L Eq (idsOfKind k hs) (idsOfKind k hs) := by
  induction hs with
  | nil => exact Act.alike_pure rfl
  | cons h hs ih =>
    exact (alike_ofKind k h).then fun p => ih.then fun ps => Act.alike_pure rfl

lemma alike_item (h : Handle) (d : Datum) : Act.Alike L Eq (h.item d) (h.item d) := by
  unfold Handle.item
  split
  · exact Act.alike_pure rfl
  · exact Act.alike_throw _

lemma alike_view (h : Handle) : Act.Alike L (View.Alike L.segment) h.view h.view :=
  Act.alike_lift (Script.alike_view h.id)

lemma alike_orFailed {act act' : Act Handle} (h : Act.Alike L Eq act act') :
    (orFailed act).Alike L Eq (orFailed act') := by
  have hid :
      Act.Alike L Eq (act >>= fun h => h.ofKind .value) (act' >>= fun h => h.ofKind .value) :=
    h.then (alike_ofKind .value)
  refine Script.Alike.bind hid ?_
  rintro _ _ (⟨rfl⟩ | r)
  · exact .pure rfl
  · exact Script.alike_ofError _

lemma alike_addOnes (p : PromiseId) (n : Nat) :
    (addOnes p n).Alike L Eq (addOnes p n) := by
  induction n generalizing p with
  | zero => exact .pure rfl
  | succ n ih => exact (Script.alike_andThen p fun v => .pure rfl).then ih

lemma alike_adapt (now? : Option Datum) (keep? : Option String) (error? : Option Failure) :
    (adapt now? keep? error?).Alike (likeness S loops) Eq (adapt now? keep? error?) := by
  refine Script.alike_fromCallback fun done => ?_
  rcases now? with _ | d
  · rcases keep? with _ | name
    · cases error? <;> exact .pure rfl
    · refine alike_load.then fun ledger => (Script.alike_save rfl).then fun _ => ?_
      cases error? <;> exact .pure rfl
  · refine (Script.alike_passValue done.target _).then fun _ => ?_
    cases error? <;> exact .pure rfl

lemma alike_noteCall (tag? : Option String) {seen seen' : Seen} (h : seen.Alike S seen') :
    (noteCall tag? seen).Alike (likeness S loops) Eq (noteCall tag? seen') := by
  cases tag? with
  | none => exact .pure rfl
  | some tag =>
    exact Script.alike_now.then fun clock => alike_note (.called tag clock h)

lemma alike_replyOf {act act' : Act Reply}
    (h : Act.Alike (likeness S loops) (Reply.Alike S) act act') :
    (replyOf act).Alike (likeness S loops) (Reply.Alike S) (replyOf act') := by
  refine Script.Alike.bind h ?_
  rintro _ _ (hr | r)
  · exact .pure hr
  · exact .pure (.same _)

/-! ## All forms of steps -/

lemma Received.Alike.nothing : Received.Alike S {} {} := ⟨rfl, .none⟩

lemma Received.Alike.value (d : Datum) : Received.Alike S { value := d } { value := d } :=
  ⟨rfl, .none⟩

lemma Received.Alike.failure {t t' : Trace Failure} (h : t.Alike S t') :
    Received.Alike S { trace? := some t } { trace? := some t' } :=
  ⟨rfl, .some h⟩

lemma Argument.datum_congr {c c' : Received} (hc : c.Alike S c') (a : Argument) :
    a.datum c = a.datum c' := by
  cases a with
  | given d => rfl
  | received => exact hc.value_eq

lemma alike_reply (r : Reply) : Act.Alike L (Reply.Alike S) (pure r) (pure r) :=
  Act.alike_pure (.same r)

/-- What a script answers is replied in the same way. -/
lemma alike_answer {s s' : Script Play α} (h : s.Alike L Eq s') (f : α → Reply) :
    Act.Alike L (Reply.Alike S) (liftM s >>= fun a => pure (f a))
      (liftM s' >>= fun a => pure (f a)) :=
  (Act.alike_lift h).then fun a => alike_reply (f a)

/-- The trace that there may be. -/
lemma alike_ofTrace? {t? t?' : Option (Trace Failure)} : Option.Rel (Trace.Alike S) t? t?' →
    Act.Alike L (Trace.Alike S)
      (match t? with
        | some t => pure t
        | none => throw .causeNotFailed)
      (match t?' with
        | some t => pure t
        | none => throw .causeNotFailed) := by
  intro h
  cases h with
  | none => exact Act.alike_throw _
  | some h => exact Act.alike_pure h

/-- Two observers for the callbacks that are given. -/
lemma alike_ofCallbacks {f? f?' : Option (Item → Script Play Unit)}
    {g? g?' : Option (Trace Failure → Script Play Unit)}
    (hf : Option.Rel (fun f f' => ∀ v, (f v).Alike L Eq (f' v)) f? f?')
    (hg : Option.Rel (fun g g' => ∀ t t', t.Alike L.segment t' → (g t).Alike L Eq (g' t')) g? g?') :
    (Observer.ofCallbacks (P := Play) f? g?).Alike L (.ofCallbacks (P := Play) f?' g?') := by
  cases hf with
  | none =>
    cases hg with
    | none => exact ⟨fun o o' h => by cases h <;> rfl, fun _ _ _ _ _ h => nomatch h⟩
    | some hg => exact .onFailure hg
  | some hf =>
    cases hg with
    | none => exact .onSuccess hf
    | some hg => exact .onEither hf hg

mutual

theorem Source.alike {c c' : Received} (hc : c.Alike S c') : (s : Source) →
    (∀ r, s.Has r → r.Permitted (likeness S loops)) →
    Act.Alike (likeness S loops) Eq (s.resolve c) (s.resolve c')
  | .named name, _ => alike_lookUp name
  | .made m, h => m.alike hc h
  | .unknown _, _ => Act.alike_throw _

theorem resolveAll_alike {c c' : Received} (hc : c.Alike S c') : (ss : List Source) →
    (∀ r, sourcesHave ss r → r.Permitted (likeness S loops)) →
    Act.Alike (likeness S loops) Eq (resolveAll c ss) (resolveAll c' ss)
  | [], _ => Act.alike_pure rfl
  | s :: rest, h =>
    (s.alike hc fun r hr => h r (.inl hr)).then fun _ =>
      (resolveAll_alike hc rest fun r hr => h r (.inr hr)).then fun _ => Act.alike_pure rfl

theorem resolveAllOf_alike {c c' : Received} (hc : c.Alike S c') (k : Kind) : (ss : List Source) →
    (∀ r, sourcesHave ss r → r.Permitted (likeness S loops)) →
    Act.Alike (likeness S loops) Eq (resolveAllOf c k ss) (resolveAllOf c' k ss)
  | [], _ => Act.alike_pure rfl
  | s :: rest, h =>
    (s.alike hc fun r hr => h r (.inl hr)).then fun a => (alike_ofKind k a).then fun _ =>
      (resolveAllOf_alike hc k rest fun r hr => h r (.inr hr)).then fun _ => Act.alike_pure rfl

theorem resolveAt_alike {c c' : Received} (hc : c.Alike S c') (k : Nat) : (ss : List Source) →
    (∀ r, sourcesHave ss r → r.Permitted (likeness S loops)) →
    Act.Alike (likeness S loops) Eq (resolveAt c k ss) (resolveAt c' k ss)
  | [], _ => Act.alike_throw _
  | s :: rest, h => by
    rw [resolveAt, resolveAt]
    split
    · exact s.alike hc fun r hr => h r (.inl hr)
    · exact resolveAt_alike hc (k - 1) rest fun r hr => h r (.inr hr)

theorem Making.alike {c c' : Received} (hc : c.Alike S c') : (m : Making) →
    (∀ r, m.Has r → r.Permitted (likeness S loops)) →
    Act.Alike (likeness S loops) Eq (m.resolve c) (m.resolve c')
  | .mk as? recipe, h =>
    (recipe.alike hc h).then fun a => (alike_enter as? a).then fun _ => Act.alike_pure rfl

theorem Recipe.alike {c c' : Received} (hc : c.Alike S c') : (recipe : Recipe) →
    (∀ r, recipe.Has r → r.Permitted (likeness S loops)) →
    Act.Alike (likeness S loops) Eq (recipe.resolve c) (recipe.resolve c')
  | .promise kind none, _ => by
    simp only [Recipe.resolve]
    exact Act.alike_map Script.alike_create _
  | .promise kind (some s), h => by
    -- a stack that is given is alike to itself
    simp only [Recipe.resolve]
    exact Act.alike_map (Script.alike_createUnder (h _ rfl)) _
  | .ofValue value, _ => by
    simp only [Recipe.resolve, Argument.datum_congr hc]
    exact Act.alike_map (Script.alike_ofValue _) _
  | .ofError error, _ => by
    simp only [Recipe.resolve]
    exact Act.alike_map (Script.alike_ofError (P := Play) error) _
  | .fulfillAfter value delay, _ => by
    simp only [Recipe.resolve, Argument.datum_congr hc]
    exact Act.alike_map (Script.alike_fulfillAfter _ delay) _
  | .failAfter error delay, _ => by
    simp only [Recipe.resolve]
    exact Act.alike_map (Script.alike_failAfter (P := Play) error delay) _
  | .select inputs, h => by
    simp only [Recipe.resolve]
    refine (resolveAll_alike hc inputs fun r hr => h r (.inr hr)).then fun hs => ?_
    refine (alike_idsOfKind _ hs).then fun ids => ?_
    exact Act.alike_map (Script.alike_select ids) _
  | .join inputs, h => by
    simp only [Recipe.resolve]
    refine (resolveAllOf_alike hc .value inputs fun r hr => h r (.inr hr)).then fun ids => ?_
    exact Act.alike_map (Script.alike_join ids) _
  | .joinPair first second, h => by
    simp only [Recipe.resolve]
    refine (first.alike hc fun r hr => h r (.inr (.inl hr))).then fun a => ?_
    refine (alike_ofKind .value a).then fun p => ?_
    refine (second.alike hc fun r hr => h r (.inr (.inr hr))).then fun b => ?_
    refine (alike_ofKind .value b).then fun q => ?_
    exact Act.alike_map (Script.alike_joinPair p q) _
  | .withTimeout input limit, h => by
    simp only [Recipe.resolve]
    refine (input.alike hc fun r hr => h r (.inr hr)).then fun a => ?_
    exact Act.alike_map (Script.alike_withTimeout a.id limit) _
  | .elapsed input, h => by
    simp only [Recipe.resolve]
    refine (input.alike hc fun r hr => h r (.inr hr)).then fun a => ?_
    exact Act.alike_map (Script.alike_elapsed a.id) _
  | .keepTrying attempts interval tag? onError, h => by
    simp only [Recipe.resolve]
    -- the recipe itself is permitted, so there may be retry loops
    refine Act.alike_map (Script.alike_keepTrying (h _ (.inl rfl)) interval (fun k => ?_)
      fun t t' ht => ?_) _
    · exact (alike_noteCall tag? (.same _)).then fun _ =>
        alike_orFailed (resolveAt_alike .nothing k attempts fun r hr => h r (.inr (.inl hr)))
    · exact onError.alike (.failure ht) (.failure ht) fun r hr => h r (.inr (.inr hr))
  | .defer delay callback f, h => by
    simp only [Recipe.resolve]
    refine Act.alike_map (Script.alike_defer delay ?_) _
    exact (callback.alike .nothing (.same _) fun r hr => h r (.inr hr)).then fun _ => .pure rfl
  | .deferLazily callback result, h => by
    simp only [Recipe.resolve]
    refine Act.alike_map (Script.alike_deferLazily ?_) _
    exact (callback.alike .nothing (.same _) fun r hr => h r (.inr (.inl hr))).then fun _ =>
      alike_orFailed (result.alike .nothing fun r hr => h r (.inr (.inr hr)))
  | .fromCallback now? keep? error?, _ => by
    simp only [Recipe.resolve]
    exact Act.alike_map (alike_adapt now? keep? error?) _
  | .andThen source callback f, h => by
    simp only [Recipe.resolve]
    refine (source.alike hc fun r hr => h r (.inr (.inl hr))).then fun a => ?_
    refine Act.alike_map (Script.alike_andThen a.id fun v => ?_) _
    exact (callback.alike (.value _) (.same _) fun r hr => h r (.inr (.inr hr))).then fun _ =>
      .pure rfl
  | .andThenLazily source callback result, h => by
    simp only [Recipe.resolve]
    refine (source.alike hc fun r hr => h r (.inr (.inl hr))).then fun a => ?_
    refine Act.alike_map (Script.alike_andThenLazily a.id fun v => ?_) _
    refine (callback.alike (.value _) (.same _) fun r hr => h r (.inr (.inr (.inl hr)))).then
      fun _ => ?_
    exact alike_orFailed (result.alike (.value _) fun r hr => h r (.inr (.inr (.inr hr))))
  | .andThenApply source callback f, h => by
    simp only [Recipe.resolve]
    refine (source.alike hc fun r hr => h r (.inr (.inl hr))).then fun a => ?_
    refine (alike_ofKind .pair a).then fun p => ?_
    refine Act.alike_map (Script.alike_andThen p fun v => ?_) _
    exact (callback.alike (.value _) (.same _) fun r hr => h r (.inr (.inr hr))).then fun _ =>
      .pure rfl
  | .chain source n, h => by
    simp only [Recipe.resolve]
    refine (source.alike hc fun r hr => h r (.inr hr)).then fun a => ?_
    cases n with
    | zero => exact Act.alike_pure rfl
    | succ n =>
      exact Act.alike_map (alike_addOnes a.id (n + 1)) _

theorem Callback.alike {c c' : Received} (hc : c.Alike S c') {seen seen' : Seen}
    (hseen : seen.Alike S seen') : (callback : Callback) →
    (∀ r, callback.Has r → r.Permitted (likeness S loops)) →
    (callback.run c seen).Alike (likeness S loops) Eq (callback.run c' seen')
  | .mk tag? acts, h => (alike_noteCall tag? hseen).then fun _ => runActs_alike hc acts h

theorem runActs_alike {c c' : Received} (hc : c.Alike S c') : (acts : List Step) →
    (∀ r, stepsHave acts r → r.Permitted (likeness S loops)) →
    (runActs c acts).Alike (likeness S loops) Eq (runActs c' acts)
  | [], _ => .pure rfl
  | s :: rest, h =>
    (alike_replyOf (s.alike hc fun r hr => h r (.inl hr))).bind fun _ _ hr =>
      (alike_note (.act hr)).then fun _ =>
        runActs_alike hc rest fun r hr => h r (.inr hr)

/-- Callbacks for values. -/
theorem valueHandler_alike : (callback? : Option Callback) →
    (∀ r, callbackHas callback? r → r.Permitted (likeness S loops)) →
    Option.Rel (fun f f' => ∀ v, (f v).Alike (likeness S loops) Eq (f' v)) (valueHandler callback?)
      (valueHandler callback?)
  | none, _ => .none
  | some callback, h => .some fun v => callback.alike (.value v.datum) (.same _) h

/-- Callbacks for failures. -/
theorem failureHandler_alike : (callback? : Option Callback) →
    (∀ r, callbackHas callback? r → r.Permitted (likeness S loops)) →
    Option.Rel (fun g g' => ∀ t t', t.Alike S t' → (g t).Alike (likeness S loops) Eq (g' t'))
      (failureHandler callback?) (failureHandler callback?)
  | none, _ => .none
  | some callback, h => .some fun _ _ ht => callback.alike (.failure ht) (.failure ht) h

theorem Cause.alike {c c' : Received} (hc : c.Alike S c') : (cause : Cause) →
    (∀ r, cause.Has r → r.Permitted (likeness S loops)) →
    Act.Alike (likeness S loops) (Trace.Alike S) (cause.resolve c) (cause.resolve c')
  | .received, _ => by
    simp only [Cause.resolve]
    exact alike_ofTrace? hc.trace
  | .traceOf p, h => by
    simp only [Cause.resolve]
    exact (p.alike hc h).then fun a => (alike_view a).bind fun v v' hv => alike_ofTrace? hv.trace?

/-- **A step does the same in both runs.** -/
theorem Step.alike {c c' : Received} (hc : c.Alike S c') : (s : Step) →
    (∀ r, s.Has r → r.Permitted (likeness S loops)) →
    Act.Alike (likeness S loops) (Reply.Alike S) (s.resolve c) (s.resolve c')
  | .make m, h => by
    simp only [Step.resolve]
    refine (m.alike hc h).then fun a => (alike_view a).bind fun v v' hv => Act.alike_pure ?_
    rw [Reply.ofView, Reply.ofView, hv.result?_eq]
    exact .same _
  | .fulfill p value, h => by
    simp only [Step.resolve, Argument.datum_congr hc]
    refine (p.alike hc h).then fun a => (alike_item a _).then fun item => ?_
    exact alike_answer (Script.alike_fulfill a.id item) _
  | .fail p error, h => by
    simp only [Step.resolve]
    refine (p.alike hc h).then fun a => ?_
    exact alike_answer (Script.alike_fail a.id error) _
  | .failBecause p error cause, h => by
    simp only [Step.resolve]
    refine (p.alike hc fun r hr => h r (.inl hr)).then fun a => ?_
    refine (cause.alike hc fun r hr => h r (.inr hr)).bind fun t t' ht => ?_
    exact alike_answer (Script.alike_failBecause (L := likeness S loops) a.id error ht) _
  | .observe p onValue onError, h => by
    simp only [Step.resolve]
    refine (p.alike hc fun r hr => h r (.inl hr)).then fun a => ?_
    refine alike_answer (Script.alike_observe a.id ?_) _
    exact alike_ofCallbacks (valueHandler_alike onValue fun r hr => h r (.inr (.inl hr)))
      (failureHandler_alike onError fun r hr => h r (.inr (.inr hr)))
  | .forward what source target, h => by
    simp only [Step.resolve]
    refine (source.alike hc fun r hr => h r (.inl hr)).then fun a => ?_
    refine (target.alike hc fun r hr => h r (.inr hr)).then fun b => ?_
    cases what with
    | either =>
      refine (alike_ofKind a.kind b).then fun q => ?_
      exact alike_answer (Script.alike_forward a.id q) _
    | value =>
      refine (alike_ofKind a.kind b).then fun q => ?_
      exact alike_answer (Script.alike_forwardValue a.id q) _
    | failure =>
      exact alike_answer (Script.alike_forwardFailure a.id b.id) _
  | .call name value, h => by
    simp only [Step.resolve, Argument.datum_congr hc]
    refine (Act.alike_lift alike_load).then fun ledger => ?_
    cases ledger.kept.find? name with
    | none => exact alike_reply _
    | some done =>
      refine (Act.alike_lift (Script.alike_save rfl)).then fun _ => ?_
      exact alike_answer (Script.alike_passValue done.target _) _
  | .schedule delay callback, h => by
    simp only [Step.resolve]
    exact alike_answer (Script.alike_schedule delay (callback.alike .nothing (.same _) h)) _
  | .peek p, h => by
    simp only [Step.resolve]
    refine (p.alike hc h).then fun a => (alike_view a).bind fun v v' hv => Act.alike_pure ?_
    rw [Reply.ofView, Reply.ofView, hv.result?_eq]
    exact .same _
  | .state p, h => by
    simp only [Step.resolve]
    refine (p.alike hc h).then fun a => (alike_view a).bind fun v v' hv => Act.alike_pure ?_
    rw [hv.state_eq]
    exact .same _
  | .trace p, h => by
    simp only [Step.resolve]
    exact (p.alike hc h).then fun a => (alike_view a).bind fun v v' hv =>
      Act.alike_pure (.trace hv.trace?)
  | .segment p, h => by
    simp only [Step.resolve]
    exact (p.alike hc h).then fun a => (alike_view a).bind fun v v' hv =>
      Act.alike_pure (.segment _ _)
  | .debug p, h => by
    simp only [Step.resolve]
    exact (p.alike hc h).then fun a => (alike_view a).bind fun v v' hv =>
      Act.alike_pure (.text _ _)
  | .debugTrace p, h => by
    simp only [Step.resolve]
    refine (p.alike hc h).then fun a => (alike_view a).bind fun v v' hv => ?_
    have htrace := hv.trace?
    generalize v.trace? = t? at htrace
    generalize v'.trace? = t?' at htrace
    cases htrace with
    | none => exact alike_reply _
    | some => exact Act.alike_pure (.text _ _)
  | .debugRuntime, _ => by
    simp only [Step.resolve]
    have hsettings : (Script.once .settings : Script Play Settings).Alike (likeness S loops)
        (fun s s' => s.maxFrames = s'.maxFrames) (Script.once .settings) :=
      Script.alike_once .settings .settings rfl fun _ _ h => h
    exact (Act.alike_lift hsettings).bind fun _ _ _ =>
      (Act.alike_lift Script.alike_now).then fun _ => Act.alike_pure (.text _ _)
  | .sameRuntime p, h => by
    simp only [Step.resolve]
    exact ((p.alike hc h).then fun _ => Act.alike_pure rfl).then fun _ => alike_reply _
  | .drop name, _ => by
    simp only [Step.resolve]
    refine (Act.alike_lift alike_load).then fun ledger => ?_
    exact alike_answer (Script.alike_save rfl) _
  | .now, _ => by
    simp only [Step.resolve]
    exact alike_answer Script.alike_now _
  | .pending, _ => by
    simp only [Step.resolve]
    exact alike_answer Script.alike_pending _
  | .drive d, _ => by
    simp only [Step.resolve]
    exact alike_answer (.drive d fun _ => .pure rfl) _
  | .sleep span, _ => by
    simp only [Step.resolve]
    have hsleep : (Script.advance span : Script Play Nat).Alike (likeness S loops) Eq
        (Script.advance span) := .drive _ fun _ => .pure rfl
    have hdiscard : Act.Alike (likeness S loops) Eq
        (discard (liftM (Script.advance span : Script Play Nat)) : Act Unit)
        (discard (liftM (Script.advance span : Script Play Nat))) :=
      Act.alike_map hsleep _
    exact hdiscard.then fun _ => alike_reply _
  | .unknown _, _ => Act.alike_throw _

end

/-! ## Whole sessions -/

lemma alike_script (s : Step) (h : ∀ r, s.Has r → r.Permitted (likeness S loops)) :
    (script s).Alike (likeness S loops) Eq (script s) :=
  (alike_replyOf (s.alike .nothing h)).bind fun _ _ hr => alike_note (.answered hr)

end

/-- The steps of a session, one after the other. -/
def course : List Step → Script Play Unit
  | [] => pure ()
  | s :: rest => do
    script s
    course rest

/-- A session as a program. -/
def program (settings : Settings) (walks : Nat → List Frame) (internal : List String)
    (steps : List Step) : Program Play where
  settings
  walks
  internal
  store := {}
  main := course steps

/-- **A session does the same in both runs.** -/
theorem alike_course {S : Option Segment → Option Segment → Prop} {loops : Prop} (steps : List Step)
    (h : ∀ r, stepsHave steps r → r.Permitted (likeness S loops)) :
    (course steps).Alike (likeness S loops) Eq (course steps) := by
  induction steps with
  | nil => exact .pure rfl
  | cons s rest ih =>
    rw [course]
    exact (alike_script s fun r hr => h r (.inl hr)).then fun _ => ih fun r hr => h r (.inr hr)

end Eventual.Session
