import Eventual.Proofs.Likeness

/-!
# Scripts that keep to themselves

A party works on promises, buffers and retry loops that it has made itself.  In one run it is alone;
in another one it shares the world with a second party, and then its things, and the captures of
stacks for them, have other numbers, since the second party makes things in between.  A renaming
says which.  Two scripts are twins if they do the same, up to the renaming, as long as what they are
told is the same (`Script.Twins`): a script that is a twin of itself uses only what it is told of,
and does not look at numbers.  Whatever the library offers makes twins out of callbacks that are
twins.
-/

namespace Eventual

/-! ## Renamings -/

/-- The numbers that the things of a party have in the shared run; when the party is alone, the
number of a thing is its place in the list. -/
structure Renaming where
  promises : List Nat := []
  gatherings : List Nat := []
  pairings : List Nat := []
  retries : List Nat := []
  captures : List Nat := []

namespace Renaming

/-- The party may have made more. -/
structure Extends (ρ ρ' : Renaming) : Prop where
  promises : ρ.promises <+: ρ'.promises
  gatherings : ρ.gatherings <+: ρ'.gatherings
  pairings : ρ.pairings <+: ρ'.pairings
  retries : ρ.retries <+: ρ'.retries
  captures : ρ.captures <+: ρ'.captures

instance : LE Renaming := ⟨Extends⟩

lemma le_refl (ρ : Renaming) : ρ ≤ ρ :=
  ⟨List.prefix_rfl, List.prefix_rfl, List.prefix_rfl, List.prefix_rfl, List.prefix_rfl⟩

lemma le_trans {ρ ρ₁ ρ' : Renaming} (h : ρ ≤ ρ₁) (h' : ρ₁ ≤ ρ') : ρ ≤ ρ' :=
  ⟨h.promises.trans h'.promises, h.gatherings.trans h'.gatherings, h.pairings.trans h'.pairings,
    h.retries.trans h'.retries, h.captures.trans h'.captures⟩

/-- A promise alone and in the shared run. -/
def promise (ρ : Renaming) (p p' : PromiseId) : Prop := ρ.promises[p.index]? = some p'.index

/-- A gathering alone and in the shared run. -/
def gathering (ρ : Renaming) (g g' : GatheringId) : Prop := ρ.gatherings[g.index]? = some g'.index

/-- A pairing alone and in the shared run. -/
def pairing (ρ : Renaming) (g g' : PairingId) : Prop := ρ.pairings[g.index]? = some g'.index

/-- A retry loop alone and in the shared run. -/
def retry (ρ : Renaming) (r r' : RetryId) : Prop := ρ.retries[r.index]? = some r'.index

/-- A capture of a stack alone and in the shared run, by the number of captures before it. -/
def capture (ρ : Renaming) (n n' : Nat) : Prop := ρ.captures[n]? = some n'

/-- Several promises alone and in the shared run. -/
def inputs (ρ : Renaming) : List PromiseId → List PromiseId → Prop := List.Forall₂ ρ.promise

/-- A relation does not change when more is made. -/
def Stable {α : Type} (R : Renaming → α → α → Prop) : Prop :=
  ∀ ρ ρ' a a', ρ ≤ ρ' → R ρ a a' → R ρ' a a'

/-- The same in both runs. -/
def same {α : Type} (_ : Renaming) (a a' : α) : Prop := a = a'

lemma getElem?_of_prefix {l l' : List Nat} (h : l <+: l') {i n : Nat} (hi : l[i]? = some n) :
    l'[i]? = some n := by
  obtain ⟨hlt, rfl⟩ := List.getElem?_eq_some_iff.mp hi
  exact List.prefix_iff_getElem?.mp h i hlt

variable {ρ ρ' : Renaming}

lemma promise.mono {p p' : PromiseId} (h : ρ.promise p p') (hle : ρ ≤ ρ') : ρ'.promise p p' :=
  getElem?_of_prefix hle.promises h

lemma gathering.mono {g g' : GatheringId} (h : ρ.gathering g g') (hle : ρ ≤ ρ') :
    ρ'.gathering g g' :=
  getElem?_of_prefix hle.gatherings h

lemma pairing.mono {g g' : PairingId} (h : ρ.pairing g g') (hle : ρ ≤ ρ') : ρ'.pairing g g' :=
  getElem?_of_prefix hle.pairings h

lemma retry.mono {r r' : RetryId} (h : ρ.retry r r') (hle : ρ ≤ ρ') : ρ'.retry r r' :=
  getElem?_of_prefix hle.retries h

lemma capture.mono {n n' : Nat} (h : ρ.capture n n') (hle : ρ ≤ ρ') : ρ'.capture n n' :=
  getElem?_of_prefix hle.captures h

lemma inputs.mono {ps ps' : List PromiseId} (h : ρ.inputs ps ps') (hle : ρ ≤ ρ') :
    ρ'.inputs ps ps' :=
  h.imp fun _ _ hp => hp.mono hle

lemma stable_same {α : Type} : Stable (same (α := α)) := fun _ _ _ _ _ h => h

end Renaming

/-! ## Twins -/

variable {P : Payload}

/-- How the stacks and the notes of a party are related, when it is alone and in the shared run. -/
structure Comparison (P : Payload) where
  /-- The stacks of two promises are alike. -/
  segment : Renaming → Option Segment → Option Segment → Prop
  /-- A stack that the party is given is the same in both runs. -/
  segment_refl : ∀ ρ s, segment ρ s s
  /-- Two notes say the same. -/
  note : Renaming → P.Note → P.Note → Prop
  /-- This does not change when more is made. -/
  segment_mono : ∀ {ρ ρ' s s'}, segment ρ s s' → ρ ≤ ρ' → segment ρ' s s'
  note_mono : ∀ {ρ ρ' n n'}, note ρ n n' → ρ ≤ ρ' → note ρ' n n'

/-- What the captures of a party keep is `f` alone and `g` in the shared run.  A stack alone and in
the shared run was given to the party, or kept by one capture. -/
inductive Segment.Kept (f g : Nat → Segment) (ρ : Renaming) :
    Option Segment → Option Segment → Prop
  | given (s : Option Segment) : Kept f g ρ s s
  | captured {n n' : Nat} (capture : ρ.capture n n') : Kept f g ρ (some (f n)) (some (g n'))

lemma Segment.Kept.mono {f g : Nat → Segment} {ρ ρ' : Renaming} {s s' : Option Segment}
    (h : Kept f g ρ s s') (hle : ρ ≤ ρ') : Kept f g ρ' s s' := by
  cases h with
  | given s => exact .given s
  | captured capture => exact .captured (capture.mono hle)

/-- If the walks of one capture meet the same frames alone and in the shared run, so do traces. -/
lemma Segment.Kept.frames_eq {f g : Nat → Segment} {ρ : Renaming} {s s' : Option Segment}
    (h : Kept f g ρ s s') (hfg : ∀ n n', ρ.capture n n' → (f n).frames = (g n').frames) :
    s.map frames = s'.map frames := by
  cases h with
  | given s => rfl
  | captured capture => exact congrArg some (hfg _ _ capture)

/-- What two parties may note and remember that share a world.  Each of them is compared with a run
in which it is alone. -/
structure Sharing (P : Payload) where
  ours : Comparison P
  theirs : Comparison P
  /-- What is noted on behalf of both: when we are alone, when they are alone, and in the shared
  run. -/
  common : P.Note → P.Note → P.Note → Prop
  /-- What is remembered in the shared run is what we remember alone together with what they
  remember alone. -/
  store : Renaming → Renaming → P.Store → P.Store → P.Store → Prop
  /-- This does not change when more is made. -/
  store_mono : ∀ {ρ₁ ρ₁' ρ₂ ρ₂' x₁ x₂ x}, store ρ₁ ρ₂ x₁ x₂ x → ρ₁ ≤ ρ₁' → ρ₂ ≤ ρ₂' →
    store ρ₁' ρ₂' x₁ x₂ x

/-- The same, seen by the other party. -/
def Sharing.swap (D : Sharing P) : Sharing P where
  ours := D.theirs
  theirs := D.ours
  common n₁ n₂ n := D.common n₂ n₁ n
  store ρ₁ ρ₂ x₁ x₂ x := D.store ρ₂ ρ₁ x₂ x₁ x
  store_mono h h₁ h₂ := D.store_mono h h₂ h₁

/-- The other party: how its things are renamed, and what it remembers when it is alone. -/
structure Company (P : Payload) where
  names : Renaming
  store : P.Store

/-- Two operations that hand nothing over do the same. -/
def Op.Twin (D : Sharing P) (ρ : Renaming) (c : Company P) : {κ : Type} → Op P κ → Op P κ → Prop
  | _, observe _ _, _ | _, schedule _ _, _ | _, openRetry _ _ _ _, _ => False
  | _, settle p s, o' => ∃ p' s', o' = .settle p' s' ∧ ρ.promise p p' ∧
    s.Alike (D.ours.segment ρ) s'
  | _, view p, o' => ∃ p', o' = .view p' ∧ ρ.promise p p'
  | _, gather g i v, o' => ∃ g', o' = .gather g' i v ∧ ρ.gathering g g'
  | _, couple g side v, o' => ∃ g', o' = .couple g' side v ∧ ρ.pairing g g'
  | _, countAttempt r, o' => ∃ r', o' = .countAttempt r' ∧ ρ.retry r r'
  | _, note n, o' => ∃ n', o' = .note n' ∧ D.ours.note ρ n n'
  | _, save x, o' => ∃ x', o' = .save x' ∧ D.store ρ c.names x c.store x'
  | _, o, o' => o' = o

/-- Two answers to an operation say the same.  About the number of the tasks that wait they say
nothing: the tasks of both parties are counted. -/
def Op.Replies (D : Sharing P) (ρ : Renaming) (c : Company P) : {κ : Type} → Op P κ → κ → κ → Prop
  | _, create, p, p' => ρ.promise p p'
  | _, createUnder _, p, p' => ρ.promise p p'
  | _, view _, v, v' => v.Alike (D.ours.segment ρ) v'
  | _, pending, _, _ => True
  | _, openGathering _, g, g' => ρ.gathering g g'
  | _, openPairing, g, g' => ρ.pairing g g'
  | _, openRetry _ _ _ _, r, r' => ρ.retry r r'
  | _, load, x, x' => D.store ρ c.names x c.store x'
  | _, _, r, r' => r = r'

/-- Two scripts do the same, up to a renaming that grows, and give answers that are related, as long
as they are told the same.  The clock is not driven.  What is handed over runs when the company may
have changed. -/
inductive Script.Twins (D : Sharing P) : {α : Type} → (Renaming → α → α → Prop) → Renaming →
    Company P → Script P α → Script P α → Prop
  /-- Nothing is done. -/
  | pure {α : Type} {R : Renaming → α → α → Prop} {ρ : Renaming} {c : Company P} {a a' : α}
      (answer : R ρ a a') : Twins D R ρ c (.pure a) (.pure a')
  /-- An operation is carried out that hands nothing over. -/
  | op {κ α : Type} {R : Renaming → α → α → Prop} {ρ : Renaming} {c : Company P} {o o' : Op P κ}
      {k k' : κ → Script P α} (twin : o.Twin D ρ c o')
      (rest : ∀ ρ' r r', ρ ≤ ρ' → o.Replies D ρ' c r r' → Twins D R ρ' c (k r) (k' r')) :
      Twins D R ρ c (.op o k) (.op o' k')
  /-- An observer is registered. -/
  | observe {α : Type} {R : Renaming → α → α → Prop} {ρ : Renaming} {c : Company P}
      {p p' : PromiseId} {ob ob' : Observer P} {k k' : Unit → Script P α}
      (promise : ρ.promise p p')
      (awaits : ∀ ρ' o o', ρ ≤ ρ' → o.Alike (D.ours.segment ρ') o' → ob.awaits o = ob'.awaits o')
      (callbacks : ∀ ρ' c' o o' body body', ρ ≤ ρ' → o.Alike (D.ours.segment ρ') o' →
        ob.handler? o = some body → ob'.handler? o' = some body' →
        Twins D Renaming.same ρ' c' body body')
      (rest : ∀ ρ', ρ ≤ ρ' → Twins D R ρ' c (k ()) (k' ())) :
      Twins D R ρ c (.op (.observe p ob) k) (.op (.observe p' ob') k')
  /-- A task is scheduled. -/
  | schedule {α : Type} {R : Renaming → α → α → Prop} {ρ : Renaming} {c : Company P}
      (delay : Duration) {body body' : Script P Unit} {k k' : Unit → Script P α}
      (task : ∀ ρ' c', ρ ≤ ρ' → Twins D Renaming.same ρ' c' body body')
      (rest : ∀ ρ', ρ ≤ ρ' → Twins D R ρ' c (k ()) (k' ())) :
      Twins D R ρ c (.op (.schedule delay body) k) (.op (.schedule delay body') k')
  /-- A retry loop is opened. -/
  | openRetry {α : Type} {R : Renaming → α → α → Prop} {ρ : Renaming} {c : Company P}
      {result result' : PromiseId} (interval : Duration) {thunk thunk' : Nat → Script P PromiseId}
      {onError onError' : Trace P.Error → Script P Unit} {k k' : RetryId → Script P α}
      (promise : ρ.promise result result')
      (thunks : ∀ ρ' c' n, ρ ≤ ρ' → Twins D Renaming.promise ρ' c' (thunk n) (thunk' n))
      (callbacks : ∀ ρ' c' t t', ρ ≤ ρ' → t.Alike (D.ours.segment ρ') t' →
        Twins D Renaming.same ρ' c' (onError t) (onError' t'))
      (rest : ∀ ρ' r r', ρ ≤ ρ' → ρ'.retry r r' → Twins D R ρ' c (k r) (k' r')) :
      Twins D R ρ c (.op (.openRetry result interval thunk onError) k)
        (.op (.openRetry result' interval thunk' onError') k')
  /-- An attempt of a retry loop is made. -/
  | attempt {α : Type} {R : Renaming → α → α → Prop} {ρ : Renaming} {c : Company P}
      {r r' : RetryId} {k k' : Script P α} (retry : ρ.retry r r')
      (rest : ∀ ρ', ρ ≤ ρ' → Twins D R ρ' c k k') : Twins D R ρ c (.attempt r k) (.attempt r' k')

/-- Two observers wait for the same, with callbacks that are twins. -/
structure Observer.Twin (D : Sharing P) (ρ : Renaming) (ob ob' : Observer P) : Prop where
  awaits : ∀ ρ' o o', ρ ≤ ρ' → o.Alike (D.ours.segment ρ') o' → ob.awaits o = ob'.awaits o'
  callbacks : ∀ ρ' c o o' body body', ρ ≤ ρ' → o.Alike (D.ours.segment ρ') o' →
    ob.handler? o = some body → ob'.handler? o' = some body' →
    body.Twins D Renaming.same ρ' c body'

variable {D : Sharing P} {ρ ρ' : Renaming} {c : Company P} {α β : Type}
  {Q : Renaming → α → α → Prop} {R : Renaming → β → β → Prop}

namespace Observer

lemma Twin.mono {ob ob' : Observer P} (h : ob.Twin D ρ ob') (hle : ρ ≤ ρ') : ob.Twin D ρ' ob' :=
  ⟨fun ρ₁ o o' h₁ => h.awaits ρ₁ o o' (Renaming.le_trans hle h₁), fun ρ₁ c o o' body body' h₁ =>
    h.callbacks ρ₁ c o o' body body' (Renaming.le_trans hle h₁)⟩

lemma Twin.onEither {f f' : P.Value → Script P Unit} {g g' : Trace P.Error → Script P Unit}
    (hf : ∀ ρ' c v, ρ ≤ ρ' → (f v).Twins D Renaming.same ρ' c (f' v))
    (hg : ∀ ρ' c t t', ρ ≤ ρ' → t.Alike (D.ours.segment ρ') t' →
      (g t).Twins D Renaming.same ρ' c (g' t')) :
    (Observer.onEither f g).Twin D ρ (.onEither f' g') where
  awaits _ _ _ _ h := by cases h <;> rfl
  callbacks ρ' c o o' body body' hle h hbody hbody' := by
    cases h with
    | succeeded v =>
      cases hbody
      cases hbody'
      exact hf ρ' c v hle
    | failed trace =>
      cases hbody
      cases hbody'
      exact hg ρ' c _ _ hle trace

lemma Twin.onSuccess {f f' : P.Value → Script P Unit}
    (hf : ∀ ρ' c v, ρ ≤ ρ' → (f v).Twins D Renaming.same ρ' c (f' v)) :
    (Observer.onSuccess f).Twin D ρ (.onSuccess f') where
  awaits _ _ _ _ h := by cases h <;> rfl
  callbacks ρ' c o o' body body' hle h hbody hbody' := by
    cases h with
    | succeeded v =>
      cases hbody
      cases hbody'
      exact hf ρ' c v hle
    | failed trace => cases hbody

lemma Twin.onFailure {g g' : Trace P.Error → Script P Unit}
    (hg : ∀ ρ' c t t', ρ ≤ ρ' → t.Alike (D.ours.segment ρ') t' →
      (g t).Twins D Renaming.same ρ' c (g' t')) :
    (Observer.onFailure g).Twin D ρ (.onFailure g') where
  awaits _ _ _ _ h := by cases h <;> rfl
  callbacks ρ' c o o' body body' hle h hbody hbody' := by
    cases h with
    | succeeded v => cases hbody
    | failed trace =>
      cases hbody
      cases hbody'
      exact hg ρ' c _ _ hle trace

end Observer

lemma Op.Twin.mono {κ : Type} {o o' : Op P κ} (h : o.Twin D ρ c o') (hle : ρ ≤ ρ') :
    o.Twin D ρ' c o' := by
  cases o with
  | observe | schedule | openRetry => exact h.elim
  | settle p s =>
    obtain ⟨p', s', rfl, hp, hs⟩ := h
    exact ⟨p', s', rfl, hp.mono hle, hs.imp fun _ _ h => D.ours.segment_mono h hle⟩
  | view p =>
    obtain ⟨p', rfl, hp⟩ := h
    exact ⟨p', rfl, hp.mono hle⟩
  | gather g i v =>
    obtain ⟨g', rfl, hg⟩ := h
    exact ⟨g', rfl, hg.mono hle⟩
  | couple g side v =>
    obtain ⟨g', rfl, hg⟩ := h
    exact ⟨g', rfl, hg.mono hle⟩
  | countAttempt r =>
    obtain ⟨r', rfl, hr⟩ := h
    exact ⟨r', rfl, hr.mono hle⟩
  | note n =>
    obtain ⟨n', rfl, hn⟩ := h
    exact ⟨n', rfl, D.ours.note_mono hn hle⟩
  | save x =>
    obtain ⟨x', rfl, hx⟩ := h
    exact ⟨x', rfl, D.store_mono hx hle (Renaming.le_refl _)⟩
  | create | createUnder | now | pending | settings | openGathering | openPairing | emit | load =>
    exact h

namespace Script

/-- What is a twin now is one later. -/
lemma Twins.mono {s s' : Script P α} (h : s.Twins D Q ρ c s') (hQ : Renaming.Stable Q)
    (hle : ρ ≤ ρ') : s.Twins D Q ρ' c s' := by
  cases h with
  | pure answer => exact .pure (hQ _ _ _ _ hle answer)
  | op twin rest =>
    exact .op (twin.mono hle) fun ρ₁ r r' h hr => rest ρ₁ r r' (Renaming.le_trans hle h) hr
  | observe promise awaits callbacks rest =>
    exact .observe (promise.mono hle)
      (fun ρ₁ o o' h => awaits ρ₁ o o' (Renaming.le_trans hle h))
      (fun ρ₁ c' o o' body body' h => callbacks ρ₁ c' o o' body body' (Renaming.le_trans hle h))
      fun ρ₁ h => rest ρ₁ (Renaming.le_trans hle h)
  | schedule delay task rest =>
    exact .schedule delay (fun ρ₁ c' h => task ρ₁ c' (Renaming.le_trans hle h))
      fun ρ₁ h => rest ρ₁ (Renaming.le_trans hle h)
  | openRetry interval promise thunks callbacks rest =>
    exact .openRetry interval (promise.mono hle)
      (fun ρ₁ c' n h => thunks ρ₁ c' n (Renaming.le_trans hle h))
      (fun ρ₁ c' t t' h => callbacks ρ₁ c' t t' (Renaming.le_trans hle h))
      fun ρ₁ r r' h => rest ρ₁ r r' (Renaming.le_trans hle h)
  | attempt retry rest =>
    exact .attempt (retry.mono hle) fun ρ₁ h => rest ρ₁ (Renaming.le_trans hle h)

/-! ## Sequencing -/

/-- **One after the other, scripts that are twins are twins.** -/
theorem Twins.bind {s s' : Script P α} {f f' : α → Script P β} (hs : s.Twins D Q ρ c s')
    (hf : ∀ ρ' a a', ρ ≤ ρ' → Q ρ' a a' → (f a).Twins D R ρ' c (f' a')) :
    (s.bind f).Twins D R ρ c (s'.bind f') := by
  induction hs with
  | pure answer => exact hf _ _ _ (Renaming.le_refl _) answer
  | op twin _ ih =>
    exact .op twin fun ρ₁ r r' h hr =>
      ih ρ₁ r r' h hr fun ρ₂ a a' h' => hf ρ₂ a a' (Renaming.le_trans h h')
  | observe promise awaits callbacks _ _ ih =>
    exact .observe promise awaits callbacks fun ρ₁ h =>
      ih ρ₁ h fun ρ₂ a a' h' => hf ρ₂ a a' (Renaming.le_trans h h')
  | schedule delay task _ _ ih =>
    exact .schedule delay task fun ρ₁ h =>
      ih ρ₁ h fun ρ₂ a a' h' => hf ρ₂ a a' (Renaming.le_trans h h')
  | openRetry interval promise thunks callbacks _ _ _ ih =>
    exact .openRetry interval promise thunks callbacks fun ρ₁ r r' h hr =>
      ih ρ₁ r r' h hr fun ρ₂ a a' h' => hf ρ₂ a a' (Renaming.le_trans h h')
  | attempt retry _ ih =>
    exact .attempt retry fun ρ₁ h =>
      ih ρ₁ h fun ρ₂ a a' h' => hf ρ₂ a a' (Renaming.le_trans h h')

/-- What follows on equal answers. -/
lemma Twins.then {s s' : Script P α} {f f' : α → Script P β}
    (hs : s.Twins D Renaming.same ρ c s')
    (hf : ∀ ρ' a, ρ ≤ ρ' → (f a).Twins D R ρ' c (f' a)) :
    (s.bind f).Twins D R ρ c (s'.bind f') :=
  hs.bind fun ρ' a _ hle h => h ▸ hf ρ' a hle

lemma Twins.discard {s s' : Script P α} (h : s.Twins D Q ρ c s') :
    (discard s).Twins D Renaming.same ρ c (discard s') :=
  h.bind fun _ _ _ _ _ => .pure rfl

lemma twins_once {o o' : Op P α} (h : o.Twin D ρ c o')
    (hr : ∀ ρ' r r', ρ ≤ ρ' → o.Replies D ρ' c r r' → Q ρ' r r') :
    (once o).Twins D Q ρ c (once o') :=
  .op h fun ρ' r r' hle h => .pure (hr ρ' r r' hle h)

/-! ## What the library offers -/

variable {p p' q q' : PromiseId}

lemma twins_create : (create : Script P PromiseId).Twins D Renaming.promise ρ c create :=
  twins_once (o := .create) rfl fun _ _ _ _ h => h

lemma twins_createUnder (s : Segment) :
    (createUnder s : Script P PromiseId).Twins D Renaming.promise ρ c (createUnder s) :=
  twins_once (o := .createUnder s) rfl fun _ _ _ _ h => h

lemma twins_settle (hp : ρ.promise p p') {s s' : Settlement P.Value P.Error}
    (h : s.Alike (D.ours.segment ρ) s') :
    (once (.settle p s)).Twins D Renaming.same ρ c (once (.settle p' s')) :=
  twins_once (o := .settle p s) ⟨p', s', rfl, hp, h⟩ fun _ _ _ _ h => h

lemma twins_fulfill (hp : ρ.promise p p') (v : P.Value) :
    (fulfill p v).Twins D Renaming.same ρ c (fulfill p' v) :=
  twins_settle hp (.fulfilled v)

lemma twins_fail (hp : ρ.promise p p') (e : P.Error) :
    (fail p e).Twins D Renaming.same ρ c (fail p' e) :=
  twins_settle hp (.failed e .none)

lemma twins_failBecause (hp : ρ.promise p p') (e : P.Error) {t t' : Trace P.Error}
    (h : t.Alike (D.ours.segment ρ) t') :
    (failBecause p e t).Twins D Renaming.same ρ c (failBecause p' e t') :=
  twins_settle hp (.failed e (.some h))

lemma twins_observe (hp : ρ.promise p p') {ob ob' : Observer P} (h : ob.Twin D ρ ob') :
    (observe p ob).Twins D Renaming.same ρ c (observe p' ob') :=
  .observe hp h.awaits h.callbacks fun _ _ => .pure rfl

lemma twins_view (hp : ρ.promise p p') :
    (view p : Script P _).Twins D (fun ρ => View.Alike (D.ours.segment ρ)) ρ c (view p') :=
  twins_once (o := .view p) ⟨p', rfl, hp⟩ fun _ _ _ _ h => h

lemma twins_schedule (delay : Duration) {body body' : Script P Unit}
    (h : ∀ ρ' c, ρ ≤ ρ' → body.Twins D Renaming.same ρ' c body') :
    (schedule delay body).Twins D Renaming.same ρ c (schedule delay body') :=
  .schedule delay h fun _ _ => .pure rfl

lemma twins_now : (now : Script P Duration).Twins D Renaming.same ρ c now :=
  twins_once (o := .now) rfl fun _ _ _ _ h => h

lemma twins_emit (e : Event) : (emit e : Script P Unit).Twins D Renaming.same ρ c (emit e) :=
  twins_once (o := .emit e) rfl fun _ _ _ _ h => h

lemma twins_note {n n' : P.Note} (h : D.ours.note ρ n n') :
    (note n : Script P Unit).Twins D Renaming.same ρ c (note n') :=
  twins_once (o := .note n) ⟨n', rfl, h⟩ fun _ _ _ _ h => h

lemma twins_load : (load : Script P P.Store).Twins D
    (fun ρ x x' => D.store ρ c.names x c.store x') ρ c load :=
  twins_once (o := .load) rfl fun _ _ _ _ h => h

lemma twins_save {x x' : P.Store} (h : D.store ρ c.names x c.store x') :
    (save x : Script P Unit).Twins D Renaming.same ρ c (save x') :=
  twins_once (o := .save x) ⟨x', rfl, h⟩ fun _ _ _ _ h => h

lemma twins_later (delay : Duration) {body body' : Script P Unit}
    (h : ∀ ρ' c, ρ ≤ ρ' → body.Twins D Renaming.same ρ' c body') :
    (later delay body).Twins D Renaming.same ρ c (later delay body') :=
  (twins_emit _).then fun _ _ hle =>
    twins_schedule delay fun ρ' c h' => h ρ' c (Renaming.le_trans hle h')

lemma twins_settleWith (hp : ρ.promise p p') (r : Except P.Error P.Value) :
    (settleWith p r).Twins D Renaming.same ρ c (settleWith p' r) := by
  cases r with
  | ok v => exact (twins_fulfill hp v).discard
  | error e => exact (twins_fail hp e).discard

lemma twins_passValue (hp : ρ.promise p p') (v : P.Value) :
    (passValue p v).Twins D Renaming.same ρ c (passValue p' v) :=
  (twins_fulfill hp v).discard

lemma twins_passFailure (hp : ρ.promise p p') {t t' : Trace P.Error}
    (h : t.Alike (D.ours.segment ρ) t') :
    (passFailure p t).Twins D Renaming.same ρ c (passFailure p' t') := by
  rw [passFailure, passFailure, h.error_eq]
  exact (twins_failBecause hp t'.error h).discard

/-- What an observer does that passes failures on. -/
lemma twin_passing (hp : ρ.promise p p') {f f' : P.Value → Script P Unit}
    (hf : ∀ ρ' c v, ρ ≤ ρ' → (f v).Twins D Renaming.same ρ' c (f' v)) :
    (Observer.onEither f (passFailure p)).Twin D ρ (.onEither f' (passFailure p')) :=
  .onEither hf fun _ _ _ _ hle => twins_passFailure (hp.mono hle)

lemma twins_forward (hp : ρ.promise p p') (hq : ρ.promise q q') :
    (forward p q : Script P Unit).Twins D Renaming.same ρ c (forward p' q') :=
  twins_observe hp (twin_passing hq fun _ _ v hle => twins_passValue (hq.mono hle) v)

lemma twins_forwardValue (hp : ρ.promise p p') (hq : ρ.promise q q') :
    (forwardValue p q : Script P Unit).Twins D Renaming.same ρ c (forwardValue p' q') :=
  twins_observe hp (.onSuccess fun _ _ v hle => twins_passValue (hq.mono hle) v)

lemma twins_forwardFailure (hp : ρ.promise p p') (hq : ρ.promise q q') :
    (forwardFailure p q : Script P Unit).Twins D Renaming.same ρ c (forwardFailure p' q') :=
  twins_observe hp (.onFailure fun _ _ _ _ hle => twins_passFailure (hq.mono hle))

/-- A promise is made, something is done for it, and it is the answer. -/
lemma twins_result {f f' : PromiseId → Script P Unit}
    (hf : ∀ ρ' p p', ρ ≤ ρ' → ρ'.promise p p' → (f p).Twins D Renaming.same ρ' c (f' p')) :
    (create.bind fun p => (f p).bind fun _ => .pure p).Twins D Renaming.promise ρ c
      (create.bind fun p => (f' p).bind fun _ => .pure p) :=
  twins_create.bind fun ρ' p p' hle hp =>
    (hf ρ' p p' hle hp).then fun _ _ hle' => .pure (hp.mono hle')

lemma twins_ofValue (v : P.Value) : (ofValue v).Twins D Renaming.promise ρ c (ofValue v) :=
  twins_result fun _ _ _ _ hp => (twins_fulfill hp v).discard

lemma twins_ofError (e : P.Error) : (ofError e).Twins D Renaming.promise ρ c (ofError e) :=
  twins_result fun _ _ _ _ hp => (twins_fail hp e).discard

lemma twins_fulfillAfter (v : P.Value) (delay : Duration) :
    (fulfillAfter v delay).Twins D Renaming.promise ρ c (fulfillAfter v delay) :=
  twins_result fun _ _ _ _ hp =>
    twins_later delay fun _ _ hle => (twins_fulfill (hp.mono hle) v).discard

lemma twins_failAfter (e : P.Error) (delay : Duration) :
    (failAfter e delay).Twins D Renaming.promise ρ c (failAfter e delay) :=
  twins_result fun _ _ _ _ hp =>
    twins_later delay fun _ _ hle => (twins_fail (hp.mono hle) e).discard

lemma twins_defer (delay : Duration) {thunk thunk' : Script P (Except P.Error P.Value)}
    (h : ∀ ρ' c, ρ ≤ ρ' → thunk.Twins D Renaming.same ρ' c thunk') :
    (defer delay thunk).Twins D Renaming.promise ρ c (defer delay thunk') :=
  twins_result fun _ _ _ hle hp => twins_later delay fun ρ' c hle' =>
    (h ρ' c (Renaming.le_trans hle hle')).then fun _ r hle₁ =>
      twins_settleWith (hp.mono (Renaming.le_trans hle' hle₁)) r

lemma twins_deferLazily {thunk thunk' : Script P PromiseId}
    (h : ∀ ρ' c, ρ ≤ ρ' → thunk.Twins D Renaming.promise ρ' c thunk') :
    (deferLazily thunk).Twins D Renaming.promise ρ c (deferLazily thunk') :=
  twins_result fun _ _ _ hle hp => twins_later .zero fun ρ' c hle' =>
    (h ρ' c (Renaming.le_trans hle hle')).bind fun _ _ _ hle₁ hq =>
      twins_forward hq (hp.mono (Renaming.le_trans hle' hle₁))

lemma twins_andThen (hp : ρ.promise p p') {f f' : P.Value → Script P (Except P.Error P.Value)}
    (hf : ∀ ρ' c v, ρ ≤ ρ' → (f v).Twins D Renaming.same ρ' c (f' v)) :
    (andThen p f).Twins D Renaming.promise ρ c (andThen p' f') :=
  twins_result fun _ _ _ hle hq =>
    twins_observe (hp.mono hle) (twin_passing hq fun ρ' c v hle' =>
      (hf ρ' c v (Renaming.le_trans hle hle')).then fun _ r hle₁ =>
        twins_settleWith (hq.mono (Renaming.le_trans hle' hle₁)) r)

lemma twins_andThenLazily (hp : ρ.promise p p') {f f' : P.Value → Script P PromiseId}
    (hf : ∀ ρ' c v, ρ ≤ ρ' → (f v).Twins D Renaming.promise ρ' c (f' v)) :
    (andThenLazily p f).Twins D Renaming.promise ρ c (andThenLazily p' f') :=
  twins_result fun _ _ _ hle hq =>
    twins_observe (hp.mono hle) (twin_passing hq fun ρ' c v hle' =>
      (hf ρ' c v (Renaming.le_trans hle hle')).bind fun _ _ _ hle₁ hr =>
        twins_forward hr (hq.mono (Renaming.le_trans hle' hle₁)))

lemma twins_fromCallback {operation operation' : Callback → Script P (Except P.Error Unit)}
    (h : ∀ ρ' d d', ρ ≤ ρ' → ρ'.promise d.target d'.target →
      (operation d).Twins D Renaming.same ρ' c (operation' d')) :
    (fromCallback operation).Twins D Renaming.promise ρ c (fromCallback operation') := by
  refine twins_create.bind fun ρ₁ p p' hle hp => (h ρ₁ ⟨p⟩ ⟨p'⟩ hle hp).then fun ρ₂ r hle' => ?_
  cases r with
  | ok => exact .pure (hp.mono hle')
  | error e =>
    exact (twins_fail (hp.mono hle') e).discard.then fun _ _ hle₁ =>
      .pure (hp.mono (Renaming.le_trans hle' hle₁))

variable {ps ps' : List PromiseId}

lemma twins_forwardEach (hp : ρ.promise p p') (hps : ρ.inputs ps ps') :
    (forwardEach p ps : Script P Unit).Twins D Renaming.same ρ c (forwardEach p' ps') := by
  induction ps generalizing ρ ps' with
  | nil =>
    cases hps
    exact .pure rfl
  | cons q qs ih =>
    rcases hps with _ | ⟨hq, hqs⟩
    exact (twins_forward hq hp).then fun ρ' _ hle =>
      ih (hp.mono hle) (Renaming.inputs.mono hqs hle)

lemma twins_select (hps : ρ.inputs ps ps') :
    (select ps : Script P PromiseId).Twins D Renaming.promise ρ c (select ps') :=
  twins_result fun _ _ _ hle hp => twins_forwardEach hp (hps.mono hle)

lemma twins_withTimeout (hp : ρ.promise p p') (limit : Duration) :
    (withTimeout p limit : Script P PromiseId).Twins D Renaming.promise ρ c
      (withTimeout p' limit) :=
  (twins_failAfter (P.timeout limit) limit).bind fun _ _ _ hle hq =>
    twins_select (.cons (hp.mono hle) (.cons hq .nil))

lemma twins_fulfillSince (hp : ρ.promise p p') (start : Duration) :
    (fulfillSince p start : Script P Unit).Twins D Renaming.same ρ c (fulfillSince p' start) :=
  twins_now.then fun _ clock hle =>
    (twins_fulfill (hp.mono hle) (P.span (clock.monus start))).discard

lemma twins_elapsed (hp : ρ.promise p p') :
    (elapsed p : Script P PromiseId).Twins D Renaming.promise ρ c (elapsed p') :=
  twins_create.bind fun _ _ _ hle hq => twins_now.then fun _ start hle' => by
    have hq' := hq.mono hle'
    have hwait := twins_observe (D := D) (c := c) (hp.mono (Renaming.le_trans hle hle'))
      (.onEither (fun _ _ _ h => twins_fulfillSince (hq'.mono h) start)
        fun _ _ _ _ h _ => twins_fulfillSince (hq'.mono h) start)
    exact hwait.then fun _ _ h => .pure (hq'.mono h)

variable {g g' : GatheringId} {h h' : PairingId}

lemma twins_gatherInto (hp : ρ.promise p p') (hg : ρ.gathering g g') (i : Nat) (v : P.Value) :
    (gatherInto p g i v).Twins D Renaming.same ρ c (gatherInto p' g' i v) := by
  have hgather : (once (.gather g i v)).Twins D Renaming.same ρ c (once (.gather g' i v)) :=
    twins_once (o := .gather g i v) ⟨g', rfl, hg⟩ fun _ _ _ _ h => h
  refine hgather.then fun _ complete hle => ?_
  cases complete with
  | none => exact .pure rfl
  | some vs => exact twins_passValue (hp.mono hle) (P.list vs)

lemma twins_gatherEach (hp : ρ.promise p p') (hg : ρ.gathering g g') (i : Nat)
    (hps : ρ.inputs ps ps') : (gatherEach p g i ps : Script P Unit).Twins D Renaming.same ρ c
      (gatherEach p' g' i ps') := by
  induction ps generalizing ρ ps' i with
  | nil =>
    cases hps
    exact .pure rfl
  | cons q qs ih =>
    rcases hps with _ | ⟨hq, hqs⟩
    have hwait := twins_observe (D := D) (c := c) hq (twin_passing hp fun _ _ v h =>
      twins_gatherInto (hp.mono h) (hg.mono h) i v)
    exact hwait.then fun _ _ hle =>
      ih (hp.mono hle) (hg.mono hle) (i + 1) (Renaming.inputs.mono hqs hle)

lemma twins_join (hps : ρ.inputs ps ps') :
    (join ps : Script P PromiseId).Twins D Renaming.promise ρ c (join ps') := by
  refine twins_create.bind fun ρ₁ p p' hle hp => ?_
  have hps₁ := hps.mono hle
  -- a join of nothing is settled at once
  cases hps₁ with
  | nil => exact (twins_fulfill hp (P.list [])).discard.then fun _ _ h => .pure (hp.mono h)
  | @cons q q' qs qs' hq hqs =>
    have hlength : (q :: qs).length = (q' :: qs').length := (List.Forall₂.cons hq hqs).length_eq
    have hopen : (once (.openGathering (q :: qs).length) : Script P _).Twins D Renaming.gathering
        ρ₁ c (once (.openGathering (q' :: qs').length)) := by
      rw [hlength]
      exact twins_once (o := .openGathering _) rfl fun _ _ _ _ h => h
    have hgather : (Script.bind (once (.openGathering (q :: qs).length)) fun g =>
        (gatherEach p g 0 (q :: qs)).bind fun _ => .pure p : Script P _).Twins D
          Renaming.promise ρ₁ c (Script.bind (once (.openGathering (q' :: qs').length)) fun g =>
            (gatherEach p' g 0 (q' :: qs')).bind fun _ => .pure p') :=
      hopen.bind fun _ _ _ h hg =>
        (twins_gatherEach (hp.mono h) hg 0
          (Renaming.inputs.mono (.cons hq hqs) h)).then fun _ _ h' =>
            .pure (hp.mono (Renaming.le_trans h h'))
    exact hgather

lemma twins_coupleInto (hp : ρ.promise p p') (hh : ρ.pairing h h') (side : Side) (v : P.Value) :
    (coupleInto p h side v).Twins D Renaming.same ρ c (coupleInto p' h' side v) := by
  have hcouple : (once (.couple h side v)).Twins D Renaming.same ρ c (once (.couple h' side v)) :=
    twins_once (o := .couple h side v) ⟨h', rfl, hh⟩ fun _ _ _ _ h => h
  refine hcouple.then fun _ complete hle => ?_
  cases complete with
  | none => exact .pure rfl
  | some vs => exact twins_passValue (hp.mono hle) (P.pair vs.1 vs.2)

lemma twins_joinPair (hp : ρ.promise p p') (hq : ρ.promise q q') :
    (joinPair p q : Script P PromiseId).Twins D Renaming.promise ρ c (joinPair p' q') := by
  have hopen (ρ : Renaming) : (once .openPairing : Script P _).Twins D Renaming.pairing ρ c
      (once .openPairing) :=
    twins_once (o := .openPairing) rfl fun _ _ _ _ h => h
  have hwait {ρ' : Renaming} {result result' : PromiseId} {h h' : PairingId} (side : Side)
      {input input' : PromiseId} (hinput : ρ'.promise input input')
      (hresult : ρ'.promise result result') (hh : ρ'.pairing h h') :
      (observe input (.onEither (coupleInto result h side) (passFailure result))).Twins D
        Renaming.same ρ' c
        (observe input' (.onEither (coupleInto result' h' side) (passFailure result'))) :=
    twins_observe hinput (twin_passing hresult fun _ _ v hle =>
      twins_coupleInto (hresult.mono hle) (hh.mono hle) side v)
  refine twins_create.bind fun ρ₁ result result' hle hresult =>
    (hopen ρ₁).bind fun ρ₂ _ _ hle₂ hh => ?_
  have hle' := Renaming.le_trans hle hle₂
  have hresult₂ := hresult.mono hle₂
  exact (hwait .first (hp.mono hle') hresult₂ hh).then fun ρ₃ _ hle₃ =>
    (hwait .second (hq.mono (Renaming.le_trans hle' hle₃)) (hresult₂.mono hle₃)
      (hh.mono hle₃)).then fun _ _ hle₄ => .pure (hresult₂.mono (Renaming.le_trans hle₃ hle₄))

lemma twins_keepTrying {thunk thunk' : Nat → Script P PromiseId} (interval : Duration)
    {onError onError' : Trace P.Error → Script P Unit}
    (hthunk : ∀ ρ' c n, ρ ≤ ρ' → (thunk n).Twins D Renaming.promise ρ' c (thunk' n))
    (honError : ∀ ρ' c t t', ρ ≤ ρ' → t.Alike (D.ours.segment ρ') t' →
      (onError t).Twins D Renaming.same ρ' c (onError' t')) :
    (keepTrying thunk interval onError).Twins D Renaming.promise ρ c
      (keepTrying thunk' interval onError') :=
  twins_create.bind fun _ _ _ hle hp =>
    .openRetry interval hp (fun ρ' c' n h => hthunk ρ' c' n (Renaming.le_trans hle h))
      (fun ρ' c' t t' h => honError ρ' c' t t' (Renaming.le_trans hle h))
      fun _ _ _ h hr => .attempt hr fun _ h' => .pure (hp.mono (Renaming.le_trans h h'))

end Script

/-! ## Retry loops -/

/-- A retry loop alone and in the shared run. -/
structure Retry.Twin (D : Sharing P) (ρ : Renaming) (t t' : Retry P) : Prop where
  result : ρ.promise t.result t'.result
  interval_eq : t.interval = t'.interval
  attempts_eq : t.attempts = t'.attempts
  thunk : ∀ ρ' c n, ρ ≤ ρ' → (t.thunk n).Twins D Renaming.promise ρ' c (t'.thunk n)
  onError : ∀ ρ' c e e', ρ ≤ ρ' → e.Alike (D.ours.segment ρ') e' →
    (t.onError e).Twins D Renaming.same ρ' c (t'.onError e')

namespace Retry

variable {t t' : Retry P} {r r' : RetryId}

lemma Twin.mono (h : t.Twin D ρ t') (hle : ρ ≤ ρ') : t.Twin D ρ' t' where
  result := h.result.mono hle
  interval_eq := h.interval_eq
  attempts_eq := h.attempts_eq
  thunk ρ₁ c n h₁ := h.thunk ρ₁ c n (Renaming.le_trans hle h₁)
  onError ρ₁ c e e' h₁ := h.onError ρ₁ c e e' (Renaming.le_trans hle h₁)

lemma Twin.afterFailure (h : t.Twin D ρ t') (hr : ρ.retry r r') (n : Nat) {e e' : Trace P.Error}
    (he : e.Alike (D.ours.segment ρ) e') :
    (t.afterFailure r n e).Twins D Renaming.same ρ c (t'.afterFailure r' n e') := by
  unfold Retry.afterFailure
  rw [← h.interval_eq]
  have he' {ρ₁ : Renaming} (h₁ : ρ ≤ ρ₁) : e.Alike (D.ours.segment ρ₁) e' :=
    he.imp fun _ _ hs => D.ours.segment_mono hs h₁
  exact (Script.twins_emit _).then fun ρ₁ _ h₁ =>
    (h.onError ρ₁ c e e' h₁ (he' h₁)).then fun _ _ h₂ =>
      Script.twins_later t.interval fun _ _ h₃ =>
        .attempt (hr.mono (Renaming.le_trans h₁ (Renaming.le_trans h₂ h₃))) fun _ _ => .pure rfl

/-- **An attempt is the same in both runs.** -/
theorem Twin.nextAttempt (h : t.Twin D ρ t') (hr : ρ.retry r r') :
    (t.nextAttempt r).Twins D Renaming.same ρ c (t'.nextAttempt r') := by
  refine (Script.twins_view h.result).bind fun ρ₁ v v' h₁ hv => ?_
  rw [hv.isSettled_eq, ← h.attempts_eq]
  split
  · exact Script.twins_emit _
  · have hcount : (Script.once (.countAttempt r) : Script P Unit).Twins D Renaming.same ρ₁ c
        (Script.once (.countAttempt r')) :=
      Script.twins_once (o := .countAttempt r) ⟨r', rfl, hr.mono h₁⟩ fun _ _ _ _ h => h
    refine hcount.then fun ρ₂ _ h₂ => ?_
    have hle := Renaming.le_trans h₁ h₂
    refine (h.thunk ρ₂ c t.attempts hle).bind fun ρ₃ next next' h₃ hnext => ?_
    have hle' := Renaming.le_trans hle h₃
    refine Script.twins_observe hnext (.onEither (fun _ _ v h₄ => ?_) fun _ _ e e' h₄ he => ?_)
    · exact Script.twins_passValue ((h.result.mono hle').mono h₄) v
    · exact ((h.mono hle').mono h₄).afterFailure ((hr.mono hle').mono h₄) _ he

end Retry

end Eventual
