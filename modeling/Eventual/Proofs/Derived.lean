import Eventual.Combinator.Join
import Eventual.Proofs.Buffer
import Eventual.Proofs.Registration

/-!
# Networks of derived promises

A network is made over given promises by sequencing and joining, one promise after the other, each
from given ones and from those made before (`Derived`).  How a promise ends is settled in advance by
how the given ones end: its verdict is its value, or that it fails (`verdicts`).

Whatever the order in which tasks are run, everything that is still to be done for the network is in
an observer that waits with a promise or in a task.  Such an observer has an errand: to settle a
promise, or to put a value into one place of a buffer.  `Plan.Safe` says that every observer on its
way has an errand and will be told what the verdicts say, and that no buffer holds anything else;
`Plan.Moves` and `Plan.Retains` list what may happen to the promises and tasks, and to the buffers,
without disturbing that, and no errand gets lost then (`Plan.Safe.advances`).
-/

namespace Eventual

variable {P : Payload}

/-! ## Values -/

/-- The value of a settlement; none for a failure. -/
def Settlement.value? {V E : Type} : Settlement V E → Option V
  | .fulfilled v => some v
  | .failed _ _ => none

/-- The value that is delivered; none for a failure. -/
def Outcome.value? {V E : Type} : Outcome V E → Option V
  | .succeeded v => some v
  | .failed _ => none

@[simp] lemma Settlement.value?_outcome {V E : Type} (s : Settlement V E)
    (segment? : Option Segment) : (s.outcome segment?).value? = s.value? := by
  cases s <;> rfl

/-! ## Derived promises -/

/-- What the callback of a lazy sequencing gives: a promise that exists, or a new one that is
settled at once. -/
inductive Lead (P : Payload) where
  /-- A promise that exists. -/
  | promise (p : PromiseId)
  /-- A promise that is fulfilled. -/
  | value (v : P.Value)
  /-- A promise that has failed. -/
  | error (e : P.Error)

/-- How a promise is derived from others.  Callbacks have no effects, so they are functions. -/
inductive Derived (P : Payload) where
  /-- By what a function makes of a value. -/
  | andThen (input : PromiseId) (f : P.Value → Except P.Error P.Value)
  /-- By following what a function leads to. -/
  | andThenLazily (input : PromiseId) (f : P.Value → Lead P)
  /-- By joining any number of promises. -/
  | join (inputs : List PromiseId)
  /-- By joining two. -/
  | joinPair (first second : PromiseId)

namespace Lead

/-- The callback. -/
def script : Lead P → Script P PromiseId
  | promise p => .pure p
  | value v => Script.ofValue v
  | error e => Script.ofError e

/-- How the promise ends, by how others end. -/
def verdict (V : PromiseId → Option P.Value) : Lead P → Option P.Value
  | promise p => V p
  | value v => some v
  | error _ => none

end Lead

namespace Derived

/-- The script that makes the promise. -/
def script : Derived P → Script P PromiseId
  | andThen p f => Script.andThen p fun v => pure (f v)
  | andThenLazily p f => Script.andThenLazily p fun v => (f v).script
  | join ps => Script.join ps
  | joinPair p q => Script.joinPair p q

/-- How the promise ends, by how others end. -/
def verdict (V : PromiseId → Option P.Value) : Derived P → Option P.Value
  | andThen p f => (V p).bind fun v => (f v).toOption
  | andThenLazily p f => (V p).bind fun v => (f v).verdict V
  | join ps => (ps.mapM V).map P.list
  | joinPair p q => (V p).bind fun a => (V q).map (P.pair a)

/-- The promises that are used are of a kind. -/
def Uses (U : PromiseId → Prop) : Derived P → Prop
  | andThen p _ => U p
  | andThenLazily p f => U p ∧ ∀ v q, f v = .promise q → U q
  | join ps => ∀ p ∈ ps, U p
  | joinPair p q => U p ∧ U q

variable {U U' : PromiseId → Prop} {V V' : PromiseId → Option P.Value} {d : Derived P}

lemma Uses.mono (h : d.Uses U) (hU : ∀ p, U p → U' p) : d.Uses U' := by
  cases d with
  | andThen p f => exact hU p h
  | andThenLazily p f => exact ⟨hU p h.1, fun v q hq => hU q (h.2 v q hq)⟩
  | join ps => exact fun p hp => hU p (h p hp)
  | joinPair p q => exact ⟨hU p h.1, hU q h.2⟩

/-- A verdict depends on the promises that are used. -/
lemma Uses.verdict_congr (h : d.Uses U) (hV : ∀ p, U p → V p = V' p) :
    d.verdict V = d.verdict V' := by
  cases d with
  | andThen p f => rw [verdict, verdict, hV p h]
  | andThenLazily p f =>
    rw [verdict, verdict, hV p h.1]
    refine congrArg (Option.bind (V' p)) (funext fun v => ?_)
    rcases hq : f v with q | v' | e
    · exact hV q (h.2 v q hq)
    · rfl
    · rfl
  | join ps =>
    have hmap : ps.mapM V = ps.mapM V' := by
      induction ps with
      | nil => rfl
      | cons p ps ih =>
        rw [List.mapM_cons, List.mapM_cons, hV p (h p (.head ps)),
          ih fun p' hp' => h p' (.tail p hp')]
    rw [verdict, verdict, hmap]
  | joinPair p q => rw [verdict, verdict, hV p h.1, hV q h.2]

end Derived

/-- How promises end, by how the given ones end, when promises are derived one after the other: the
first of them has the number `next`. -/
def verdicts (given : PromiseId → Option P.Value) (next : Nat) :
    List (Derived P) → PromiseId → Option P.Value
  | [] => given
  | d :: ds => verdicts (Function.update given ⟨next⟩ (d.verdict given)) (next + 1) ds

lemma verdicts_of_lt {given : PromiseId → Option P.Value} {next : Nat} {ds : List (Derived P)}
    {p : PromiseId} (hp : p.index < next) : verdicts given next ds p = given p := by
  induction ds generalizing given next with
  | nil => rfl
  | cons d ds ih =>
    have hne : p ≠ ⟨next⟩ := by
      rintro rfl
      exact Nat.lt_irrefl _ hp
    rw [verdicts, ih (Nat.lt_succ_of_lt hp), Function.update_of_ne hne]

/-- **The verdicts are those of the derivations.** -/
theorem verdicts_eq {given : PromiseId → Option P.Value} {next i : Nat} {ds : List (Derived P)}
    {d : Derived P} (hd : ds[i]? = some d) (huses : d.Uses fun p => p.index < next + i) :
    verdicts given next ds ⟨next + i⟩ = d.verdict (verdicts given next ds) := by
  induction ds generalizing given next i with
  | nil => simp at hd
  | cons d' ds ih =>
    cases i with
    | zero =>
      obtain rfl : d' = d := by simpa using hd
      rw [Nat.add_zero, verdicts, verdicts_of_lt (Nat.lt_succ_self next), Function.update_self]
      refine huses.verdict_congr fun p hp => ?_
      have hne : p ≠ ⟨next⟩ := by
        rintro rfl
        exact Nat.lt_irrefl _ hp
      rw [verdicts_of_lt (Nat.lt_succ_of_lt hp), Function.update_of_ne hne]
    | succ i =>
      have heq : next + (i + 1) = next + 1 + i := by omega
      rw [verdicts, heq]
      exact ih (by simpa using hd) (heq ▸ huses)

/-! ## Errands -/

/-- What an observer of the network is to do. -/
inductive Errand where
  /-- Settle a promise by what follows the value of its input. -/
  | next (q : PromiseId)
  /-- Settle a promise as the promise is settled that it follows. -/
  | pass (q : PromiseId)
  /-- Put a value into a place of a join. -/
  | place (q : PromiseId) (i : Nat)
  /-- Put a value on a side of a pair. -/
  | side (q : PromiseId) (s : Side)

/-- The promise that an errand is for. -/
def Errand.target : Errand → PromiseId
  | next q | pass q | place q _ | side q _ => q

/-- A network: how its promises are derived and end, and which buffers they use. -/
structure Plan (P : Payload) where
  /-- How the promises end. -/
  verdict : PromiseId → Option P.Value
  /-- The promises that are given. -/
  given : PromiseId → Prop
  /-- How the other ones are derived. -/
  derived : PromiseId → Option (Derived P)
  /-- The gatherings of the joins. -/
  gathering : PromiseId → GatheringId
  /-- The pairings of the joins of two. -/
  pairing : PromiseId → PairingId

/-- The input for a side of a pair. -/
def Side.pick {α : Type} (a b : α) : Side → α
  | first => a
  | second => b

/-- The value on a side of a pairing. -/
def Pairing.at {V : Type} (π : Pairing V) : Side → Option V
  | .first => π.first
  | .second => π.second

namespace Plan

/-- A promise belongs to the network. -/
def Known (N : Plan P) (p : PromiseId) : Prop := N.given p ∨ ∃ d, N.derived p = some d

/-- Promises are derived from older ones of the network, their verdicts are those of their
derivations, and joins do not share their buffers. -/
structure Sound (N : Plan P) : Prop where
  verdict_eq : ∀ q d, N.derived q = some d → N.verdict q = d.verdict N.verdict
  uses : ∀ q d, N.derived q = some d → d.Uses fun p => N.Known p ∧ p.index < q.index
  gathering_inj : ∀ q q' ps ps', N.derived q = some (.join ps) → N.derived q' = some (.join ps') →
    ps ≠ [] → ps' ≠ [] → N.gathering q = N.gathering q' → q = q'
  pairing_inj : ∀ q q' a b a' b', N.derived q = some (.joinPair a b) →
    N.derived q' = some (.joinPair a' b') → N.pairing q = N.pairing q' → q = q'

/-- An observer has an errand, for which it has to be told this value or a failure. -/
inductive Serves (N : Plan P) : Errand → Observer P → Option P.Value → Prop
  /-- A function is applied to the value. -/
  | andThen {q p : PromiseId} {f : P.Value → Except P.Error P.Value}
      (derived : N.derived q = some (.andThen p f)) :
      Serves N (.next q) (.onEither (fun v => Script.settleWith q (f v)) (Script.passFailure q))
        (N.verdict p)
  /-- A function leads to the promise that is followed. -/
  | andThenLazily {q p : PromiseId} {f : P.Value → Lead P}
      (derived : N.derived q = some (.andThenLazily p f)) :
      Serves N (.next q) (.onEither (fun v => (f v).script.bind fun p => Script.forward p q)
        (Script.passFailure q)) (N.verdict p)
  /-- The promise is followed. -/
  | pass {q p : PromiseId} {f : P.Value → Lead P}
      (derived : N.derived q = some (.andThenLazily p f)) :
      Serves N (.pass q) (.onEither (Script.passValue q) (Script.passFailure q)) (N.verdict q)
  /-- The value goes into a place. -/
  | place {q p : PromiseId} {ps : List PromiseId} {i : Nat}
      (derived : N.derived q = some (.join ps)) (input : ps[i]? = some p) :
      Serves N (.place q i) (.onEither (Script.gatherInto q (N.gathering q) i)
        (Script.passFailure q)) (N.verdict p)
  /-- The value goes to a side. -/
  | side {q a b : PromiseId} {s : Side} (derived : N.derived q = some (.joinPair a b)) :
      Serves N (.side q s) (.onEither (Script.coupleInto q (N.pairing q) s) (Script.passFailure q))
        (N.verdict (s.pick a b))

/-- An errand belongs to a network. -/
inductive Made (N : Plan P) : Errand → Prop
  /-- A function is applied. -/
  | andThen {q p : PromiseId} {f : P.Value → Except P.Error P.Value}
      (derived : N.derived q = some (.andThen p f)) : Made N (.next q)
  /-- A function leads to a promise. -/
  | andThenLazily {q p : PromiseId} {f : P.Value → Lead P}
      (derived : N.derived q = some (.andThenLazily p f)) : Made N (.next q)
  /-- A place is to be taken. -/
  | place {q : PromiseId} {ps : List PromiseId} {i : Nat} (derived : N.derived q = some (.join ps))
      (lt : i < ps.length) : Made N (.place q i)
  /-- A side is to be taken. -/
  | side {q a b : PromiseId} {s : Side} (derived : N.derived q = some (.joinPair a b)) :
      Made N (.side q s)

/-- An observer has an errand. -/
def Right (N : Plan P) (ob : Observer P) (x : Option P.Value) : Prop := ∃ e, N.Serves e ob x

/-- A promise of the network holds what it should. -/
def Fits (N : Plan P) (p : PromiseId) : Slot P → Prop
  | .unresolved rs => ∀ r ∈ rs, N.Right r.observer (N.verdict p)
  | .settled s => s.value? = N.verdict p

/-- A task tells observers that have errands what they have to be told. -/
def Tells (N : Plan P) (work : Work P) : Prop :=
  ∃ p o rs, work = .delivery p o rs ∧ ∀ r ∈ rs, N.Right r.observer o.value?

/-- A gathering of a join that is not over: the values are those of the inputs, and one is
missing. -/
structure Gathers (N : Plan P) (ps : List PromiseId) (γ : Gathering P.Value) : Prop where
  tallied : γ.Tallied
  length_eq : γ.values.length = ps.length
  missing : none ∈ γ.values
  values : ∀ (i : Nat) p v, ps[i]? = some p → γ.values[i]? = some (some v) → N.verdict p = some v

lemma Gathers.ne_nil {N : Plan P} {ps : List PromiseId} {γ : Gathering P.Value}
    (h : N.Gathers ps γ) : ps ≠ [] := by
  rintro rfl
  have hnil : γ.values = [] := List.length_eq_zero_iff.mp h.length_eq
  have hmissing := h.missing
  rw [hnil] at hmissing
  cases hmissing

/-- A pairing of a join of two that is not over. -/
structure Couples (N : Plan P) (a b : PromiseId) (π : Pairing P.Value) : Prop where
  missing : π.first = none ∨ π.second = none
  values : ∀ s v, π.at s = some v → N.verdict (s.pick a b) = some v

end Plan

/-- A promise is settled. -/
def World.IsSettled (w : World P) (p : PromiseId) : Prop :=
  ∃ s, (w.view p).settlement? = some s

namespace Plan

/-- Nothing in a world is at odds with the verdicts. -/
structure Safe (N : Plan P) (w : World P) : Prop where
  promise : ∀ p, N.Known p → ∃ a, w.promises[p.index]? = some a ∧ N.Fits p a.slot
  tasks : ∀ t ∈ w.queue.waiting, N.Tells t.body
  gathers : ∀ q ps, N.derived q = some (.join ps) → ¬ w.IsSettled q →
    ∃ γ, w.gatherings[(N.gathering q).index]? = some γ ∧ N.Gathers ps γ
  couples : ∀ q a b, N.derived q = some (.joinPair a b) → ¬ w.IsSettled q →
    ∃ π, w.pairings[(N.pairing q).index]? = some π ∧ N.Couples a b π

/-- An observer with an errand waits with an older promise of the network, or in a task. -/
def Open (N : Plan P) (w : World P) (e : Errand) : Prop :=
  (∃ p, N.Known p ∧ p.index < e.target.index ∧
    ∃ r ∈ w.waitingFor p, N.Serves e r.observer (N.verdict p)) ∨
  ∃ t ∈ w.queue.waiting, ∃ p o rs, t.body = .delivery p o rs ∧
    ∃ r ∈ rs, N.Serves e r.observer o.value?

/-- An errand has been run: the promise is settled, or the place is taken. -/
def Reached (N : Plan P) (w : World P) : Errand → Prop
  | .next q | .pass q => w.IsSettled q
  | .place q i => w.IsSettled q ∨
      ∃ γ v, w.gatherings[(N.gathering q).index]? = some γ ∧ γ.values[i]? = some (some v)
  | .side q s => w.IsSettled q ∨
      ∃ π v, w.pairings[(N.pairing q).index]? = some π ∧ π.at s = some v

/-! ## What may happen -/

/-- What may become of a promise of the network.  When it is settled, a task tells those who
waited. -/
inductive Turns (N : Plan P) (w' : World P) (p : PromiseId) : Slot P → Slot P → Prop
  /-- Nothing. -/
  | same {slot : Slot P} : Turns N w' p slot slot
  /-- An observer comes in. -/
  | enlist {rs : List (Registration P)} {r : Registration P}
      (right : N.Right r.observer (N.verdict p)) :
      Turns N w' p (.unresolved rs) (.unresolved (rs ++ [r]))
  /-- It is settled as the verdict says. -/
  | settle {rs : List (Registration P)} {s : Settlement P.Value P.Error}
      (value : s.value? = N.verdict p)
      (told : ∀ r ∈ rs, ∃ t ∈ w'.queue.waiting, ∃ p' o rs', t.body = .delivery p' o rs' ∧
        r ∈ rs' ∧ o.value? = N.verdict p) : Turns N w' p (.unresolved rs) (.settled s)

/-- What may happen to the promises and tasks. -/
structure Moves (N : Plan P) (w w' : World P) : Prop where
  turns : ∀ p, N.Known p → ∀ a, w.promises[p.index]? = some a →
    ∃ b, w'.promises[p.index]? = some b ∧ N.Turns w' p a.slot b.slot
  kept : ∀ t ∈ w.queue.waiting, t ∈ w'.queue.waiting
  added : ∀ t ∈ w'.queue.waiting, t ∈ w.queue.waiting ∨ N.Tells t.body

/-- What may happen to the buffers: as long as a join is not over, its buffer loses nothing. -/
structure Retains (N : Plan P) (w w' : World P) : Prop where
  gathers : ∀ q ps γ, N.derived q = some (.join ps) → ¬ w'.IsSettled q →
    w.gatherings[(N.gathering q).index]? = some γ → N.Gathers ps γ →
    ∃ γ', w'.gatherings[(N.gathering q).index]? = some γ' ∧ N.Gathers ps γ' ∧
      ∀ (i : Nat) v, γ.values[i]? = some (some v) → ∃ v', γ'.values[i]? = some (some v')
  couples : ∀ q a b π, N.derived q = some (.joinPair a b) → ¬ w'.IsSettled q →
    w.pairings[(N.pairing q).index]? = some π → N.Couples a b π →
    ∃ π', w'.pairings[(N.pairing q).index]? = some π' ∧ N.Couples a b π' ∧
      ∀ s v, π.at s = some v → ∃ v', π'.at s = some v'

/-- A world is safe, and no errand of another one has got lost. -/
structure Advances (N : Plan P) (w w' : World P) : Prop where
  safe : N.Safe w'
  opened : ∀ e, N.Open w e → N.Open w' e
  settled : ∀ p, N.Known p → w.IsSettled p → w'.IsSettled p
  reached : ∀ e, N.Made e → N.Reached w e → N.Reached w' e

variable {N : Plan P} {w w' w₁ : World P}

lemma Advances.refl (hw : N.Safe w) : N.Advances w w :=
  ⟨hw, fun _ h => h, fun _ _ h => h, fun _ _ h => h⟩

lemma Advances.trans (h : N.Advances w w₁) (h' : N.Advances w₁ w') : N.Advances w w' :=
  ⟨h'.safe, fun e he => h'.opened e (h.opened e he),
    fun p hp hs => h'.settled p hp (h.settled p hp hs),
    fun e hm he => h'.reached e hm (h.reached e hm he)⟩

/-! ## No errand gets lost -/

lemma Moves.settled (h : N.Moves w w') {p : PromiseId} (hp : N.Known p)
    (hs : w.IsSettled p) : w'.IsSettled p := by
  obtain ⟨s, hs⟩ := hs
  obtain ⟨a, ha, hslot⟩ := World.settlement?_view_eq_some_iff.mp hs
  obtain ⟨b, hb, hturns⟩ := h.turns p hp a ha
  rw [hslot] at hturns
  generalize hslot' : b.slot = slot at hturns
  cases hturns
  exact ⟨s, World.settlement?_view_eq_some_iff.mpr ⟨b, hb, hslot'⟩⟩

lemma Moves.fits (h : N.Moves w w') (hw : N.Safe w) {p : PromiseId} (hp : N.Known p) :
    ∃ b, w'.promises[p.index]? = some b ∧ N.Fits p b.slot := by
  obtain ⟨a, ha, hfits⟩ := hw.promise p hp
  obtain ⟨b, hb, hturns⟩ := h.turns p hp a ha
  refine ⟨b, hb, ?_⟩
  generalize a.slot = slot at hturns hfits
  generalize b.slot = slot' at hturns
  cases hturns with
  | same => exact hfits
  | enlist right =>
    intro r hr
    rcases List.mem_append.mp hr with hr | hr
    · exact hfits r hr
    · obtain rfl := List.mem_singleton.mp hr
      exact right
  | settle value _ => exact value

lemma Moves.safe (h : N.Moves w w') (h' : N.Retains w w') (hw : N.Safe w) : N.Safe w' where
  promise p hp := h.fits hw hp
  tasks t ht := by
    rcases h.added t ht with ht | ht
    · exact hw.tasks t ht
    · exact ht
  gathers q ps hq hs := by
    obtain ⟨γ, hγ, hgathers⟩ :=
      hw.gathers q ps hq fun hs' => hs (h.settled (.inr ⟨_, hq⟩) hs')
    obtain ⟨γ', hγ', hgathers', -⟩ := h'.gathers q ps γ hq hs hγ hgathers
    exact ⟨γ', hγ', hgathers'⟩
  couples q a b hq hs := by
    obtain ⟨π, hπ, hcouples⟩ :=
      hw.couples q a b hq fun hs' => hs (h.settled (.inr ⟨_, hq⟩) hs')
    obtain ⟨π', hπ', hcouples', -⟩ := h'.couples q a b π hq hs hπ hcouples
    exact ⟨π', hπ', hcouples'⟩

/-- Who waits goes on waiting or is told. -/
lemma Moves.opened (h : N.Moves w w') (hw : N.Safe w) {e : Errand} (he : N.Open w e) :
    N.Open w' e := by
  rcases he with ⟨p, hp, hlt, r, hr, hserves⟩ | ⟨t, ht, hopen⟩
  · obtain ⟨a, ha, -⟩ := hw.promise p hp
    obtain ⟨b, hb, hturns⟩ := h.turns p hp a ha
    rw [World.waitingFor_of_eq_some ha] at hr
    have hwaiting := World.waitingFor_of_eq_some hb
    generalize a.slot = slot at hturns hr
    generalize b.slot = slot' at hturns hwaiting
    cases hturns with
    | same => exact .inl ⟨p, hp, hlt, r, hwaiting ▸ hr, hserves⟩
    | enlist =>
      exact .inl ⟨p, hp, hlt, r, hwaiting ▸ List.mem_append_left _ hr, hserves⟩
    | settle _ told =>
      -- the observer goes over from the list into the task
      obtain ⟨t, ht, p', o, rs', hbody, hr', ho⟩ := told r hr
      exact .inr ⟨t, ht, p', o, rs', hbody, r, hr', ho ▸ hserves⟩
  · exact .inr ⟨t, h.kept t ht, hopen⟩

/-- What has been run is done: a buffer loses nothing before its join is over. -/
lemma Moves.reached (h : N.Moves w w') (h' : N.Retains w w') (hw : N.Safe w) {e : Errand}
    (hm : N.Made e) (he : N.Reached w e) : N.Reached w' e := by
  cases hm with
  | andThen derived | andThenLazily derived => exact h.settled (.inr ⟨_, derived⟩) he
  | @place q ps i derived =>
    by_cases hq : w'.IsSettled q
    · exact .inl hq
    -- the join is not over, so the buffer still counts
    have hq' : ¬ w.IsSettled q := fun hs => hq (h.settled (.inr ⟨_, derived⟩) hs)
    obtain ⟨γ, v, hγ, hv⟩ := he.resolve_left hq'
    obtain ⟨γ₁, hγ₁, hgathers⟩ := hw.gathers q ps derived hq'
    cases hγ.symm.trans hγ₁
    obtain ⟨γ', hγ', -, hkept⟩ := h'.gathers q ps γ derived hq hγ hgathers
    obtain ⟨v', hv'⟩ := hkept i v hv
    exact .inr ⟨γ', v', hγ', hv'⟩
  | @side q a b s derived =>
    by_cases hq : w'.IsSettled q
    · exact .inl hq
    have hq' : ¬ w.IsSettled q := fun hs => hq (h.settled (.inr ⟨_, derived⟩) hs)
    obtain ⟨π, v, hπ, hv⟩ := he.resolve_left hq'
    obtain ⟨π₁, hπ₁, hcouples⟩ := hw.couples q a b derived hq'
    cases hπ.symm.trans hπ₁
    obtain ⟨π', hπ', -, hkept⟩ := h'.couples q a b π derived hq hπ hcouples
    obtain ⟨v', hv'⟩ := hkept s v hv
    exact .inr ⟨π', v', hπ', hv'⟩

/-- **Nothing that may happen loses an errand.** -/
theorem Safe.advances (hw : N.Safe w) (h : N.Moves w w') (h' : N.Retains w w') :
    N.Advances w w' where
  safe := h.safe h' hw
  opened _ he := h.opened hw he
  settled _ hp hs := h.settled hp hs
  reached _ hm he := h.reached h' hw hm he

/-- The buffers that there are stay as they are. -/
lemma retains_of_eq
    (gatherings : ∀ (i : Nat) γ, w.gatherings[i]? = some γ → w'.gatherings[i]? = some γ)
    (pairings : ∀ (i : Nat) π, w.pairings[i]? = some π → w'.pairings[i]? = some π) :
    N.Retains w w' where
  gathers _ _ γ _ _ hγ hgathers := ⟨γ, gatherings _ _ hγ, hgathers, fun _ v hv => ⟨v, hv⟩⟩
  couples _ _ _ π _ _ hπ hcouples := ⟨π, pairings _ _ hπ, hcouples, fun _ v hv => ⟨v, hv⟩⟩

lemma retains_of_unfilled (h : World.Unfilled w w') : N.Retains w w' :=
  retains_of_eq (fun _ _ hγ => by rw [h.gatherings, hγ]) fun _ _ hπ => by rw [h.pairings, hπ]

/-- The promises of the network and the tasks stay as they are. -/
lemma moves_of_eq (promises : ∀ p, N.Known p → ∀ a, w.promises[p.index]? = some a →
      ∃ b, w'.promises[p.index]? = some b ∧ b.slot = a.slot)
    (queue : w'.queue = w.queue) : N.Moves w w' where
  turns p hp a ha := by
    obtain ⟨b, hb, hslot⟩ := promises p hp a ha
    exact ⟨b, hb, hslot ▸ .same⟩
  kept _ ht := queue ▸ ht
  added _ ht := .inl (queue ▸ ht)

/-! ## Operations -/

variable {e : Errand} {ob : Observer P} {x : Option P.Value} {p q : PromiseId}

lemma Serves.awaits (h : N.Serves e ob x) (o : Outcome P.Value P.Error) : ob.awaits o = true := by
  cases h <;> cases o <;> rfl

lemma filter_eq_of_right {rs : List (Registration P)} (h : ∀ r ∈ rs, N.Right r.observer x)
    (o : Outcome P.Value P.Error) : rs.filter (·.observer.awaits o) = rs := by
  refine List.filter_eq_self.mpr fun r hr => ?_
  obtain ⟨e, he⟩ := h r hr
  exact he.awaits o

lemma mem_deliver_of_mem {queue : Queue (Work P)} {t : Task (Work P)} (ht : t ∈ queue.waiting)
    (clock : Duration) (p : PromiseId) (o : Outcome P.Value P.Error)
    (rs : List (Registration P)) : t ∈ (queue.deliver clock p o rs).waiting := by
  unfold Queue.deliver
  dsimp only
  split
  · exact ht
  · exact Queue.mem_insertTask.mpr (.inr ht)

/-- Observers with errands are told by one task. -/
lemma exists_mem_deliver {o : Outcome P.Value P.Error} {rs : List (Registration P)}
    (hrs : ∀ r ∈ rs, N.Right r.observer x) {r : Registration P} (hr : r ∈ rs)
    (queue : Queue (Work P)) (clock : Duration) (p : PromiseId) :
    ∃ t ∈ (queue.deliver clock p o rs).waiting, t.body = .delivery p o rs := by
  obtain ⟨e, he⟩ := hrs r hr
  rw [Queue.deliver_of_exists ⟨r, hr, he.awaits o⟩, filter_eq_of_right hrs]
  exact ⟨_, Queue.mem_insertTask.mpr (.inl rfl), rfl⟩

/-- The outcome goes out to observers with errands. -/
lemma moves_of_deliver {clock : Duration} {o : Outcome P.Value P.Error}
    {rs : List (Registration P)} (hrs : ∀ r ∈ rs, N.Right r.observer o.value?)
    (queue : w'.queue = w.queue.deliver clock p o rs)
    (turns : ∀ p, N.Known p → ∀ a, w.promises[p.index]? = some a →
      ∃ b, w'.promises[p.index]? = some b ∧ N.Turns w' p a.slot b.slot) : N.Moves w w' where
  turns := turns
  kept t ht := by
    rw [queue]
    exact mem_deliver_of_mem ht ..
  added t ht := by
    rw [queue] at ht
    rcases Queue.mem_deliver ht with ht | ht
    · exact .inl ht
    · rw [filter_eq_of_right hrs] at ht
      exact .inr ⟨p, o, rs, ht, hrs⟩

/-- A promise of the network is settled as its verdict says, unless it is settled. -/
lemma Safe.moves_settle (hw : N.Safe w) (hq : N.Known q) {s : Settlement P.Value P.Error}
    (hs : s.value? = N.verdict q) (promises : w₁.promises = w.promises)
    (queue : w₁.queue = w.queue) : N.Moves w (w₁.settle q s).2 := by
  obtain ⟨⟨segment?, observed, slot⟩, ha, hfits⟩ := hw.promise q hq
  rw [← promises] at ha
  rcases slot with rs | s₀
  · rw [World.settle_unresolved ha]
    have ho : (s.outcome segment?).value? = N.verdict q := by
      rw [Settlement.value?_outcome, hs]
    have hqueue : ((w₁.putPromise q ⟨segment?, observed, .settled s⟩).deliver q
        (s.outcome segment?) rs).queue =
        w.queue.deliver w₁.clock q (s.outcome segment?) rs := by
      rw [World.queue_deliver, ← queue]
      rfl
    refine moves_of_deliver (fun r hr => ho ▸ hfits r hr) hqueue fun p hp a hpa => ?_
    rw [World.promises_deliver, World.putPromise, World.getElem?_putPromise _ ha]
    by_cases hpq : p.index = q.index
    · obtain rfl : p = q := congrArg PromiseId.mk hpq
      rw [← promises, ha] at hpa
      cases hpa
      refine ⟨_, if_pos rfl, .settle hs fun r hr => ?_⟩
      obtain ⟨t, ht, hbody⟩ := exists_mem_deliver hfits hr w.queue w₁.clock p
      exact ⟨t, hqueue.symm ▸ ht, p, _, rs, hbody, hr, ho⟩
    · rw [if_neg hpq, promises]
      exact ⟨a, hpa, .same⟩
  · rw [World.settle_settled ha]
    exact moves_of_eq (fun p _ a hpa => ⟨a, promises ▸ hpa, rfl⟩) queue

lemma isSettled_settle {a : Promise P} (ha : w.promises[q.index]? = some a)
    (s : Settlement P.Value P.Error) : (w.settle q s).2.IsSettled q := by
  have hstep : Machine.Step ⟨w, [.script (.op (.settle q s) fun _ => .pure ())]⟩
      ⟨(w.settle q s).2, [.script (.pure ())]⟩ := .operate rfl
  exact hstep.settled_of_attempts ⟨(Array.getElem?_eq_some_iff.mp ha).1, s, _, _, rfl⟩

/-- **A promise of the network may be settled as its verdict says.** -/
theorem Safe.settle (hw : N.Safe w) (hq : N.Known q) {s : Settlement P.Value P.Error}
    (hs : s.value? = N.verdict q) :
    N.Advances w (w.settle q s).2 ∧ (w.settle q s).2.IsSettled q := by
  obtain ⟨a, ha, -⟩ := hw.promise q hq
  exact ⟨hw.advances (hw.moves_settle hq hs rfl rfl)
    (retains_of_unfilled (World.unfilled_settle w q s)), isSettled_settle ha s⟩

/-- An observer with an errand may be registered on a promise that is settled as it has to be. -/
lemma Safe.observe_settled (hw : N.Safe w) {segment? : Option Segment} {observed : Nat}
    {s : Settlement P.Value P.Error}
    (hp : w.promises[p.index]? = some ⟨segment?, observed, .settled s⟩)
    (hserves : N.Serves e ob s.value?) :
    N.Advances w (w.observe p ob) ∧ N.Open (w.observe p ob) e := by
  have hretains : N.Retains w (w.observe p ob) :=
    retains_of_unfilled (World.unfilled_observe w p ob)
  rw [← Settlement.value?_outcome s segment?] at hserves
  have hrs : ∀ r ∈ [(⟨observed, ob⟩ : Registration P)],
      N.Right r.observer (s.outcome segment?).value? := by
    intro r hr
    obtain rfl := List.mem_singleton.mp hr
    exact ⟨e, hserves⟩
  have hqueue : (w.observe p ob).queue =
      w.queue.deliver w.clock p (s.outcome segment?) [⟨observed, ob⟩] := by
    rw [World.observe_settled hp, World.queue_deliver]
    rfl
  refine ⟨hw.advances (moves_of_deliver hrs hqueue fun p' _ a hpa => ?_) hretains, .inr ?_⟩
  · rw [World.observe_settled hp, World.promises_deliver, World.putPromise,
      World.getElem?_putPromise _ hp]
    split
    · rename_i heq
      rw [heq, hp] at hpa
      cases hpa
      exact ⟨_, rfl, .same⟩
    · exact ⟨a, hpa, .same⟩
  · obtain ⟨t, ht, hbody⟩ := exists_mem_deliver hrs (.head []) w.queue w.clock p
    exact ⟨t, hqueue.symm ▸ ht, p, _, _, hbody, _, .head [], hserves⟩

/-- **An observer with an errand may be registered on an older promise of the network.** -/
theorem Safe.observe (hw : N.Safe w) (hp : N.Known p) (hlt : p.index < e.target.index)
    (hserves : N.Serves e ob (N.verdict p)) :
    N.Advances w (w.observe p ob) ∧ N.Open (w.observe p ob) e := by
  obtain ⟨⟨segment?, observed, slot⟩, ha, hfits⟩ := hw.promise p hp
  rcases slot with rs | s
  · have hput : (w.observe p ob).promises = w.promises.setIfInBounds p.index
        ⟨segment?, observed + 1, .unresolved (rs ++ [⟨observed, ob⟩])⟩ := by
      rw [World.observe_unresolved ha]
      rfl
    have hself : (w.observe p ob).promises[p.index]? =
        some ⟨segment?, observed + 1, .unresolved (rs ++ [⟨observed, ob⟩])⟩ := by
      rw [hput, World.getElem?_putPromise _ ha, if_pos rfl]
    have hqueue : (w.observe p ob).queue = w.queue := by
      rw [World.observe_unresolved ha]
      rfl
    have hmoves : N.Moves w (w.observe p ob) := by
      refine ⟨fun p' hp' a hpa => ?_, fun t ht => hqueue.symm ▸ ht, fun t ht => .inl (hqueue ▸ ht)⟩
      by_cases hpp : p'.index = p.index
      · obtain rfl : p' = p := congrArg PromiseId.mk hpp
        rw [ha] at hpa
        cases hpa
        exact ⟨_, hself, .enlist ⟨e, hserves⟩⟩
      · exact ⟨a, by rw [hput, World.getElem?_putPromise _ ha, if_neg hpp, hpa], .same⟩
    refine ⟨hw.advances hmoves (retains_of_unfilled (World.unfilled_observe w p ob)), .inl ?_⟩
    refine ⟨p, hp, hlt, ⟨observed, ob⟩, ?_, hserves⟩
    rw [World.waitingFor_of_eq_some hself]
    exact List.mem_append_right _ (.head [])
  · -- a settled promise has ended as its verdict says
    have hs : s.value? = N.verdict p := hfits
    exact hw.observe_settled ha (hs ▸ hserves)

/-- A promise that does not belong to the network may be made. -/
lemma Safe.create (hw : N.Safe w) (segment? : Option Segment)
    (promises : w'.promises = w.promises.push ⟨segment?, 0, .unresolved []⟩)
    (queue : w'.queue = w.queue) (unfilled : World.Unfilled w w') : N.Advances w w' := by
  refine hw.advances (moves_of_eq (fun p _ a ha => ⟨a, ?_, rfl⟩) queue)
    (retains_of_unfilled unfilled)
  rw [promises, Array.getElem?_push, if_neg (Nat.ne_of_lt (Array.getElem?_eq_some_iff.mp ha).1), ha]

/-- A promise that does not belong to the network, and for which nobody waits, may be settled. -/
lemma Safe.settle_strange (hw : N.Safe w) (hp : ¬ N.Known p) {segment? : Option Segment}
    {observed : Nat} (ha : w.promises[p.index]? = some ⟨segment?, observed, .unresolved []⟩)
    (s : Settlement P.Value P.Error) :
    N.Advances w (w.settle p s).2 ∧
      (w.settle p s).2.promises[p.index]? = some ⟨segment?, observed, .settled s⟩ := by
  have hqueue : (w.settle p s).2.queue = w.queue := by
    rw [World.settle_unresolved ha, World.queue_deliver, Queue.deliver_of_forall_not (by simp)]
    rfl
  have hput : (w.settle p s).2.promises =
      w.promises.setIfInBounds p.index ⟨segment?, observed, .settled s⟩ := by
    rw [World.settle_unresolved ha, World.promises_deliver]
    rfl
  refine ⟨hw.advances (moves_of_eq (fun p' hp' a hpa => ⟨a, ?_, rfl⟩) hqueue)
    (retains_of_unfilled (World.unfilled_settle w p s)), ?_⟩
  · rw [hput, World.getElem?_putPromise _ ha, if_neg, hpa]
    intro heq
    obtain rfl : p' = p := congrArg PromiseId.mk heq
    exact hp hp'
  · rw [hput, World.getElem?_putPromise _ ha, if_pos rfl]

end Plan

end Eventual
