import Eventual.Proofs.AnyOrder
import Eventual.Session.Ledger

/-!
# Outcomes do not depend on the order of tasks

A network is made by one script after the other (`Script.derive`).  Each of them leaves a world
that is at odds with no verdict and has all errands, for the network with one more promise
(`Plan.Ready.derive`).  From there on tasks run in any order, and in the end everything is settled
as its verdict says (`World.outcomes_confluent`).
-/

namespace Eventual

variable {P : Payload}

/-! ## Making a network -/

/-- The script that makes a network, one promise after the other. -/
def Script.derive : List (Derived P) → Script P (List PromiseId)
  | [] => pure []
  | d :: ds => do
    let q ← d.script
    let qs ← derive ds
    return q :: qs

lemma Script.derive_cons_bind {α : Type} (d : Derived P) (ds : List (Derived P))
    (k : List PromiseId → Script P α) :
    (derive (d :: ds)).bind k = d.script.bind fun q => (derive ds).bind fun qs => k (q :: qs) := by
  rw [derive]
  exact (bind_assoc _ k d.script).trans
    (congrArg d.script.bind (funext fun q => bind_assoc _ k (derive ds)))

/-- The promises of a network that is made when there are `next` promises. -/
def madeFrom (next : Nat) (ds : List (Derived P)) : List PromiseId :=
  (List.range' next ds.length).map PromiseId.mk

lemma World.size_observe (w : World P) (p : PromiseId) (ob : Observer P) :
    (w.observe p ob).promises.size = w.promises.size := by
  rcases h : w.promises[p.index]? with _ | ⟨segment?, observed, rs | s⟩
  · rw [World.observe_missing h]
  · rw [World.observe_unresolved h, World.putPromise, Array.size_setIfInBounds]
  · rw [World.observe_settled h, World.promises_deliver, World.putPromise,
      Array.size_setIfInBounds]

lemma World.size_settle (w : World P) (p : PromiseId) (s : Settlement P.Value P.Error) :
    (w.settle p s).2.promises.size = w.promises.size := by
  rcases h : w.promises[p.index]? with _ | ⟨segment?, observed, rs | s₀⟩
  · rw [World.settle_missing h]
  · rw [World.settle_unresolved h, World.promises_deliver, World.putPromise,
      Array.size_setIfInBounds]
  · rw [World.settle_settled h]
    rfl

namespace Plan

variable {N : Plan P} {w w' : World P} {x : Option P.Value}

/-- A network with one more promise. -/
def extend (N : Plan P) (q : PromiseId) (d : Derived P) (g : GatheringId) (h : PairingId) :
    Plan P where
  verdict := N.verdict
  given := N.given
  derived := Function.update N.derived q (some d)
  gathering := Function.update N.gathering q g
  pairing := Function.update N.pairing q h

variable {q : PromiseId} {d : Derived P} {g : GatheringId} {h : PairingId}

lemma derived_extend_self : (N.extend q d g h).derived q = some d := Function.update_self ..

lemma gathering_extend_self : (N.extend q d g h).gathering q = g := Function.update_self ..

lemma pairing_extend_self : (N.extend q d g h).pairing q = h := Function.update_self ..

/-- What a promise of the extended network is. -/
lemma of_derived_extend {q' : PromiseId} {d' : Derived P}
    (h' : (N.extend q d g h).derived q' = some d') :
    q' = q ∧ d' = d ∨ q' ≠ q ∧ N.derived q' = some d' ∧
      (N.extend q d g h).gathering q' = N.gathering q' ∧
      (N.extend q d g h).pairing q' = N.pairing q' := by
  by_cases hqq : q' = q
  · subst hqq
    exact .inl ⟨rfl, (Option.some.inj (derived_extend_self.symm.trans h')).symm⟩
  · exact .inr ⟨hqq, (Function.update_of_ne hqq _ _).symm.trans h', Function.update_of_ne hqq ..,
      Function.update_of_ne hqq ..⟩

section Extend

variable (hq : ¬ N.Known q)
include hq

lemma derived_extend_of_some {q' : PromiseId} {d' : Derived P} (h' : N.derived q' = some d') :
    q' ≠ q ∧ (N.extend q d g h).derived q' = some d' ∧
      (N.extend q d g h).gathering q' = N.gathering q' ∧
      (N.extend q d g h).pairing q' = N.pairing q' := by
  have hne : q' ≠ q := by
    rintro rfl
    exact hq (.inr ⟨d', h'⟩)
  exact ⟨hne, (Function.update_of_ne hne ..).trans h', Function.update_of_ne hne ..,
    Function.update_of_ne hne ..⟩

lemma Known.extend {p : PromiseId} (hp : N.Known p) : (N.extend q d g h).Known p :=
  hp.imp_right fun ⟨d', h'⟩ => ⟨d', (derived_extend_of_some hq h').2.1⟩

lemma Serves.extend {e : Errand} {ob : Observer P} (hs : N.Serves e ob x) :
    (N.extend q d g h).Serves e ob x := by
  cases hs with
  | andThen derived => exact .andThen (derived_extend_of_some hq derived).2.1
  | andThenLazily derived => exact .andThenLazily (derived_extend_of_some hq derived).2.1
  | pass derived => exact .pass (derived_extend_of_some hq derived).2.1
  | place derived input =>
    obtain ⟨-, derived', hg, -⟩ := derived_extend_of_some (g := g) (h := h) hq derived
    rw [← hg]
    exact .place derived' input
  | side derived =>
    obtain ⟨-, derived', -, hh⟩ := derived_extend_of_some (g := g) (h := h) hq derived
    rw [← hh]
    exact .side derived'

lemma Open.extend {e : Errand} (ho : N.Open w e) : (N.extend q d g h).Open w e := by
  rcases ho with ⟨p, hp, hlt, r, hr, hs⟩ | ⟨t, ht, p, o, rs, hbody, r, hr, hs⟩
  · exact .inl ⟨p, hp.extend hq, hlt, r, hr, hs.extend hq⟩
  · exact .inr ⟨t, ht, p, o, rs, hbody, r, hr, hs.extend hq⟩

/-- A world is safe for the extended network if the new promise and its buffer are as they should
be. -/
lemma Safe.extend (hw : N.Safe w) {a : Promise P} (ha : w.promises[q.index]? = some a)
    (hslot : a.slot = .unresolved [] ∨ ∃ s, a.slot = .settled s ∧ s.value? = N.verdict q)
    (gathers : ∀ ps, d = .join ps → ¬ w.IsSettled q →
      ∃ γ, w.gatherings[g.index]? = some γ ∧ N.Gathers ps γ)
    (couples : ∀ a b, d = .joinPair a b → ¬ w.IsSettled q →
      ∃ π, w.pairings[h.index]? = some π ∧ N.Couples a b π) : (N.extend q d g h).Safe w where
  promise p hp := by
    by_cases hpq : p = q
    · subst hpq
      refine ⟨a, ha, ?_⟩
      rcases hslot with hslot | ⟨s, hslot, hs⟩ <;> rw [hslot]
      · exact fun r hr => nomatch hr
      · exact hs
    · have hp' : N.Known p := by
        refine hp.imp_right fun ⟨d', h'⟩ => ⟨d', ?_⟩
        rcases of_derived_extend h' with ⟨heq, -⟩ | ⟨-, h', -⟩
        · exact absurd heq hpq
        · exact h'
      obtain ⟨b, hb, hfits⟩ := hw.promise p hp'
      refine ⟨b, hb, ?_⟩
      rcases b with ⟨segment?, observed, rs | s⟩
      · exact fun r hr => (hfits r hr).imp fun e hs => hs.extend hq
      · exact hfits
  tasks t ht := by
    obtain ⟨p, o, rs, hbody, hrs⟩ := hw.tasks t ht
    exact ⟨p, o, rs, hbody, fun r hr => (hrs r hr).imp fun e hs => hs.extend hq⟩
  gathers q' ps derived hs := by
    rcases of_derived_extend derived with ⟨rfl, heq⟩ | ⟨-, derived', hg, -⟩
    · obtain ⟨γ, hγ, hgathers⟩ := gathers ps heq.symm hs
      exact ⟨γ, by rw [gathering_extend_self, hγ], ⟨hgathers.1, hgathers.2, hgathers.3, hgathers.4⟩⟩
    · obtain ⟨γ, hγ, hgathers⟩ := hw.gathers q' ps derived' hs
      exact ⟨γ, by rw [hg, hγ], ⟨hgathers.1, hgathers.2, hgathers.3, hgathers.4⟩⟩
  couples q' a b derived hs := by
    rcases of_derived_extend derived with ⟨rfl, heq⟩ | ⟨-, derived', -, hh⟩
    · obtain ⟨π, hπ, hcouples⟩ := couples a b heq.symm hs
      exact ⟨π, by rw [pairing_extend_self, hπ], ⟨hcouples.1, hcouples.2⟩⟩
    · obtain ⟨π, hπ, hcouples⟩ := hw.couples q' a b derived' hs
      exact ⟨π, by rw [hh, hπ], ⟨hcouples.1, hcouples.2⟩⟩

lemma Reached.extend {e : Errand} (hm : N.Made e) (hr : N.Reached w e) :
    (N.extend q d g h).Made e ∧ (N.extend q d g h).Reached w e := by
  cases hm with
  | andThen derived => exact ⟨.andThen (derived_extend_of_some hq derived).2.1, hr⟩
  | andThenLazily derived => exact ⟨.andThenLazily (derived_extend_of_some hq derived).2.1, hr⟩
  | place derived lt =>
    obtain ⟨-, derived', hg, -⟩ := derived_extend_of_some (g := g) (h := h) hq derived
    refine ⟨.place derived' lt, ?_⟩
    rw [Reached, hg]
    exact hr
  | side derived =>
    obtain ⟨-, derived', -, hh⟩ := derived_extend_of_some (g := g) (h := h) hq derived
    refine ⟨.side derived', ?_⟩
    rw [Reached, hh]
    exact hr

lemma Live.extend (hl : N.Live w x []) {e : Errand} (hm : (N.extend q d g h).Made e)
    (he : e.target ≠ q) : (N.extend q d g h).Reached w e ∨ (N.extend q d g h).Out w x [] e ∨
      ∃ q', e = .next q' ∧ (N.extend q d g h).Out w x [] (.pass q') := by
  have hback : ∀ {d'}, (N.extend q d g h).derived e.target = some d' →
      N.derived e.target = some d' := by
    intro d' derived
    rcases of_derived_extend derived with ⟨heq, -⟩ | ⟨-, derived', -⟩
    · exact absurd heq he
    · exact derived'
  have hold : N.Made e := by
    cases hm with
    | andThen derived => exact .andThen (hback derived)
    | andThenLazily derived => exact .andThenLazily (hback derived)
    | place derived lt => exact .place (hback derived) lt
    | side derived => exact .side (hback derived)
  have hout : ∀ {e}, N.Out w x [] e → (N.extend q d g h).Out w x [] e := fun ho =>
    ho.imp (·.extend hq) fun ⟨r, hr, _⟩ => nomatch hr
  rcases hl e hold with hr | ho | ⟨q', rfl, ho⟩
  · exact .inl (Reached.extend hq hold hr).2
  · exact .inr (.inl (hout ho))
  · exact .inr (.inr ⟨q', rfl, hout ho⟩)

lemma Sound.extend (hN : N.Sound) (uses : d.Uses fun p => N.Known p ∧ p.index < q.index)
    (verdict : N.verdict q = d.verdict N.verdict)
    (gathering : ∀ q' ps, N.derived q' = some (.join ps) → ps ≠ [] → N.gathering q' ≠ g)
    (pairing : ∀ q' a b, N.derived q' = some (.joinPair a b) → N.pairing q' ≠ h) :
    (N.extend q d g h).Sound where
  verdict_eq q' d' derived := by
    rcases of_derived_extend derived with ⟨rfl, rfl⟩ | ⟨-, derived', -⟩
    · exact verdict
    · exact hN.verdict_eq q' d' derived'
  uses q' d' derived := by
    rcases of_derived_extend derived with ⟨rfl, rfl⟩ | ⟨-, derived', -⟩
    · exact uses.mono fun p hp => ⟨hp.1.extend hq, hp.2⟩
    · exact (hN.uses q' d' derived').mono fun p hp => ⟨hp.1.extend hq, hp.2⟩
  gathering_inj q₁ q₂ ps₁ ps₂ derived₁ derived₂ hps₁ hps₂ heq := by
    rcases of_derived_extend derived₁ with ⟨rfl, -⟩ | ⟨-, derived₁', hg₁, -⟩ <;>
      rcases of_derived_extend derived₂ with ⟨rfl, -⟩ | ⟨-, derived₂', hg₂, -⟩
    · rfl
    · rw [gathering_extend_self, hg₂] at heq
      exact absurd heq.symm (gathering _ _ derived₂' hps₂)
    · rw [gathering_extend_self, hg₁] at heq
      exact absurd heq (gathering _ _ derived₁' hps₁)
    · rw [hg₁, hg₂] at heq
      exact hN.gathering_inj _ _ _ _ derived₁' derived₂' hps₁ hps₂ heq
  pairing_inj q₁ q₂ a₁ b₁ a₂ b₂ derived₁ derived₂ heq := by
    rcases of_derived_extend derived₁ with ⟨rfl, -⟩ | ⟨-, derived₁', -, hh₁⟩ <;>
      rcases of_derived_extend derived₂ with ⟨rfl, -⟩ | ⟨-, derived₂', -, hh₂⟩
    · rfl
    · rw [pairing_extend_self, hh₂] at heq
      exact absurd heq.symm (pairing _ _ _ derived₂')
    · rw [pairing_extend_self, hh₁] at heq
      exact absurd heq (pairing _ _ _ derived₁')
    · rw [hh₁, hh₂] at heq
      exact hN.pairing_inj _ _ _ _ _ _ derived₁' derived₂' heq

end Extend

/-- The inputs of a join are observed one after the other. -/
lemma Safe.gatherEach {q : PromiseId} {all ps : List PromiseId} {i : Nat}
    (derived : N.derived q = some (.join all)) (hall : ∀ p ∈ all, N.Known p ∧ p.index < q.index)
    (hps : ∀ (j : Nat), ps[j]? = all[i + j]?) (hw : N.Safe w) :
    ∃ w', (∀ (k : Unit → Script P Unit) rest, Machine.Reaches
        ⟨w, .script ((Script.gatherEach q (N.gathering q) i ps).bind k) :: rest⟩
        ⟨w', .script (k ()) :: rest⟩) ∧ N.Advances w w' ∧
      (∀ j < ps.length, N.Open w' (.place q (i + j))) ∧
      w'.promises.size = w.promises.size ∧ World.Unfilled w w' := by
  induction ps generalizing i w with
  | nil =>
    exact ⟨w, fun k rest => .refl _, .refl hw, fun j hj => absurd hj (by simp), rfl, rfl, rfl, rfl⟩
  | cons p ps ih =>
    have hp : all[i]? = some p := by simpa using (hps 0).symm
    obtain ⟨hknown, hlt⟩ := hall p (List.mem_of_getElem? hp)
    obtain ⟨hadvances, hopen⟩ := hw.observe (e := .place q i) hknown hlt (.place derived hp)
    obtain ⟨w', hreach, hadvances', hopen', size, unfilled⟩ := ih (i := i + 1) (fun j => by
      have hj := hps (j + 1)
      rw [List.getElem?_cons_succ] at hj
      rw [hj, Nat.add_assoc, Nat.add_comm 1 j]) hadvances.safe
    have hunfilled := World.unfilled_observe w p
      (.onEither (Script.gatherInto q (N.gathering q) i) (Script.passFailure q))
    refine ⟨w', fun k rest => ?_, hadvances.trans hadvances', fun j hj => ?_,
      by rw [size, World.size_observe], ?_, ?_, ?_⟩
    · rw [Script.gatherEach_cons_bind]
      exact (Machine.Step.operate rfl).reaches.trans (hreach k rest)
    · cases j with
      | zero => exact hadvances'.opened _ hopen
      | succ j =>
        have hj' := hopen' j (Nat.lt_of_succ_lt_succ hj)
        rw [Nat.add_assoc, Nat.add_comm 1 j] at hj'
        exact hj'
    · rw [unfilled.gatherings, hunfilled.gatherings]
    · rw [unfilled.pairings, hunfilled.pairings]
    · rw [unfilled.retries, hunfilled.retries]

/-- A network has been made, `next` is the number of the promise that is made next, and the joins
have the buffers made so far. -/
structure Ready (N : Plan P) (next : Nat) (w : World P) : Prop where
  sound : N.Sound
  safe : N.Safe w
  live : N.Live w none []
  size_eq : w.promises.size = next
  gathering_lt : ∀ q ps, N.derived q = some (.join ps) → ps ≠ [] →
    (N.gathering q).index < w.gatherings.size
  pairing_lt : ∀ q a b, N.derived q = some (.joinPair a b) →
    (N.pairing q).index < w.pairings.size

/-- The network with the promise that is made next. -/
def grow (N : Plan P) (w : World P) (d : Derived P) : Plan P :=
  N.extend ⟨w.promises.size⟩ d ⟨w.gatherings.size⟩ ⟨w.pairings.size⟩

namespace Ready

variable {next : Nat} {w₁ w₂ : World P}

lemma lt_of_known (hr : N.Ready next w) {p : PromiseId} (hp : N.Known p) :
    p.index < next := by
  obtain ⟨a, ha, -⟩ := hr.safe.promise p hp
  rw [← hr.size_eq]
  exact (Array.getElem?_eq_some_iff.mp ha).1

lemma not_known (hr : N.Ready next w) : ¬ N.Known ⟨w.promises.size⟩ := by
  intro hp
  have hlt := hr.lt_of_known hp
  rw [hr.size_eq] at hlt
  exact Nat.lt_irrefl _ hlt

/-- A promise has been derived: in `w₁` it is there with its buffer, and in `w₂` all its observers
have been registered. -/
lemma grow (hr : N.Ready next w) (uses : d.Uses N.Known)
    (verdict : N.verdict ⟨next⟩ = d.verdict N.verdict) (h₁ : N.Advances w w₁)
    (h₂ : (N.grow w d).Advances w₁ w₂)
    (opened : ∀ e, (N.grow w d).Made e → e.target = ⟨next⟩ → (N.grow w d).Open w₂ e)
    (size : w₂.promises.size = next + 1)
    (gatherings : w.gatherings.size ≤ w₂.gatherings.size ∧
      ∀ ps, d = .join ps → ps ≠ [] → w.gatherings.size < w₂.gatherings.size)
    (pairings : w.pairings.size ≤ w₂.pairings.size ∧
      ∀ a b, d = .joinPair a b → w.pairings.size < w₂.pairings.size) :
    (N.grow w d).Ready (next + 1) w₂ := by
  have hnew := hr.not_known
  obtain rfl := hr.size_eq
  have hsound : (N.grow w d).Sound := by
    refine hr.sound.extend hnew (uses.mono fun p hp => ⟨hp, hr.lt_of_known hp⟩) verdict ?_ ?_
    · rintro q' ps derived hps heq
      exact Nat.ne_of_lt (hr.gathering_lt q' ps derived hps) (congrArg GatheringId.index heq)
    · rintro q' a b derived heq
      exact Nat.ne_of_lt (hr.pairing_lt q' a b derived) (congrArg PairingId.index heq)
  refine ⟨hsound, h₂.safe, ?_, size, ?_, ?_⟩
  · -- errands for the new promise have been opened, and the others are where they were
    intro e hm
    by_cases he : e.target = ⟨w.promises.size⟩
    · exact .inr (.inl (.inl (opened e hm he)))
    · rcases (hr.live.mono h₁).extend hnew hm he with hreached | ho | ⟨q', rfl, ho⟩
      · exact .inl (h₂.reached e hm hreached)
      · exact .inr (.inl (ho.mono h₂))
      · exact .inr (.inr ⟨q', rfl, ho.mono h₂⟩)
  · intro q' ps derived hps
    rcases of_derived_extend derived with ⟨rfl, rfl⟩ | ⟨-, derived', hg, -⟩
    · rw [Plan.grow, gathering_extend_self]
      exact gatherings.2 ps rfl hps
    · rw [Plan.grow, hg]
      exact Nat.lt_of_lt_of_le (hr.gathering_lt q' ps derived' hps) gatherings.1
  · intro q' a b derived
    rcases of_derived_extend derived with ⟨rfl, rfl⟩ | ⟨-, derived', -, hh⟩
    · rw [Plan.grow, pairing_extend_self]
      exact pairings.2 a b rfl
    · rw [Plan.grow, hh]
      exact Nat.lt_of_lt_of_le (hr.pairing_lt q' a b derived') pairings.1

/-- A promise has just been made; the network is not disturbed. -/
lemma create (hr : N.Ready next w) :
    ∃ w₁ segment?, w.perform .create = .answer ⟨next⟩ w₁ ∧ N.Advances w w₁ ∧
      w₁.promises[next]? = some ⟨segment?, 0, .unresolved []⟩ ∧ w₁.promises.size = next + 1 ∧
      World.Unfilled w w₁ := by
  obtain ⟨w₁, segment?, performed, promises, -, queue, unfilled⟩ := World.perform_create w
  obtain rfl := hr.size_eq
  exact ⟨w₁, segment?, performed, hr.safe.create segment? promises queue unfilled,
    by rw [promises, Array.getElem?_push_size], by rw [promises, Array.size_push], unfilled⟩

/-- A promise that waits for one other promise is derived. -/
lemma derive_next (hr : N.Ready next w) (uses : d.Uses N.Known)
    (verdict : N.verdict ⟨next⟩ = d.verdict N.verdict) {p : PromiseId} (hp : N.Known p)
    (hjoin : ∀ ps, d ≠ .join ps) (hpair : ∀ a b, d ≠ .joinPair a b)
    (ob : PromiseId → Observer P)
    (serves : (N.grow w d).Serves (.next ⟨next⟩) (ob ⟨next⟩) (N.verdict p)) :
    ∃ w', (∀ (k : PromiseId → Script P Unit) rest, Machine.Reaches
        ⟨w, .script (.op .create fun q => .op (.observe p (ob q)) fun _ => k q) :: rest⟩
        ⟨w', .script (k ⟨next⟩) :: rest⟩) ∧ (N.grow w d).Ready (next + 1) w' := by
  obtain ⟨w₁, segment?, performed, h₁, ha, size, unfilled⟩ := hr.create
  have hnew := hr.not_known
  have hunfilled := World.unfilled_observe w₁ p (ob ⟨next⟩)
  have hsafe : (N.grow w d).Safe w₁ := h₁.safe.extend hnew (hr.size_eq ▸ ha) (.inl rfl)
    (fun ps hd => absurd hd (hjoin ps)) fun a b hd => absurd hd (hpair a b)
  obtain ⟨hadvances, hopen⟩ := hsafe.observe (e := .next ⟨next⟩) (hp.extend hnew)
    (hr.lt_of_known hp) serves
  refine ⟨w₁.observe p (ob ⟨next⟩), fun k rest =>
    (Machine.Step.operate performed).reaches.trans (Machine.Step.operate rfl).reaches,
    hr.grow uses verdict h₁ hadvances (fun e hm he => ?_) ?_ ?_ ?_⟩
  · obtain rfl := hr.size_eq
    cases hm with
    | andThen | andThenLazily =>
      obtain rfl := he
      exact hopen
    | @place _ ps _ derived =>
      obtain rfl := he
      exact absurd (Option.some.inj (derived_extend_self.symm.trans derived)) (hjoin ps)
    | @side _ a b _ derived =>
      obtain rfl := he
      exact absurd (Option.some.inj (derived_extend_self.symm.trans derived)) (hpair a b)
  · rw [World.size_observe, size]
  · rw [hunfilled.gatherings, unfilled.gatherings]
    exact ⟨Nat.le_refl _, fun ps hd => absurd hd (hjoin ps)⟩
  · rw [hunfilled.pairings, unfilled.pairings]
    exact ⟨Nat.le_refl _, fun a b hd => absurd hd (hpair a b)⟩

/-- A join of two is derived. -/
lemma derive_pair (hr : N.Ready next w) {a b : PromiseId} (ha : N.Known a) (hb : N.Known b)
    (verdict : N.verdict ⟨next⟩ = (Derived.joinPair a b).verdict N.verdict) :
    ∃ w', (∀ k rest, Machine.Reaches ⟨w, .script ((Script.joinPair a b).bind k) :: rest⟩
        ⟨w', .script (k ⟨next⟩) :: rest⟩) ∧
      (N.grow w (.joinPair a b)).Ready (next + 1) w' := by
  obtain ⟨w₁, segment?, performed, h₁, hq, size, unfilled⟩ := hr.create
  have hnew := hr.not_known
  -- the world with the pairing, and after each of the two registrations
  let w₂ : World P := { w₁ with pairings := w₁.pairings.push {} }
  have h₂ : N.Advances w₁ w₂ :=
    h₁.safe.advances (moves_of_eq (fun p _ a ha => ⟨a, ha, rfl⟩) rfl)
      (retains_of_eq (fun _ _ hγ => hγ) fun i π hπ => by
        rw [Array.getElem?_push, if_neg (Nat.ne_of_lt (Array.getElem?_eq_some_iff.mp hπ).1), hπ])
  let ob (s : Side) : Observer P :=
    .onEither (Script.coupleInto ⟨next⟩ ⟨w₁.pairings.size⟩ s) (Script.passFailure ⟨next⟩)
  have hunfilled := World.unfilled_observe w₂ a (ob .first)
  have hunfilled' := World.unfilled_observe (w₂.observe a (ob .first)) b (ob .second)
  have hπ : N.Couples a b {} := ⟨.inl rfl, by rintro (_ | _) v hv <;> cases hv⟩
  have hsafe : (N.grow w (.joinPair a b)).Safe w₂ :=
    (h₁.trans h₂).safe.extend hnew (hr.size_eq ▸ hq) (.inl rfl) (fun ps hd => nomatch hd)
      fun a' b' hd _ => ⟨{}, by rw [← unfilled.pairings, Array.getElem?_push_size], by
        cases hd
        exact hπ⟩
  have hderived : (N.grow w (.joinPair a b)).derived ⟨next⟩ = some (.joinPair a b) := by
    rw [← hr.size_eq]
    exact derived_extend_self
  have hpairing : (N.grow w (.joinPair a b)).pairing ⟨next⟩ = ⟨w₁.pairings.size⟩ := by
    rw [← hr.size_eq, unfilled.pairings]
    exact pairing_extend_self
  have hserves : ∀ s : Side, (N.grow w (.joinPair a b)).Serves (.side ⟨next⟩ s) (ob s)
      (N.verdict (s.pick a b)) := by
    intro s
    have hs := Plan.Serves.side (s := s) hderived
    rw [hpairing] at hs
    exact hs
  obtain ⟨hadvances, hopen⟩ := hsafe.observe (e := .side ⟨next⟩ .first)
    (ha.extend hnew) (hr.lt_of_known ha) (hserves .first)
  obtain ⟨hadvances', hopen'⟩ := hadvances.safe.observe (e := .side ⟨next⟩ .second)
    (hb.extend hnew) (hr.lt_of_known hb) (hserves .second)
  refine ⟨(w₂.observe a (ob .first)).observe b (ob .second), fun k rest => ?_,
    hr.grow ⟨ha, hb⟩ verdict (h₁.trans h₂) (hadvances.trans hadvances') (fun e hm he => ?_)
      ?_ ?_ ?_⟩
  · refine (Machine.Step.operate performed).reaches.trans ?_
    refine (Machine.Step.operate rfl).reaches.trans ?_
    refine (Machine.Step.operate rfl).reaches.trans ?_
    refine (Machine.Step.operate rfl).reaches.trans ?_
    exact .refl _
  · cases hm with
    | andThen derived | andThenLazily derived | place derived =>
      obtain rfl := he
      cases hderived.symm.trans derived
    | @side _ _ _ s =>
      obtain rfl := he
      cases s with
      | first => exact hadvances'.opened _ hopen
      | second => exact hopen'
  · rw [World.size_observe, World.size_observe]
    exact size
  · rw [hunfilled'.gatherings, hunfilled.gatherings]
    exact ⟨Nat.le_of_eq (congrArg Array.size unfilled.gatherings).symm, fun ps hd => nomatch hd⟩
  · rw [hunfilled'.pairings, hunfilled.pairings]
    have hpush : w₂.pairings.size = w.pairings.size + 1 := by
      rw [Array.size_push, unfilled.pairings]
    exact ⟨by omega, fun _ _ _ => by omega⟩

/-- A join of nothing is derived: it is settled at once. -/
lemma derive_join_nil (hr : N.Ready next w)
    (verdict : N.verdict ⟨next⟩ = (Derived.join []).verdict N.verdict) :
    ∃ w', (∀ k rest, Machine.Reaches ⟨w, .script ((Script.join []).bind k) :: rest⟩
        ⟨w', .script (k ⟨next⟩) :: rest⟩) ∧ (N.grow w (.join [])).Ready (next + 1) w' := by
  obtain ⟨w₁, segment?, performed, h₁, hq, size, unfilled⟩ := hr.create
  have hnew := hr.not_known
  obtain rfl := hr.size_eq
  obtain ⟨h₂, hq'⟩ := h₁.safe.settle_strange hnew hq (.fulfilled (P.list []))
  have hunfilled := World.unfilled_settle w₁ ⟨w.promises.size⟩ (.fulfilled (P.list []))
  have hsafe : (N.grow w (.join [])).Safe (w₁.settle ⟨w.promises.size⟩
      (.fulfilled (P.list []))).2 :=
    (h₁.trans h₂).safe.extend hnew hq' (.inr ⟨_, rfl, verdict.symm⟩)
      (fun ps _ hs => absurd (isSettled_settle hq _) hs) fun a b hd => nomatch hd
  refine ⟨_, fun k rest => ?_, hr.grow (fun p hp => absurd hp List.not_mem_nil) verdict
    (h₁.trans h₂) (.refl hsafe) (fun e hm he => ?_) ?_ ?_ ?_⟩
  · rw [Script.join_nil_bind]
    exact (Machine.Step.operate performed).reaches.trans (Machine.Step.operate rfl).reaches
  · have hderived : (N.grow w (.join [])).derived ⟨w.promises.size⟩ = some (.join []) :=
      derived_extend_self
    cases hm with
    | andThen derived | andThenLazily derived | side derived =>
      obtain rfl := he
      cases hderived.symm.trans derived
    | place derived lt =>
      obtain rfl := he
      cases hderived.symm.trans derived
      cases lt
  · rw [World.size_settle, size]
  · rw [hunfilled.gatherings, unfilled.gatherings]
    exact ⟨Nat.le_refl _, fun ps hd hps => absurd (Derived.join.inj hd).symm hps⟩
  · rw [hunfilled.pairings, unfilled.pairings]
    exact ⟨Nat.le_refl _, fun a b hd => nomatch hd⟩

/-- A join of something is derived. -/
lemma derive_join (hr : N.Ready next w) {ps : List PromiseId} (hne : ps ≠ [])
    (hps : ∀ p ∈ ps, N.Known p) (verdict : N.verdict ⟨next⟩ = (Derived.join ps).verdict N.verdict) :
    ∃ w', (∀ k rest, Machine.Reaches ⟨w, .script ((Script.join ps).bind k) :: rest⟩
        ⟨w', .script (k ⟨next⟩) :: rest⟩) ∧ (N.grow w (.join ps)).Ready (next + 1) w' := by
  obtain ⟨w₁, segment?, performed, h₁, hq, size, unfilled⟩ := hr.create
  have hnew := hr.not_known
  -- the world with the gathering, before any input is observed
  let w₂ : World P := { w₁ with gatherings := w₁.gatherings.push (.empty ps.length) }
  have h₂ : N.Advances w₁ w₂ :=
    h₁.safe.advances (moves_of_eq (fun p _ a ha => ⟨a, ha, rfl⟩) rfl)
      (retains_of_eq (fun i γ hγ => by
        rw [Array.getElem?_push, if_neg (Nat.ne_of_lt (Array.getElem?_eq_some_iff.mp hγ).1), hγ])
        fun _ _ hπ => hπ)
  have hγ : w₂.gatherings[w.gatherings.size]? = some (.empty ps.length) := by
    rw [← unfilled.gatherings, Array.getElem?_push_size]
  have hgathers : N.Gathers ps (.empty ps.length) := by
    refine ⟨Gathering.tallied_empty _, List.length_replicate, ?_, fun i p v _ hv => ?_⟩
    · exact List.mem_replicate.mpr ⟨fun h => hne (List.length_eq_zero_iff.mp h), rfl⟩
    · cases (List.mem_replicate.mp (List.mem_of_getElem? hv)).2
  have hsafe : (N.grow w (.join ps)).Safe w₂ :=
    (h₁.trans h₂).safe.extend hnew (hr.size_eq ▸ hq) (.inl rfl) (fun ps' hd _ => ⟨_, hγ, by
      cases hd
      exact hgathers⟩) fun a b hd => nomatch hd
  have hderived : (N.grow w (.join ps)).derived ⟨next⟩ = some (.join ps) := by
    rw [← hr.size_eq]
    exact derived_extend_self
  have hgathering : (N.grow w (.join ps)).gathering ⟨next⟩ = ⟨w₁.gatherings.size⟩ := by
    rw [← hr.size_eq, unfilled.gatherings]
    exact gathering_extend_self
  obtain ⟨w', hreach, hadvances, hopen, size', unfilled'⟩ := hsafe.gatherEach (i := 0) hderived
    (fun p hp => ⟨(hps p hp).extend hnew, hr.lt_of_known (hps p hp)⟩)
    (fun j => by rw [Nat.zero_add])
  refine ⟨w', fun k rest => ?_, hr.grow hps verdict (h₁.trans h₂) hadvances (fun e hm he => ?_)
    (size'.trans size) ?_ ?_⟩
  · rw [Script.join_bind_of_ne_nil hne]
    rw [hgathering] at hreach
    refine (Machine.Step.operate performed).reaches.trans ?_
    exact (Machine.Step.operate rfl).reaches.trans (hreach (fun _ => k ⟨next⟩) rest)
  · cases hm with
    | andThen derived | andThenLazily derived | side derived =>
      obtain rfl := he
      cases hderived.symm.trans derived
    | @place _ _ i derived lt =>
      obtain rfl := he
      cases hderived.symm.trans derived
      exact Nat.zero_add i ▸ hopen i lt
  · rw [unfilled'.gatherings]
    have hpush : w₂.gatherings.size = w.gatherings.size + 1 := by
      rw [Array.size_push, unfilled.gatherings]
    exact ⟨by omega, fun _ _ _ => by omega⟩
  · rw [unfilled'.pairings]
    exact ⟨Nat.le_of_eq (congrArg Array.size unfilled.pairings).symm, fun a b hd => nomatch hd⟩

/-- **A promise is derived.** -/
theorem derive (hr : N.Ready next w) (uses : d.Uses N.Known)
    (verdict : N.verdict ⟨next⟩ = d.verdict N.verdict) :
    ∃ w', (∀ k rest, Machine.Reaches ⟨w, .script (d.script.bind k) :: rest⟩
        ⟨w', .script (k ⟨next⟩) :: rest⟩) ∧ (N.grow w d).Ready (next + 1) w' := by
  have hderived : (N.grow w d).derived ⟨next⟩ = some d := by
    rw [← hr.size_eq]
    exact derived_extend_self
  cases d with
  | andThen p f =>
    exact hr.derive_next uses verdict uses (fun _ hd => nomatch hd) (fun _ _ hd => nomatch hd)
      (fun q => .onEither (fun v => Script.settleWith q (f v)) (Script.passFailure q))
      (.andThen hderived)
  | andThenLazily p f =>
    exact hr.derive_next uses verdict uses.1 (fun _ hd => nomatch hd) (fun _ _ hd => nomatch hd)
      (fun q => .onEither (fun v => (f v).script.bind fun p => Script.forward p q)
        (Script.passFailure q)) (.andThenLazily hderived)
  | join ps =>
    cases ps with
    | nil => exact hr.derive_join_nil verdict
    | cons p ps => exact hr.derive_join (List.cons_ne_nil p ps) uses verdict
  | joinPair a b => exact hr.derive_pair uses.1 uses.2 verdict

/-- **A network is made**, one promise after the other. -/
theorem deriveAll (ds : List (Derived P)) (hr : N.Ready next w)
    (uses : ∀ (i : Nat) d, ds[i]? = some d →
      d.Uses fun p => N.Known p ∨ next ≤ p.index ∧ p.index < next + i)
    (verdict : ∀ (i : Nat) d, ds[i]? = some d → N.verdict ⟨next + i⟩ = d.verdict N.verdict) :
    ∃ (N' : Plan P) (w' : World P),
      (∀ k rest, Machine.Reaches ⟨w, .script ((Script.derive ds).bind k) :: rest⟩
        ⟨w', .script (k (madeFrom next ds)) :: rest⟩) ∧
      N'.Ready (next + ds.length) w' ∧ N'.verdict = N.verdict ∧ N'.given = N.given ∧
      (∀ p, N.Known p → N'.Known p) ∧ ∀ p ∈ madeFrom next ds, N'.Known p := by
  induction ds generalizing N next w with
  | nil =>
    exact ⟨N, w, fun k rest => .refl _, hr, rfl, rfl, fun p hp => hp, fun p hp => nomatch hp⟩
  | cons d ds ih =>
    obtain ⟨w₁, hreach, hr₁⟩ := hr.derive
      ((uses 0 d rfl).mono fun p hp => hp.resolve_right (by omega)) (verdict 0 d rfl)
    have hknown : ∀ p, N.Known p → (N.grow w d).Known p := fun p hp => hp.extend hr.not_known
    have hnew : (N.grow w d).Known ⟨next⟩ := by
      rw [← hr.size_eq]
      exact .inr ⟨d, derived_extend_self⟩
    obtain ⟨N', w', hreach', hr', hverdict, hgiven, hknown', hmade⟩ := ih hr₁
      (fun i d' hd' => by
        refine (uses (i + 1) d' hd').mono ?_
        rintro ⟨j⟩ (hp | ⟨hle, hlt⟩)
        · exact .inl (hknown _ hp)
        · rcases Nat.eq_or_lt_of_le hle with heq | hlt'
          · obtain rfl : next = j := heq
            exact .inl hnew
          · exact .inr ⟨hlt', by dsimp only at hlt ⊢; omega⟩)
      (fun i d' hd' => by
        have hv := verdict (i + 1) d' hd'
        rw [Nat.add_assoc, Nat.add_comm 1 i]
        exact hv)
    refine ⟨N', w', fun k rest => ?_, ?_, hverdict, hgiven, fun p hp => hknown' p (hknown p hp), ?_⟩
    · rw [Script.derive_cons_bind]
      exact (hreach _ rest).trans (hreach' (fun qs => k (⟨next⟩ :: qs)) rest)
    · rw [List.length_cons, Nat.add_comm ds.length 1, ← Nat.add_assoc]
      exact hr'
    · rintro p hp
      rcases List.mem_cons.mp hp with rfl | hp
      · exact hknown' _ hnew
      · exact hmade p hp

end Ready

end Plan

/-! ## Outcomes -/

namespace World

variable {w w' w₀ : World P} {p : PromiseId} {sources : List PromiseId}
  {σ : PromiseId → Settlement P.Value P.Error}

lemma IsSettled.of_reaches {m m' : Machine P} (h : m.Reaches m') (hs : m.world.IsSettled p) :
    m'.world.IsSettled p := by
  obtain ⟨n, h⟩ := h
  refine Machine.keep_after (I := fun m => m.world.IsSettled p) ?_ hs h
  rintro m m' ⟨s, hs⟩ hstep
  exact ⟨s, by rw [hstep.view_eq hs, hs]⟩

lemma IsSettled.anyOrder (h : AnyOrder sources σ w w') (hs : w.IsSettled p) : w'.IsSettled p := by
  induction h with
  | refl => exact hs
  | @tail w₁ w₂ _ hnext ih =>
    cases hnext with
    | @settle q hq =>
      have hstep : Machine.Step ⟨w₁, [.script (.op (.settle q (σ q)) fun _ => .pure ())]⟩
          ⟨(w₁.settle q (σ q)).2, [.script (.pure ())]⟩ := .operate rfl
      exact IsSettled.of_reaches hstep.reaches ih
    | run waiting clock run => exact IsSettled.of_reaches run ih

/-- How the promises end that are given to a network: a source as it is to be settled, and another
one as it has been. -/
def givens (w₀ : World P) (sources : List PromiseId) (σ : PromiseId → Settlement P.Value P.Error)
    (p : PromiseId) : Option P.Value :=
  if p ∈ sources then (σ p).value? else (w₀.view p).settlement?.bind Settlement.value?

/-- Nothing is left to do: no task waits, and the sources are settled. -/
def Quiet (w : World P) (sources : List PromiseId) : Prop :=
  w.queue.waiting = [] ∧ ∀ p ∈ sources, w.IsSettled p

/-- A promise has ended with this value, or has failed. -/
def EndedWith (w : World P) (p : PromiseId) : Option P.Value → Prop
  | some v => (w.view p).state = .succeeded ∧ (w.view p).result? = some (.ok v)
  | none => (w.view p).state = .failed

lemma endedWith_of_eq {s : Settlement P.Value P.Error} (hs : (w.view p).settlement? = some s) :
    w.EndedWith p s.value? := by
  cases s with
  | fulfilled v => exact ⟨by rw [View.state, hs]; rfl, by rw [View.result?, hs]⟩
  | failed e cause? =>
    show (w.view p).state = .failed
    rw [View.state, hs]
    rfl

/-- The network before its first promise is made. -/
def bare (w₀ : World P) (sources : List PromiseId) (verdict : PromiseId → Option P.Value) :
    Plan P where
  verdict := verdict
  given p := p ∈ sources ∨ w₀.IsSettled p
  derived _ := none
  gathering _ := ⟨0⟩
  pairing _ := ⟨0⟩

lemma lt_size_of_given
    (unresolved : ∀ p ∈ sources, ∃ segment? observed,
      w₀.promises[p.index]? = some ⟨segment?, observed, .unresolved []⟩)
    (hp : p ∈ sources ∨ w₀.IsSettled p) : p.index < w₀.promises.size := by
  rcases hp with hp | ⟨s, hs⟩
  · obtain ⟨segment?, observed, ha⟩ := unresolved p hp
    exact (Array.getElem?_eq_some_iff.mp ha).1
  · obtain ⟨a, ha, -⟩ := settlement?_view_eq_some_iff.mp hs
    exact (Array.getElem?_eq_some_iff.mp ha).1

lemma ready_bare {verdict : PromiseId → Option P.Value} (idle : w₀.queue.waiting = [])
    (unresolved : ∀ p ∈ sources, ∃ segment? observed,
      w₀.promises[p.index]? = some ⟨segment?, observed, .unresolved []⟩)
    (verdict_eq : ∀ p, p.index < w₀.promises.size → verdict p = w₀.givens sources σ p) :
    (w₀.bare sources verdict).Ready w₀.promises.size w₀ where
  sound := ⟨fun _ _ hd => (nomatch hd), fun _ _ hd => (nomatch hd),
    fun _ _ _ _ hd => (nomatch hd), fun _ _ _ _ _ _ hd => (nomatch hd)⟩
  safe := by
    refine ⟨?_, fun t ht => by simp [idle] at ht, fun _ _ hd => (nomatch hd),
      fun _ _ _ hd => (nomatch hd)⟩
    rintro p (hgiven | ⟨d, hd⟩)
    · have hlt := lt_size_of_given unresolved hgiven
      by_cases hp : p ∈ sources
      · obtain ⟨segment?, observed, ha⟩ := unresolved p hp
        exact ⟨_, ha, fun r hr => nomatch hr⟩
      · obtain ⟨s, hs⟩ := hgiven.resolve_left hp
        obtain ⟨⟨segment?, observed, slot⟩, ha, rfl⟩ := settlement?_view_eq_some_iff.mp hs
        refine ⟨_, ha, ?_⟩
        show s.value? = verdict p
        rw [verdict_eq p hlt, givens, if_neg hp, hs, Option.bind_some]
    · cases hd
  live _ hm := by
    cases hm with
    | andThen derived | andThenLazily derived | place derived | side derived => cases derived
  size_eq := rfl
  gathering_lt _ _ hd := nomatch hd
  pairing_lt _ _ _ hd := nomatch hd

/-- **The order in which tasks are run has no influence on outcomes.**  A network is made over
unresolved sources and promises that are settled.  However its tasks are run and its sources are
settled, every task comes to an end, and when nothing is left to do, every promise of the network
has ended as `verdicts` says, which knows of no order. -/
theorem outcomes_confluent {ds : List (Derived P)} (idle : w₀.queue.waiting = [])
    (unresolved : ∀ p ∈ sources, ∃ segment? observed,
      w₀.promises[p.index]? = some ⟨segment?, observed, .unresolved []⟩)
    (acyclic : ∀ (i : Nat) d, ds[i]? = some d → d.Uses fun p => p ∈ sources ∨ w₀.IsSettled p ∨
      w₀.promises.size ≤ p.index ∧ p.index < w₀.promises.size + i) :
    ∃ w₁, (∀ k rest, Machine.Reaches ⟨w₀, .script ((Script.derive ds).bind k) :: rest⟩
        ⟨w₁, .script (k (madeFrom w₀.promises.size ds)) :: rest⟩) ∧
      ∀ w, AnyOrder sources σ w₁ w →
        (∀ before t after clock, w.queue.waiting = before ++ t :: after →
          ∃ w', Machine.Reaches ⟨w.withTasks (before ++ after) clock, [.ofWork t.body]⟩ ⟨w', []⟩) ∧
        (w.Quiet sources → ∀ p, p ∈ sources ∨ p ∈ madeFrom w₀.promises.size ds →
          w.EndedWith p (verdicts (w₀.givens sources σ) w₀.promises.size ds p)) := by
  have hready : (w₀.bare sources (verdicts (w₀.givens sources σ) w₀.promises.size ds)).Ready
      w₀.promises.size w₀ :=
    ready_bare (σ := σ) idle unresolved fun p hp => verdicts_of_lt hp
  obtain ⟨N, w₁, hreach, hr, hverdict, hgiven, hknown, hmade⟩ := hready.deriveAll ds
    (fun i d hd => (acyclic i d hd).mono fun p hp => by
      rcases hp with hp | hp | hp
      · exact .inl (.inl (.inl hp))
      · exact .inl (.inl (.inr hp))
      · exact .inr hp)
    (fun i d hd => verdicts_eq hd ((acyclic i d hd).mono fun p hp => by
      rcases hp with hp | hp | hp
      · exact Nat.lt_add_right i (lt_size_of_given unresolved (.inl hp))
      · exact Nat.lt_add_right i (lt_size_of_given unresolved (.inr hp))
      · exact hp.2))
  have hsources : ∀ p ∈ sources, N.Known p ∧ (σ p).value? = N.verdict p := by
    intro p hp
    have hlt := lt_size_of_given unresolved (.inl hp)
    refine ⟨hknown p (.inl (.inl hp)), ?_⟩
    rw [hverdict]
    show _ = verdicts _ _ ds p
    rw [verdicts_of_lt hlt, givens, if_pos hp]
  refine ⟨w₁, hreach, fun w hw => ?_⟩
  obtain ⟨hsafe, hlive⟩ := hr.safe.anyOrder hr.sound hsources hr.live hw
  refine ⟨fun before t after clock waiting => ?_, fun hquiet p hp => ?_⟩
  · obtain ⟨w', hrun, -, -⟩ := hsafe.run hr.sound hlive waiting clock
    exact ⟨w', hrun⟩
  · -- the promise is settled, and a promise of a safe network is settled as its verdict says
    have hp' : N.Known p := hp.elim (fun hp => (hsources p hp).1) (hmade p)
    obtain ⟨s, hs⟩ := hsafe.isSettled hlive hquiet.1 (fun p hp => by
      rw [hgiven] at hp
      rcases hp with hp | hp
      · exact hquiet.2 p hp
      · exact (IsSettled.of_reaches (hreach (fun _ => .pure ()) []) hp).anyOrder hw) hp'
    obtain ⟨a, ha, hfits⟩ := hsafe.promise p hp'
    obtain ⟨b, hb, hslot⟩ := settlement?_view_eq_some_iff.mp hs
    cases ha.symm.trans hb
    rw [hslot] at hfits
    have hended : w.EndedWith p (N.verdict p) := by
      rw [← show s.value? = N.verdict p from hfits]
      exact endedWith_of_eq hs
    rw [hverdict] at hended
    exact hended

/-- Two promises for which nobody waits. -/
def twoSources : World Session.Play :=
  { (fresh .withoutTraces (fun _ => []) [] {} : World Session.Play) with
    promises := #[⟨none, 0, .unresolved []⟩, ⟨none, 0, .unresolved []⟩] }

/-- How the two are settled. -/
def twoSettlements (p : PromiseId) : Settlement Item Failure :=
  .fulfilled (.value (.int p.index))

/-- What follows one of the two, joined with the other one. -/
def pairOfFollower : List (Derived Session.Play) :=
  [.andThen ⟨0⟩ fun v => .ok v, .joinPair ⟨2⟩ ⟨1⟩]

/-- The network is made, and both sources are settled.  Then of the two tasks that wait the one that
came last is run first, and so is the task that it leads to; in the end the pair has been
fulfilled. -/
theorem outcomes_confluent_twoSources :
    ∃ w₁ w, Machine.Reaches ⟨twoSources, [.script ((Script.derive pairOfFollower).bind
        fun _ => .pure ())]⟩ ⟨w₁, []⟩ ∧
      AnyOrder [⟨0⟩, ⟨1⟩] twoSettlements w₁ w ∧ w.Quiet [⟨0⟩, ⟨1⟩] ∧
      w.EndedWith ⟨3⟩ (some (.pair (.int 0) (.int 1))) := by
  have unresolved : ∀ p ∈ [(⟨0⟩ : PromiseId), ⟨1⟩], ∃ segment? observed,
      twoSources.promises[p.index]? = some ⟨segment?, observed, .unresolved []⟩ := by
    simp [twoSources]
  have acyclic : ∀ (i : Nat) d, pairOfFollower[i]? = some d → d.Uses fun p =>
      p ∈ [(⟨0⟩ : PromiseId), ⟨1⟩] ∨ twoSources.IsSettled p ∨
        twoSources.promises.size ≤ p.index ∧ p.index < twoSources.promises.size + i := by
    rintro (_ | _ | i) d hd <;> cases hd
    · exact .inl (.head _)
    · exact ⟨.inr (.inr ⟨Nat.le_refl 2, Nat.lt_succ_self 2⟩), .inl (.tail _ (.head _))⟩
  obtain ⟨w₁, hmade, hends⟩ := outcomes_confluent (σ := twoSettlements) rfl unresolved acyclic
  have hmade₁ := (hmade (fun _ => .pure ()) []).trans Machine.Step.finish.reaches
  -- the second task is run before the first one
  obtain ⟨c, hc, w, horder, hquiet⟩ : ∃ c, Machine.Reaches ⟨twoSources, [.script
      ((Script.derive pairOfFollower).bind fun _ => .pure ())]⟩ ⟨c, []⟩ ∧
      ∃ w, AnyOrder [⟨0⟩, ⟨1⟩] twoSettlements c w ∧ w.Quiet [⟨0⟩, ⟨1⟩] := by
    refine ⟨_, ⟨7, rfl⟩, ?_⟩
    have before {c c' : World Session.Play} (h : Happens [⟨0⟩, ⟨1⟩] twoSettlements c c') :
        (∃ w, AnyOrder [⟨0⟩, ⟨1⟩] twoSettlements c' w ∧ w.Quiet [⟨0⟩, ⟨1⟩]) →
          ∃ w, AnyOrder [⟨0⟩, ⟨1⟩] twoSettlements c w ∧ w.Quiet [⟨0⟩, ⟨1⟩] :=
      fun ⟨w, horder, hquiet⟩ => ⟨w, .head h horder, hquiet⟩
    refine before (.settle (.tail _ (.head _))) (before (.settle (.head _)) ?_)
    refine before (@Happens.run _ _ _ _ [_] [] _ _ rfl .zero ⟨4, rfl⟩) ?_
    refine before (@Happens.run _ _ _ _ [_] [] _ _ rfl .zero ⟨4, rfl⟩) ?_
    refine before (@Happens.run _ _ _ _ [] [] _ _ rfl .zero ⟨5, rfl⟩) ?_
    refine ⟨_, .refl, rfl, ?_⟩
    exact List.forall_mem_cons.mpr ⟨⟨_, rfl⟩, List.forall_mem_singleton.mpr ⟨_, rfl⟩⟩
  obtain rfl := hc.unique_of_nil hmade₁
  exact ⟨c, w, hc, horder, hquiet, (hends w horder).2 hquiet ⟨3⟩ (.inr (by decide))⟩

end World

end Eventual
