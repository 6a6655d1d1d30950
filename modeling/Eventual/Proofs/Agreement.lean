import Eventual.Proofs.CollectLaw
import Eventual.Proofs.Coupling
import Eventual.Proofs.Joining
import Eventual.Session.Run

/-!
# Two ways to join two promises

What becomes of collected values does not depend on the buffer that they are collected in.  So a
join of two promises, which uses a pairing, and a join of the list of them, which uses a gathering,
come to the same (`Program.JoinsAgree`), if they are called at one point (`Program.OnePoint`).
-/

namespace Eventual

variable {P : Payload}

/-- A trace with a parent has one link more. -/
lemma Trace.depth_eq_of_parent? {E : Type} {t t₀ : Trace E} (h : t.parent? = some t₀) :
    t.depth = t₀.depth + 1 := by
  rcases t with ⟨head, _ | ⟨l, ls⟩⟩
  · cases h
  · cases h
    rfl

namespace Program

/-- Two calls, at moments `a` and `a'`, are made at one point: at the same instant, and none of
their inputs is settled between them. -/
structure OnePoint (prog : Program P) (inputs : List PromiseId) (a a' : Nat) : Prop where
  instant : ∀ m m', prog.moment a = some m → prog.moment a' = some m' →
    m.world.clock = m'.world.clock
  between : ∀ p ∈ inputs, ∀ c s T, prog.SettledAt c p s T → (c < a ↔ c < a')

/-- At moment `j` the promises `r` for the pair and `r'` for the list of what `p` and `q` are
fulfilled with are in the same state, and they have come to it in the same way. -/
structure JoinsAgree (prog : Program P) (p q r r' : PromiseId) (j : Nat) (m : Machine P) :
    Prop where
  /-- Both have succeeded, or none has. -/
  succeeded_iff : (m.world.view r).state = .succeeded ↔ (m.world.view r').state = .succeeded
  /-- Both have failed, or none has. -/
  failed_iff : (m.world.view r).state = .failed ↔ (m.world.view r').state = .failed
  /-- The values of `p` and `q` are in the pair and in the list. -/
  values : (m.world.view r).state = .succeeded → ∃ x y,
    (m.world.view p).result? = some (.ok x) ∧ (m.world.view q).result? = some (.ok y) ∧
    (m.world.view r).result? = some (.ok (P.pair x y)) ∧
    (m.world.view r').result? = some (.ok (P.list [x, y]))
  /-- If pairs and lists are what they are made of, the one has a pair exactly if the other one has
  the list of its two sides. -/
  fulfilled_iff : Function.Injective2 P.pair → Function.Injective P.list → ∀ x y,
    (m.world.view r).result? = some (.ok (P.pair x y)) ↔
      (m.world.view r').result? = some (.ok (P.list [x, y]))
  /-- They have failed with one error, and because of one failure. -/
  failure : ∀ t t', (m.world.view r).trace? = some t → (m.world.view r').trace? = some t' →
    t.error = t'.error ∧ t.depth = t'.depth ∧ t.parent? = t'.parent?
  /-- They have been settled at one instant. -/
  instant : ∀ c c' s s' T T', c < j → c' < j → prog.SettledAt c r s T →
    prog.SettledAt c' r' s' T' → T = T'

variable {prog : Program P} {a a' f j : Nat} {inputs : List PromiseId} {p q r r' : PromiseId}
  {start : Duration} {m : Machine P}

/-! ## Calls at one point -/

/-- A call and what comes directly after it are at one point. -/
lemma Listens.onePoint {ob : Nat → Observer P} (h : prog.Listens a f inputs ob start) :
    prog.OnePoint inputs a (f + inputs.length) where
  instant m m' hm hm' := by
    have haf := h.le
    obtain ⟨m₁, h₁, hclock⟩ := h.instant a (Nat.le_refl a) (by omega)
    obtain ⟨m₂, h₂, hclock'⟩ := h.instant (f + inputs.length) (by omega) (Nat.le_refl _)
    cases hm.symm.trans h₁
    cases hm'.symm.trans h₂
    rw [hclock, hclock']
  between p _ c s T hc := by
    have haf := h.le
    constructor
    · omega
    · intro hlt
      by_contra hac
      have hafter := h.not_during hc (Nat.not_lt.mp hac)
      omega

namespace OnePoint

/-- Both calls have their inputs in one order. -/
lemma sooner_iff (h : prog.OnePoint inputs a a') {i i' c c' : Nat} {p p' : PromiseId}
    {s s' : Settlement P.Value P.Error} {T T' : Duration} (hp : inputs[i]? = some p)
    (hc : prog.SettledAt c p s T) (hp' : inputs[i']? = some p') (hc' : prog.SettledAt c' p' s' T') :
    Sooner a c i c' i' ↔ Sooner a' c i c' i' := by
  have hbefore := h.between p (List.mem_of_getElem? hp) c s T hc
  have hbefore' := h.between p' (List.mem_of_getElem? hp') c' s' T' hc'
  rw [Sooner, Sooner, hbefore, hbefore', ← Nat.not_lt, hbefore', Nat.not_lt]

end OnePoint

namespace Collected

variable {B B' : Buffer P}

/-! ## Two buffers -/

/-- If the results of two calls at one point have failed, they have failed because of one input. -/
lemma failure_agrees (h : prog.Collected a inputs B r start j m)
    (h' : prog.Collected a' inputs B' r' start j m) (point : prog.OnePoint inputs a a')
    (hfailed : (m.world.view r).state = .failed) (hfailed' : (m.world.view r').state = .failed) :
    ∃ t₀ t t', (m.world.view r).trace? = some t ∧ (m.world.view r').trace? = some t' ∧
      t.error = t'.error ∧ t.parent? = some t₀ ∧ t'.parent? = some t₀ ∧
      ∃ c c' s s' T, prog.SettledAt c r s T ∧ prog.SettledAt c' r' s' T := by
  obtain ⟨i, p, c, t₀, T, hp, hcj, hat, ht₀, hfirst, ⟨t, ht, herror, hparent⟩, d, -, hd⟩ :=
    h.failure hfailed
  obtain ⟨i', p', c', t₀', T', hp', hcj', hat', ht₀', hfirst', ⟨t', ht', herror', hparent'⟩, d', -,
    hd'⟩ := h'.failure hfailed'
  -- neither of the deciding inputs comes before the other one
  obtain rfl : p' = p := by
    rcases sooner_total (a := a) hp hat hp' hat' with heq | hsooner | hsooner
    · exact heq
    · exact absurd ((point.sooner_iff hp hat hp' hat').mp hsooner)
        (hfirst' i p c _ _ T hp hcj hat)
    · exact absurd hsooner (hfirst i' p' c' _ _ T' hp' hcj' hat')
  obtain rfl : t₀' = t₀ := Option.some.inj (ht₀'.symm.trans ht₀)
  obtain ⟨-, -, rfl⟩ := hat.unique hat'
  exact ⟨t₀', t, t', ht, ht', herror.trans herror'.symm, hparent, hparent', d, d', _, _, _, hd, hd'⟩

/-- The result of a call is not fulfilled later than the one of another call at its instant. -/
lemma instant_le (hm : prog.moment j = some m)
    (hsucceeded : ∀ p ∈ inputs, (m.world.view p).state = .succeeded) {T T' : Duration}
    (hT : T = start ∨ ∃ p ∈ inputs, ∃ c s, prog.SettledAt c p s T) (hstart : start ≤ T')
    (hlatest : ∀ p ∈ inputs, ∀ c s T₀, c < j → prog.SettledAt c p s T₀ → T₀ ≤ T') : T ≤ T' := by
  rcases hT with rfl | ⟨p, hp, c, s, hat⟩
  · exact hstart
  · obtain ⟨v, ho⟩ := View.state_eq_succeeded_iff.mp (hsucceeded p hp)
    obtain ⟨s', hs', -⟩ := Option.map_eq_some_iff.mp ho
    obtain ⟨c', hcj', mc, hmc, hsettles⟩ := exists_settles hm hs'
    obtain ⟨rfl, -⟩ := hat.unique ⟨mc, hmc, hsettles, rfl⟩
    exact hlatest p hp c s T hcj' hat

/-- If the results of two calls at one instant have succeeded, they have the same values. -/
lemma success_agrees (hm : prog.moment j = some m) (h : prog.Collected a inputs B r start j m)
    (h' : prog.Collected a' inputs B' r' start j m)
    (hsucceeded : (m.world.view r).state = .succeeded)
    (hsucceeded' : (m.world.view r').state = .succeeded) :
    ∃ y y', (m.world.view r).result? = some (.ok (B.value y)) ∧
      (m.world.view r').result? = some (.ok (B'.value y')) ∧ B.values y = B'.values y' ∧
      List.Forall₂ (fun p v => (m.world.view p).result? = some (.ok v)) inputs (B.values y) ∧
      ∃ c c' s s' T, prog.SettledAt c r s T ∧ prog.SettledAt c' r' s' T := by
  obtain ⟨y, T, hresult, hvalues, ⟨c, -, hc⟩, hstart, hlatest, hT⟩ := h.success hsucceeded
  obtain ⟨y', T', hresult', hvalues', ⟨c', -, hc'⟩, hstart', hlatest', hT'⟩ :=
    h'.success hsucceeded'
  have hall := h.succeeded_iff.mp hsucceeded
  obtain rfl : T = T' := Duration.ext (Nat.le_antisymm (instant_le hm hall hT hstart' hlatest')
    (instant_le hm hall hT' hstart hlatest))
  refine ⟨y, y', hresult, hresult', ?_, hvalues, c, c', _, _, T, hc, hc'⟩
  refine List.right_unique_forall₂' (fun p v v' hv hv' => ?_) hvalues hvalues'
  cases hv.symm.trans hv'
  rfl

/-- However the results of two calls at one point have ended, both were settled at one instant. -/
lemma instant_agrees (h : prog.Collected a inputs B r start j m) (hm : prog.moment j = some m)
    (h' : prog.Collected a' inputs B' r' start j m) (point : prog.OnePoint inputs a a') {c c' : Nat}
    {s s' : Settlement P.Value P.Error} {T T' : Duration} (hcj : c < j)
    (hc : prog.SettledAt c r s T) (hc' : prog.SettledAt c' r' s' T') : T = T' := by
  obtain ⟨d, d', u, u', T₀, hd, hd'⟩ : ∃ d d' u u' T₀,
      prog.SettledAt d r u T₀ ∧ prog.SettledAt d' r' u' T₀ := by
    obtain ⟨mc, hmc, hsettles, -⟩ := id hc
    have hs := settled_of_settles hcj hmc hsettles hm
    cases s with
    | fulfilled v =>
      have hr : (m.world.view r).state = .succeeded := View.state_of_settlement? hs
      obtain ⟨-, -, -, -, -, -, hat⟩ := success_agrees hm h h' hr
        (h'.succeeded_iff.mpr (h.succeeded_iff.mp hr))
      exact hat
    | failed e cause? =>
      have hr : (m.world.view r).state = .failed := View.state_of_settlement? hs
      obtain ⟨-, -, -, -, -, -, -, -, hat⟩ := h.failure_agrees h' point hr
        (h'.failed_iff.mpr (h.failed_iff.mp hr))
      exact hat
  obtain ⟨-, -, rfl⟩ := hc.unique hd
  obtain ⟨-, -, rfl⟩ := hc'.unique hd'
  rfl

end Collected

/-! ## A pair and a list -/

/-- The pair and the list hold the values of the two promises. -/
lemma values_of_collected {g : PairingId} {g' : GatheringId} {n : Nat}
    (hm : prog.moment j = some m) (h : prog.Collected a [p, q] (.pairing g) r start j m)
    (h' : prog.Collected a' [p, q] (.gathering g' n) r' start j m)
    (hsucceeded : (m.world.view r).state = .succeeded) : ∃ x y,
      (m.world.view p).result? = some (.ok x) ∧ (m.world.view q).result? = some (.ok y) ∧
      (m.world.view r).result? = some (.ok (P.pair x y)) ∧
      (m.world.view r').result? = some (.ok (P.list [x, y])) := by
  obtain ⟨⟨x, y⟩, ys, hr, hr', hys, hall, -⟩ := Collected.success_agrees hm h h' hsucceeded
    (h'.succeeded_iff.mpr (h.succeeded_iff.mp hsucceeded))
  obtain rfl : [x, y] = ys := hys
  obtain ⟨hx, hall⟩ := List.forall₂_cons.mp hall
  obtain ⟨hy, -⟩ := List.forall₂_cons.mp hall
  exact ⟨x, y, hx, hy, hr, hr'⟩

/-- What becomes of values that are collected in a pairing and in a gathering. -/
theorem joinsAgree_of_collected {g : PairingId} {g' : GatheringId} {n : Nat}
    (hm : prog.moment j = some m) (point : prog.OnePoint [p, q] a a')
    (h : prog.Collected a [p, q] (.pairing g) r start j m)
    (h' : prog.Collected a' [p, q] (.gathering g' n) r' start j m) :
    prog.JoinsAgree p q r r' j m where
  succeeded_iff := h.succeeded_iff.trans h'.succeeded_iff.symm
  failed_iff := h.failed_iff.trans h'.failed_iff.symm
  values := values_of_collected hm h h'
  fulfilled_iff hpair hlist x y := by
    constructor
    · intro hr
      obtain ⟨x', y', -, -, hxy, hxy'⟩ := values_of_collected hm h h' (View.state_of_result?_ok hr)
      obtain ⟨rfl, rfl⟩ := hpair (Except.ok.inj (Option.some.inj (hr.symm.trans hxy)))
      exact hxy'
    · intro hr'
      obtain ⟨x', y', -, -, hxy, hxy'⟩ := values_of_collected hm h h'
        (h.succeeded_iff.mpr (h'.succeeded_iff.mp (View.state_of_result?_ok hr')))
      cases hlist (Except.ok.inj (Option.some.inj (hr'.symm.trans hxy')))
      exact hxy
  failure t t' ht ht' := by
    obtain ⟨t₀, t₁, t₁', ht₁, ht₁', herror, hparent, hparent', -⟩ :=
      h.failure_agrees h' point (View.state_of_trace? ht) (View.state_of_trace? ht')
    cases ht.symm.trans ht₁
    cases ht'.symm.trans ht₁'
    exact ⟨herror, by rw [Trace.depth_eq_of_parent? hparent, Trace.depth_eq_of_parent? hparent'],
      hparent.trans hparent'.symm⟩
  instant _ _ _ _ _ _ hcj _ hc hc' := h.instant_agrees hm h' point hcj hc hc'

/-- **Two ways to join two promises.**  In every run of a composed program in which no callback
makes a drive call, if a join of two promises, which may be the same, and a join of the list of them
are called at one point:

* both calls return their results after four steps;
* unless somebody else has attempted to settle one of the results, at every later moment at which no
  task is due or under way the results agree (`Program.JoinsAgree`): the one has succeeded with the
  pair of two values exactly if the other one has with their list; the one has failed exactly if the
  other one has, with the same error, as deep a trace and the same parent trace; and both have been
  settled at the same instant.

A call and what comes directly after it are at one point (`Program.Listens.onePoint`). -/
theorem joinPair_agrees_join (prog : Program P) (composed : prog.main.Composed True)
    (passive : prog.Passive) {a a' : Nat} {w w' : World P} {p q : PromiseId}
    {k k' : PromiseId → Script P Unit} {rest rest' : List (Activity P)}
    (ha : prog.moment a = some ⟨w, .script ((Script.joinPair p q).bind k) :: rest⟩)
    (ha' : prog.moment a' = some ⟨w', .script ((Script.join [p, q]).bind k') :: rest'⟩)
    (exist : ∀ x ∈ [p, q], x.index < w.promises.size)
    (exist' : ∀ x ∈ [p, q], x.index < w'.promises.size)
    (point : prog.OnePoint [p, q] a a') :
    prog.At (a + 4) (fun m => m.stack = .script (k ⟨w.promises.size⟩) :: rest) ∧
      prog.At (a' + 4) (fun m => m.stack = .script (k' ⟨w'.promises.size⟩) :: rest') ∧
      ∀ j m, a + 4 ≤ j → a' + 4 ≤ j → prog.moment j = some m → m.Calm →
        (∀ c < j, prog.At c (fun m => m.Attempts ⟨w.promises.size⟩) → prog.DoneBy a (a + 4) c) →
        (∀ c < j, prog.At c (fun m => m.Attempts ⟨w'.promises.size⟩) →
          prog.DoneBy a' (a' + 4) c) →
        prog.JoinsAgree p q ⟨w.promises.size⟩ ⟨w'.promises.size⟩ j m := by
  obtain ⟨⟨m₁, h₁, hstack, -⟩, hcollects⟩ := collects_of_joinPair composed ha exist
  obtain ⟨⟨m₂, h₂, hstack', -⟩, hcollects'⟩ :=
    collects_of_join composed ha' (List.cons_ne_nil p [q]) exist'
  refine ⟨⟨m₁, h₁, hstack⟩, ⟨m₂, h₂, hstack'⟩, fun j m hj hj' hm hcalm owned owned' => ?_⟩
  have hquiet := quiet_of_calm hm hcalm
  have hclock : w.clock = w'.clock := point.instant _ _ ha ha'
  rw [← hclock] at hcollects'
  exact joinsAgree_of_collected hm point
    (hcollects.law passive (List.cons_ne_nil p [q]) owned hj hm hquiet)
    (hcollects'.law passive (List.cons_ne_nil p [q]) owned' hj' hm hquiet)

/-- A program that joins two promises twice, as a pair and as a list.  The second one is fulfilled
at once, the first one two milliseconds later. -/
def joinedTwice : Program Session.Play where
  settings := .withoutTraces
  walks _ := []
  internal := []
  store := {}
  main := do
    let p ← Script.create
    let q ← Script.create
    let _ ← Script.joinPair p q
    let _ ← Script.join [p, q]
    discard (Script.fulfill q (Session.Play.span (.millis 7)))
    Script.schedule (.millis 2) (discard (Script.fulfill p (Session.Play.span (.millis 3))))
    discard Script.runAll

namespace joinedTwice

lemma composed : joinedTwice.main.Composed True := by
  refine .bind (.once trivial) fun p => .bind (.once trivial) fun q => ?_
  refine .bind (.joinPair p q) fun _ => .bind (.join [p, q]) fun _ => ?_
  refine .bind (.bind (.once trivial) fun _ => .pure ()) fun _ => ?_
  refine .bind (.schedule _ (.bind (.once trivial) fun _ => .pure ())) fun _ => ?_
  exact .bind (.drive .all fun n => .pure n) fun _ => .pure ()

lemma passive : joinedTwice.Passive := by
  refine (flat_of_ends (n := 37) rfl ?_).passive
  decide +kernel

/-- The pair is made by the callback of the first promise. -/
lemma doneBy_pair : joinedTwice.DoneBy 2 6 27 := by
  refine Or.inr ⟨4, ⟨0⟩, 0, by decide, by decide, ⟨_, rfl, ⟨_, by decide, _, _, rfl⟩, rfl⟩,
    25, _, _, _, _, by decide, ⟨_, rfl, rfl⟩, rfl, fun i hi hle => ?_⟩
  obtain rfl | rfl : i = 26 ∨ i = 27 := by omega
  all_goals exact ⟨_, rfl, [_], by simp, rfl⟩

/-- So is the list. -/
lemma doneBy_list : joinedTwice.DoneBy 6 10 31 := by
  refine Or.inr ⟨8, ⟨0⟩, 1, by decide, by decide, ⟨_, rfl, ⟨_, by decide, _, _, rfl⟩, rfl⟩,
    29, _, _, _, _, by decide, ⟨_, rfl, rfl⟩, rfl, fun i hi hle => ?_⟩
  obtain rfl | rfl : i = 30 ∨ i = 31 := by omega
  all_goals exact ⟨_, rfl, [_], by simp, rfl⟩

end joinedTwice

/-- In `joinedTwice` the one result has the pair and the other one the list when the drive is
over. -/
theorem joinPair_agrees_join_joinedTwice : ∃ m, joinedTwice.moment 35 = some m ∧
    (m.world.view ⟨2⟩).result? = some (.ok (Session.Play.pair
      (Session.Play.span (.millis 3)) (Session.Play.span (.millis 7)))) ∧
    joinedTwice.JoinsAgree ⟨0⟩ ⟨1⟩ ⟨2⟩ ⟨3⟩ 35 m := by
  obtain ⟨w, k, rest, ha, hsize⟩ : ∃ w k rest,
      joinedTwice.moment 2 = some ⟨w, .script ((Script.joinPair ⟨0⟩ ⟨1⟩).bind k) :: rest⟩ ∧
        w.promises.size = 2 := ⟨_, _, _, rfl, rfl⟩
  obtain ⟨w', k', rest', ha', hsize'⟩ : ∃ w k rest,
      joinedTwice.moment 6 = some ⟨w, .script ((Script.join [⟨0⟩, ⟨1⟩]).bind k) :: rest⟩ ∧
        w.promises.size = 3 := ⟨_, _, _, rfl, rfl⟩
  obtain ⟨m, hm, hresult, hstack, hwaiting⟩ : ∃ m, joinedTwice.moment 35 = some m ∧
      (m.world.view ⟨2⟩).result? = some (.ok (Session.Play.pair
        (Session.Play.span (.millis 3)) (Session.Play.span (.millis 7)))) ∧
        m.stack = [.script (.pure ())] ∧ m.world.queue.waiting = [] := ⟨_, rfl, rfl, rfl, rfl⟩
  have hcalm : m.Calm := Machine.calm_of_idle hwaiting hstack
  have exist : ∀ x ∈ [(⟨0⟩ : PromiseId), ⟨1⟩], x.index < w.promises.size := by simp [hsize]
  -- the one call comes directly after the other one
  obtain ⟨-, hcollects⟩ := collects_of_joinPair joinedTwice.composed ha exist
  obtain ⟨-, -, hagree⟩ := joinPair_agrees_join joinedTwice joinedTwice.composed
    joinedTwice.passive ha ha' exist (by simp [hsize']) hcollects.listens.onePoint
  rw [hsize, hsize'] at hagree
  refine ⟨m, hm, hresult, hagree 35 m (by decide) (by decide) hm hcalm (fun c hc hat => ?_)
    fun c hc hat => ?_⟩
  · obtain rfl : c = 27 := of_attempted (Q := (· = 27)) (by decide +kernel) hc hat
    exact joinedTwice.doneBy_pair
  · obtain rfl : c = 31 := of_attempted (Q := (· = 31)) (by decide +kernel) hc hat
    exact joinedTwice.doneBy_list

end Program

end Eventual
