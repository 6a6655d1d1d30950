import Eventual.Proofs.CollectLaw
import Eventual.Proofs.Joining

/-!
# What becomes of a join

A join collects the values of its inputs in a gathering, so what becomes of it is what becomes of
collected values.  Without inputs it has its result at once.
-/

namespace Eventual

variable {P : Payload}

namespace Program

/-- What has become of a join, called at moment `a` and the instant `start`, at a later moment
`j`. -/
structure JoinLaw (prog : Program P) (a : Nat) (inputs : List PromiseId) (r : PromiseId)
    (start : Duration) (j : Nat) (m : Machine P) : Prop where
  /-- It has failed if an input has failed. -/
  failed_iff : (m.world.view r).state = .failed ↔ ∃ p ∈ inputs, (m.world.view p).state = .failed
  /-- It has succeeded if all inputs have succeeded. -/
  succeeded_iff : (m.world.view r).state = .succeeded ↔
    ∀ p ∈ inputs, (m.world.view p).state = .succeeded
  /-- It fails because of the first input that fails, and at once. -/
  failure : (m.world.view r).state = .failed → ∃ i p c t T, inputs[i]? = some p ∧ c < j ∧
    prog.SettledAt c p (.failed t.error t.parent?) T ∧ (m.world.view p).trace? = some t ∧
    (∀ i' p' c' e cause? T', inputs[i']? = some p' → c' < j →
      prog.SettledAt c' p' (.failed e cause?) T' → ¬ Sooner a c' i' c i) ∧
    (∃ t', (m.world.view r).trace? = some t' ∧ t'.error = t.error ∧ t'.parent? = some t) ∧
    ∃ c' < j, prog.SettledAt c' r (.failed t.error (some t)) (start.later T)
  /-- It succeeds with the values of all inputs in their places, at the instant of the last
  settlement, or of the call if this is later. -/
  success : (m.world.view r).state = .succeeded → ∃ vs T,
    (m.world.view r).result? = some (.ok (P.list vs)) ∧
    List.Forall₂ (fun p v => (m.world.view p).result? = some (.ok v)) inputs vs ∧
    (∃ c' < j, prog.SettledAt c' r (.fulfilled (P.list vs)) T) ∧ start ≤ T ∧
    (∀ p ∈ inputs, ∀ c s T', c < j → prog.SettledAt c p s T' → T' ≤ T) ∧
    (T = start ∨ ∃ p ∈ inputs, ∃ c s, prog.SettledAt c p s T)

variable {prog : Program P} {a : Nat} {inputs : List PromiseId} {r : PromiseId} {g : GatheringId}
  {start : Duration} {j n : Nat} {m : Machine P}

/-- What becomes of values that are collected in a gathering. -/
lemma Collected.joinLaw (h : prog.Collected a inputs (.gathering g n) r start j m) :
    prog.JoinLaw a inputs r start j m :=
  ⟨h.failed_iff, h.succeeded_iff, h.failure, h.success⟩

variable {w : World P} {k : PromiseId → Script P Unit} {rest : List (Activity P)}

/-- A join of no inputs fulfills its result before it returns. -/
lemma fulfilled_of_call (ha : prog.moment a = some ⟨w, .script ((Script.join []).bind k) :: rest⟩) :
    ∃ w', prog.moment (a + 2) = some ⟨w', .script (k ⟨w.promises.size⟩) :: rest⟩ ∧
      (w'.view ⟨w.promises.size⟩).settlement? = some (.fulfilled (P.list [])) ∧
      prog.SettledAt (a + 1) ⟨w.promises.size⟩ (.fulfilled (P.list [])) w.clock := by
  obtain ⟨w₁, segment?, performed, promises, clock, -⟩ := World.perform_create w
  rw [Script.join_bind] at ha
  have h₁ := moment_of_operate ha performed
  rw [if_pos List.isEmpty_nil] at h₁
  have hnew : w₁.promises[w.promises.size]? = some ⟨segment?, 0, .unresolved []⟩ := by
    rw [promises, Array.getElem?_push_size]
  have hsettles : Machine.Settles ⟨w₁, .script (.op (.settle ⟨w.promises.size⟩
      (.fulfilled (P.list []))) fun _ => k ⟨w.promises.size⟩) :: rest⟩ ⟨w.promises.size⟩
      (.fulfilled (P.list [])) := by
    have hview := World.view_of_eq_some (p := ⟨w.promises.size⟩) hnew
    exact ⟨(Array.getElem?_eq_some_iff.mp hnew).1, congrArg View.settlement? hview, _, _, rfl⟩
  have performed₁ : w₁.perform (.settle ⟨w.promises.size⟩ (.fulfilled (P.list []))) =
      .answer (w₁.settle ⟨w.promises.size⟩ (.fulfilled (P.list []))).1
        (w₁.settle ⟨w.promises.size⟩ (.fulfilled (P.list []))).2 := rfl
  have h₂ := moment_of_operate h₁ performed₁
  exact ⟨_, h₂, settled_of_settles (Nat.lt_succ_self _) h₁ hsettles h₂, _, h₁, hsettles, clock⟩

/-- **What becomes of a join.**  A join returns its result after a known number of steps; if there
are no inputs, this is fulfilled already.  If nobody else settles the result, then at every later
moment at which no task is due and no delivery under way the law of joins holds of it. -/
theorem law_of_call (composed : prog.main.Composed True) (passive : prog.Passive)
    (ha : prog.moment a = some ⟨w, .script ((Script.join inputs).bind k) :: rest⟩)
    (exist : ∀ p ∈ inputs, p.index < w.promises.size) :
    (prog.At (a + 2 + inputs.length) fun m => m.stack = .script (k ⟨w.promises.size⟩) :: rest ∧
        (inputs = [] → (m.world.view ⟨w.promises.size⟩).result? = some (.ok (P.list [])))) ∧
      ∀ j m, a + 2 + inputs.length ≤ j → prog.moment j = some m → m.Quiet →
        (∀ c < j, prog.At c (fun m => m.Attempts ⟨w.promises.size⟩) →
          prog.DoneBy a (a + 2 + inputs.length) c) →
        prog.JoinLaw a inputs ⟨w.promises.size⟩ w.clock j m := by
  by_cases hne : inputs = []
  · subst hne
    obtain ⟨w', h', hsettled, hat⟩ := fulfilled_of_call ha
    refine ⟨⟨_, h', rfl, fun _ => by rw [View.result?, hsettled]⟩, fun j m hj hm _ _ => ?_⟩
    have hview := view_eq_of_settled hj h' hm hsettled
    rw [← hview] at hsettled
    have hstate : (m.world.view ⟨w.promises.size⟩).state = .succeeded := by
      rw [View.state, hsettled]
      rfl
    refine ⟨iff_of_false ?_ (by simp), iff_of_true hstate (by simp), fun hfailed => ?_, fun _ => ?_⟩
    · rw [hstate]
      exact fun heq => by cases heq
    · cases hstate.symm.trans hfailed
    · exact ⟨[], w.clock, by rw [View.result?, hsettled], .nil, ⟨a + 1, hj, hat⟩, Nat.le_refl _,
        by simp, Or.inl rfl⟩
  · obtain ⟨⟨m', hm', hstack, -⟩, hcollects⟩ := collects_of_join composed ha hne exist
    exact ⟨⟨m', hm', hstack, fun heq => absurd heq hne⟩, fun j m hj hm hquiet owned =>
      (hcollects.law passive hne owned hj hm hquiet).joinLaw⟩

end Program

end Eventual
