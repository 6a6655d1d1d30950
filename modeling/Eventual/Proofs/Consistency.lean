import Eventual.Proofs.Composed
import Eventual.Proofs.Delivery

/-!
# The traces of failures

The trace of a failed promise is made once, by the attempt that settled it: its newest link has the
error and the stack of the promise, and the links before it are those of the cause that was given.
Everybody who reads it or is told of it gets the same trace (`Program.traces_consistent`).  If a
program never gives a cause itself, all causes are given by combinators, which pass a failure on
with its error; then all links of a trace have the same error.
-/

namespace Eventual

variable {P : Payload}

/-- All links of a trace have the error of the newest one. -/
def Trace.Uniform {E : Type} (t : Trace E) : Prop := ∀ l ∈ t.links, l.error = t.error

lemma Trace.uniform_ofFailure_none {E : Type} (e : E) (segment? : Option Segment) :
    (ofFailure e segment? none).Uniform := by
  intro l hl
  obtain rfl := List.mem_singleton.mp hl
  rfl

lemma Trace.Uniform.ofFailure {E : Type} {t : Trace E} (h : t.Uniform)
    (segment? : Option Segment) : (ofFailure t.error segment? (some t)).Uniform := by
  intro l hl
  rw [error_ofFailure]
  simp only [Trace.ofFailure, links, List.mem_reverse, List.mem_cons] at hl
  rcases hl with rfl | hl
  · rfl
  · exact h l (by simpa [links, or_comm] using hl)

/-- The scope of scripts that give as cause of a failure only traces with links of the same error,
for that error. -/
def Scope.uniform : Scope P where
  trace := Trace.Uniform
  settlement
    | .failed e (some t) => t.error = e ∧ t.Uniform
    | _ => True
  gathering _ := True
  pairing _ := True
  retry _ := True
  fulfilled _ := trivial
  passed _ ht := ⟨rfl, ht⟩
  traced e segment? cause? h := by
    cases cause? with
    | none => exact Trace.uniform_ofFailure_none e segment?
    | some t =>
      obtain ⟨rfl, ht⟩ := h
      exact ht.ofFailure segment?

/-- What is read of a failed promise, by the settlement that it was given. -/
lemma View.of_failed {V E : Type} {v : View V E} (h : v.state = .failed) :
    ∃ t, v.trace? = some t ∧ v.result? = some (.error t.error) ∧ t.head.segment? = v.segment? ∧
      v.settlement? = some (.failed t.error t.parent?) := by
  obtain ⟨segment?, _ | _ | ⟨e, cause?⟩⟩ := v
  · cases h
  · cases h
  · refine ⟨_, rfl, ?_, ?_, ?_⟩
    · rw [Trace.error_ofFailure]
      rfl
    · exact Trace.segment?_head_ofFailure e segment? cause?
    · rw [Trace.error_ofFailure, Trace.parent?_ofFailure]

namespace Program

/-- **There is one trace for each failure.**  In every run:

* a failed promise has a trace; its error is the one that is read of the promise, its newest segment
  is that of the promise, and what is behind is the cause given by the attempt that settled it;
* the trace never changes;
* a callback that runs for a failed promise, whenever its observer was registered, is the one for
  this trace;
* if the program is composed and never gives a cause itself, all links of a trace that can be read
  or is delivered have the same error. -/
theorem traces_consistent (prog : Program P) :
    (∀ n m p, prog.moment n = some m → (m.world.view p).state = .failed →
      ∃ t, (m.world.view p).trace? = some t ∧
        (m.world.view p).result? = some (.error t.error) ∧
        t.head.segment? = (m.world.view p).segment? ∧
        ∃ i < n, prog.At i fun m => m.Settles p (.failed t.error t.parent?)) ∧
    (∀ i j m m' p, i ≤ j → prog.moment i = some m → prog.moment j = some m' →
      (m.world.view p).state = .failed → (m'.world.view p).trace? = (m.world.view p).trace?) ∧
    (∀ i j m m' p ob body, prog.moment i = some m → m.Observes p ob →
      prog.moment j = some m' → m'.Calls p (m.world.observed p) body →
      (m'.world.view p).state = .failed →
      ∃ t, (m'.world.view p).trace? = some t ∧
        (m'.world.view p).result? = some (.error t.error) ∧
        ob.handler? (.failed t) = some body) ∧
    (prog.main.Composed False → ∀ n m, prog.moment n = some m →
      (∀ p t, (m.world.view p).trace? = some t → t.Uniform) ∧
      ∀ p t rs, m.Delivers p (.failed t) rs → t.Uniform) := by
  refine ⟨?_, ?_, ?_, ?_⟩
  · intro n m p h hfailed
    obtain ⟨t, htrace, hresult, hsegment, hsettled⟩ := View.of_failed hfailed
    exact ⟨t, htrace, hresult, hsegment, exists_settles h hsettled⟩
  · intro i j m m' p hij hi hj hfailed
    obtain ⟨t, -, -, -, hsettled⟩ := View.of_failed hfailed
    rw [view_eq_of_settled hij hi hj hsettled]
  · intro i j m m' p ob body hi hob hj hcalls hfailed
    obtain ⟨t, htrace, hresult, -, -⟩ := View.of_failed hfailed
    refine ⟨t, htrace, hresult, ?_⟩
    obtain ⟨-, ⟨v, hvalue, -⟩ | ⟨t', -, htrace', handler⟩⟩ :=
      (toldOnce hi hob).given j m' body hj hcalls
    · cases hvalue.symm.trans hresult
    · cases htrace.symm.trans htrace'
      exact handler
  · intro composed n m h
    have hm : m.ConfinedTo Scope.uniform := by
      refine Program.confinedTo composed ?_ h
        ⟨fun _ _ => trivial, fun _ _ => trivial, fun _ _ => trivial⟩
      rintro (v | ⟨e, cause?⟩) hplain
      · trivial
      · cases cause? with
        | none => trivial
        | some t => exact hplain.elim
    have htraces : ∀ p t, (m.world.view p).trace? = some t → t.Uniform := hm.world.traces
    refine ⟨htraces, fun p t rs hdelivers => ?_⟩
    exact htraces p t (View.outcome?_eq_failed_iff.mp (truthful h p _ rs hdelivers).1)

/-- A program in which a failure is passed on by a join, whose result has an observer. -/
def failingInput : Program Session.Play where
  settings := .withoutTraces
  walks _ := []
  internal := []
  store := {}
  main := do
    let p ← Script.create
    let q ← Script.join [p]
    Script.observe q (.onFailure fun _ => pure ())
    discard (Script.fail p (.failed "lost"))
    discard Script.runUntilIdle

lemma failingInput_composed : failingInput.main.Composed False := by
  refine .bind (.once trivial) fun p => .bind (.join [p]) fun q => ?_
  refine .bind (.observe q ?_) fun _ => .bind (.bind (.once trivial) fun _ => .pure ()) fun _ => ?_
  · rintro (v | t) body handler
    · cases handler
    · cases handler
      exact .pure ()
  · exact .bind (.drive .idle fun n => .pure n) fun _ => .pure ()

/-- In `failingInput` the join fails with the error of its input, and because of it. -/
theorem traces_consistent_failingInput :
    ∃ m m' t body, failingInput.moment 4 = some m ∧ failingInput.moment 13 = some m' ∧
      m.Observes ⟨1⟩ (.onFailure fun _ => pure ()) ∧ m'.Calls ⟨1⟩ 0 body ∧
      (m'.world.view ⟨1⟩).trace? = some t ∧ t.depth = 2 ∧ t.Uniform ∧
      (m'.world.view ⟨1⟩).result? = some (.error t.error) ∧
      ∃ i < 13, failingInput.At i fun m => m.Settles ⟨1⟩ (.failed t.error t.parent?) := by
  obtain ⟨hfailed, -, htold, huniform⟩ := traces_consistent failingInput
  obtain ⟨m, hm, hobserves, hzero⟩ : ∃ m, failingInput.moment 4 = some m ∧
      m.Observes ⟨1⟩ (.onFailure fun _ => pure ()) ∧ m.world.observed ⟨1⟩ = 0 :=
    ⟨_, rfl, ⟨by decide, _, _, rfl⟩, rfl⟩
  obtain ⟨m', body, hm', hcalls, hstate, hdepth⟩ : ∃ m' body, failingInput.moment 13 = some m' ∧
      m'.Calls ⟨1⟩ 0 body ∧ (m'.world.view ⟨1⟩).state = .failed ∧
      (m'.world.view ⟨1⟩).trace?.map Trace.depth = some 2 :=
    ⟨_, _, rfl, ⟨_, _, _, _, rfl, rfl, rfl⟩, rfl, rfl⟩
  rw [← hzero] at hcalls
  obtain ⟨t, htrace, hresult, -⟩ := htold 4 13 m m' ⟨1⟩ _ body hm hobserves hm' hcalls hstate
  obtain ⟨t', htrace', -, -, hsettles⟩ := hfailed 13 m' ⟨1⟩ hm' hstate
  cases htrace.symm.trans htrace'
  rw [htrace, Option.map_some, Option.some.injEq] at hdepth
  rw [hzero] at hcalls
  exact ⟨m, m', t, body, hm, hm', hobserves, hcalls, htrace, hdepth,
    (huniform failingInput_composed 13 m' hm').1 ⟨1⟩ t htrace, hresult, hsettles⟩

end Program

end Eventual
