import Eventual.Proofs.SessionTwins

/-!
# Independent work does not interfere

Two sessions can be run in turns, as long as no name is used by both and they drive the clock
together.  Then the shared run is an interleaving of programs (`woven_course`), and so each of the
two does in it what it does alone (`Program.parties_do_not_interfere`).
-/

namespace Eventual

namespace Session

/-- The steps of two sessions in turns, between common drive calls: every name is ours or theirs,
and a step uses the names of its own session only. -/
inductive Interleaves (own : String → Bool) : List Step → List Step → List Step → Prop
  | nil : Interleaves own [] [] []
  /-- A step of ours. -/
  | ours {s : Step} {ps qs js : List Step} (within : s.Within (own · = true))
      (rest : Interleaves own ps qs js) : Interleaves own (s :: ps) qs (s :: js)
  /-- A step of theirs. -/
  | theirs {s : Step} {ps qs js : List Step} (within : s.Within (own · = false))
      (rest : Interleaves own ps qs js) : Interleaves own ps (s :: qs) (s :: js)
  /-- The clock is driven, but not until no task waits. -/
  | drive {d : Drive} {ps qs js : List Step} (stops : d ≠ .all)
      (rest : Interleaves own ps qs js) :
      Interleaves own (.drive d :: ps) (.drive d :: qs) (.drive d :: js)

section

variable {D : Sharing Play} {N : String → Prop} {ρ : Renaming} {c : Company Play}

lemma twins_script (hD : Serves D N) {s : Step} (hs : s.Within N) :
    (script s).Twins D Renaming.same ρ c (script s) :=
  (twins_replyOf (s.twins hD hs ρ c .nothing)).bind fun _ _ _ _ hr =>
    twins_note hD (.answered hr)

end

variable {f₁ f₂ g : Nat → Segment} {own : String → Bool} {ps qs js : List Step}

/-- A drive call is noted with the number of tasks that it ran. -/
lemma course_drive (d : Drive) (rest : List Step) :
    course (.drive d :: rest) = .drive d fun n => .op (.note (.answered (.count n))) fun _ =>
      course rest := by
  simp only [course, script, Step.resolve]
  rfl

/-- **Steps in turns are an interleaving of programs.** -/
theorem woven_course (h : Interleaves own ps qs js) (ρ₁ ρ₂ : Renaming) :
    Script.Woven (sharing f₁ f₂ g own) ρ₁ ρ₂ (course ps) (course qs) (course js) := by
  induction h generalizing ρ₁ ρ₂ with
  | nil => exact .done
  | ours within _ ih =>
    exact .ours Renaming.stable_same (fun _ => twins_script serves_ours within)
      fun ρ _ _ _ _ => ih ρ ρ₂
  | theirs within _ ih =>
    exact .theirs Renaming.stable_same (fun _ => twins_script serves_theirs within)
      fun ρ _ _ _ _ => ih ρ₁ ρ
  | drive stops _ ih =>
    rw [course_drive, course_drive, course_drive]
    exact .drive stops fun ρ₁' ρ₂' n₁ n₂ n _ _ =>
      .note ⟨n₁, n₂, n, rfl, rfl, rfl⟩ (ih ρ₁' ρ₂')

/-- Two sessions in turns share a world, whatever the walks meet. -/
lemma Interleaves.shares (h : Interleaves own ps qs js) (settings : Settings)
    (walks₁ walks₂ walks : Nat → List Frame) (internal : List String) :
    let ours := program settings walks₁ internal ps
    let theirs := program settings walks₂ internal qs
    let both := program settings walks internal js
    ours.Shares (sharing ours.start.world.stack theirs.start.world.stack both.start.world.stack own)
      theirs both where
  settings_left := rfl
  settings_right := rfl
  stacks_left _ _ _ capture := .captured capture
  stacks_right _ _ _ capture := .captured capture
  store := ⟨fun _ _ => ⟨.none, .none⟩, fun _ _ => ⟨.none, .none⟩⟩
  main := woven_course h {} {}

end Session

namespace Program

/-- **Independent work does not interfere.**  If a program is an interleaving of the steps of two
parties, each of which keeps to its own promises, callbacks and tasks, then each party does in it
what it does alone under the same drive calls: its tasks start and its callbacks are called in the
same order, at the same instants, with the same values, errors and traces, and its promises are in
the same states.  The steps of two sessions without common names can be interleaved in any way;
where a trace has a stack alone that some capture kept, it has in the shared run the stack that the
same capture keeps there. -/
theorem parties_do_not_interfere :
    (∀ {P : Payload} {D : Sharing P} {ours theirs both : Program P},
      ours.Shares D theirs both → ours.Independent D theirs both) ∧
    ∀ {own : String → Bool} {ps qs js : List Session.Step}, Session.Interleaves own ps qs js →
      ∀ (settings : Settings) (walks₁ walks₂ walks : Nat → List Frame) (internal : List String),
        let ours := Session.program settings walks₁ internal ps
        let theirs := Session.program settings walks₂ internal qs
        let both := Session.program settings walks internal js
        ours.Independent (Session.sharing ours.start.world.stack theirs.start.world.stack
          both.start.world.stack own) theirs both :=
  ⟨fun h => h.independent, fun h settings walks₁ walks₂ walks internal =>
    (h.shares settings walks₁ walks₂ walks internal).independent⟩

end Program

namespace Session

/-- A value that arrives after two milliseconds, and a callback that waits for it. -/
def arrival : List Step :=
  [.make (.mk (some "a") (.fulfillAfter (.given (.int 1)) (.millis 2))),
    .observe (.named "a") (some (.mk (some "arrived") [])) none,
    .drive (.advance (.millis 2))]

/-- A failure at the same instant, and a callback that waits for it. -/
def loss : List Step :=
  [.make (.mk (some "b") (.failAfter (.failed "lost") (.millis 2))),
    .observe (.named "b") none (some (.mk (some "missed") [])),
    .drive (.advance (.millis 2))]

/-- Both in turns. -/
def arrivalAndLoss : List Step :=
  [.make (.mk (some "b") (.failAfter (.failed "lost") (.millis 2))),
    .make (.mk (some "a") (.fulfillAfter (.given (.int 1)) (.millis 2))),
    .observe (.named "a") (some (.mk (some "arrived") [])) none,
    .observe (.named "b") none (some (.mk (some "missed") [])),
    .drive (.advance (.millis 2))]

lemma interleaves_arrivalAndLoss : Interleaves (· == "a") arrival loss arrivalAndLoss := by
  have hb : ∀ name, some "b" = some name → (name == "a") = false := by
    rintro name ⟨rfl⟩
    rfl
  have ha : ∀ name, some "a" = some name → (name == "a") = true := by
    rintro name ⟨rfl⟩
    rfl
  exact .theirs ⟨hb, trivial⟩ (.ours ⟨ha, trivial⟩ (.ours ⟨rfl, trivial, trivial⟩
    (.theirs ⟨rfl, trivial, trivial⟩ (.drive (fun h => nomatch h) .nil))))

end Session

namespace Program

open Session in
/-- The value and the failure do not interfere.  Alone, the value is the first promise; in the
shared run it is the second one, and both of its tasks and its callback run among those of the
failure.  All walks of a session meet the same frames, and so do all stacks. -/
theorem parties_do_not_interfere_arrivalAndLoss :
    let program := program .standard walk []
    let stack := (program []).start.world.stack
    Interleaves (· == "a") arrival loss arrivalAndLoss ∧
    (program arrival).Independent (sharing stack stack stack (· == "a")) (program loss)
      (program arrivalAndLoss) ∧
    (∀ ρ s s', Segment.Kept stack stack ρ s s' → s.map Segment.frames = s'.map Segment.frames) ∧
    (program arrival).At 23 (fun m => m.stack.length = 0 ∧
      (m.world.view ⟨0⟩).state = .succeeded) ∧
    ((program arrival).log 23).length = 4 ∧
    (program arrivalAndLoss).At 42 (fun m => m.stack.length = 0 ∧
      (m.world.view ⟨1⟩).state = .succeeded ∧ (m.world.view ⟨0⟩).state = .failed) ∧
    ((program arrivalAndLoss).log 42).length = 7 :=
  ⟨interleaves_arrivalAndLoss,
    parties_do_not_interfere.2 interleaves_arrivalAndLoss .standard walk walk walk [],
    fun _ _ _ h => h.frames_eq fun _ _ _ => rfl,
    ⟨_, rfl, rfl, rfl⟩, rfl, ⟨_, rfl, rfl, rfl, rfl⟩, rfl⟩

end Program

end Eventual
