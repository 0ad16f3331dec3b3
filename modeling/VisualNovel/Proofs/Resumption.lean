import VisualNovel.Proofs.Past
import VisualNovel.Proofs.Positions

namespace VisualNovel

def Wake.anonymous (wake : Wake) : Wake :=
  match wake.timer with
  | .settle _ => ⟨0, .settle 0⟩
  | .reveal _ => ⟨0, .reveal ⟨0⟩⟩

def Step.anonymous : Step → Step
  | .resume after wake => .resume after wake.anonymous
  | step => step

def Answer.anonymous : Answer → Answer
  | .step handed => .step handed.anonymous
  | answer => answer

theorem Past.anonymous_answer (past : Past) (answer : Answer) :
    (past.answer answer).anonymous = answer.anonymous := by
  cases answer with
  | step step =>
      cases step with
      | resume after wake =>
          obtain ⟨run, timer⟩ := wake
          cases timer <;> rfl
      | _ => rfl
  | refusal refusal => rfl
  | nothing => rfl

/-- Since `first` and since `second` the same has been handed back, given and reported, and it has
come to the same. -/
structure Session.SameSince (first second : Interpreter) (here there : List Answer × Session) :
    Prop where
  answers : here.1.map Answer.anonymous = there.1.map Answer.anonymous
  cues : ∃ given, here.2.interpreter.cues = first.cues ++ given ∧
    there.2.interpreter.cues = second.cues ++ given
  diagnostics : ∃ reported, here.2.interpreter.diagnostics = first.diagnostics ++ reported ∧
    there.2.interpreter.diagnostics = second.diagnostics ++ reported
  pc : here.2.interpreter.pc = there.2.interpreter.pc
  phase : here.2.interpreter.phase = there.2.interpreter.phase
  scene : here.2.interpreter.scene = there.2.interpreter.scene
  pendingChoices :
    here.2.interpreter.pendingChoices = there.2.interpreter.pendingChoices

namespace Interpreter

structure AtRest (interpreter : Interpreter) : Prop where
  settling : interpreter.settling = none
  active : interpreter.reveal.active = none

def past (interpreter : Interpreter) : Past :=
  ⟨interpreter.run, interpreter.timers, interpreter.reveal.generation, interpreter.diagnostics,
    interpreter.history⟩

def withoutPast (interpreter : Interpreter) : Interpreter :=
  { interpreter with
    run := 0
    timers := 0
    settling := none
    reveal := .idle
    diagnostics := []
    history := #[] }

theorem past_interpreter {interpreter : Interpreter} (rest : interpreter.AtRest) :
    interpreter.past.interpreter interpreter.withoutPast = interpreter := by
  obtain ⟨machine, history⟩ := interpreter
  obtain ⟨_, _, _, _, _, _, settling, ⟨generation, active⟩, _, _, _⟩ := machine
  obtain rfl : settling = none := rest.settling
  obtain rfl : active = none := rest.active
  simp [Past.interpreter, past, withoutPast, Past.reveal, Reveal.idle]

variable {here there : Interpreter} {stage stage' : Stage}

theorem play_eq_past (rest : here.AtRest) (moves : List (Move Nat)) :
    Session.play stage moves ⟨here, []⟩ =
      (Session.play (here.past.stage stage) moves ⟨here.withoutPast, []⟩).map
        (List.map here.past.answer) here.past.session := by
  have played := Session.play_past here.past stage moves ⟨here.withoutPast, []⟩
  rwa [Past.session, past_interpreter rest] at played

theorem sameSince_of_withoutPast (same : here.withoutPast = there.withoutPast)
    (rest : here.AtRest) (rest' : there.AtRest)
    (stages : here.past.stage stage = there.past.stage stage') (moves : List (Move Nat)) :
    Session.SameSince here there (Session.play stage moves ⟨here, []⟩)
      (Session.play stage' moves ⟨there, []⟩) := by
  rw [play_eq_past rest, play_eq_past rest', same, stages]
  generalize Session.play (there.past.stage stage') moves ⟨there.withoutPast, []⟩ = outcome
  obtain ⟨answers, session⟩ := outcome
  refine ⟨?_, ⟨session.interpreter.cues, ?_, ?_⟩, ⟨session.interpreter.diagnostics, rfl, rfl⟩,
    rfl, rfl, rfl, rfl⟩
  · have anonymous (past : Past) : Answer.anonymous ∘ past.answer = Answer.anonymous :=
      funext past.anonymous_answer
    simp only [Prod.map, List.map_map, anonymous]
  · exact Past.cues_interpreter here.past session.interpreter
  · exact Past.cues_interpreter there.past session.interpreter

theorem save_eq {interpreter : Interpreter} (suspended : interpreter.phase.isSuspended) :
    interpreter.save = .ok ⟨interpreter.script.fingerprint, interpreter.pc, interpreter.phase,
      interpreter.scene, interpreter.choiceAt⟩ := by
  unfold save
  rw [if_pos suspended]

theorem Placed.fits {interpreter : Interpreter} (placed : Placed interpreter) {save : SavePoint}
    (suspended : interpreter.phase.isSuspended) (saved : interpreter.save = .ok save) :
    ∃ step, save.step? interpreter.script = .ok step ∧
      (interpreter.phase = .awaitingAdvance ∧ step = .awaitAdvance ∨
        interpreter.phase = .awaitingChoice ∧ step = .awaitChoice) := by
  rw [save_eq suspended] at saved
  obtain rfl := Except.ok.inj saved
  cases phase : interpreter.phase with
  | awaitingAdvance =>
      refine ⟨.awaitAdvance, SavePoint.step?_ok_iff.mpr ⟨rfl, placed.pc, ?_⟩, .inl ⟨rfl, rfl⟩⟩
      exact .advance rfl
  | awaitingChoice =>
      refine ⟨.awaitChoice, SavePoint.step?_ok_iff.mpr ⟨rfl, placed.pc, ?_⟩, .inr ⟨rfl, rfl⟩⟩
      obtain ⟨offset, options, pending, found, follows⟩ := placed.choice phase
      exact .choice offset options rfl pending found follows
  | _ => simp [phase, Phase.isSuspended] at suspended

theorem restored_withoutPast (stage : Stage) {original : Interpreter} (placed : Placed original)
    {save : SavePoint} (suspended : original.phase.isSuspended)
    (saved : original.save = .ok save) (other : Interpreter) :
    ((other.putBack original.script save).replay stage).withoutPast = original.withoutPast := by
  rw [save_eq suspended] at saved
  obtain rfl := Except.ok.inj saved
  have shown := replay_shown (other.putBack original.script ⟨original.script.fingerprint,
    original.pc, original.phase, original.scene, original.choiceAt⟩) stage
  have phase := phase_of_clock shown.clock
  simp only [withoutPast, shown.script, shown.targets, shown.pc, phase, shown.scene,
    shown.choiceAt]
  simp only [putBack, reset, note_toMachine, ← placed.targets]

theorem restored_atRest (stage : Stage) (script : Script) (save : SavePoint)
    (interpreter : Interpreter) :
    ((interpreter.putBack script save).replay stage).AtRest := by
  have shown := replay_shown (interpreter.putBack script save) stage
  constructor
  · exact settling_of_clock shown.clock
  · exact active_of_clock shown.clock

theorem Reachable.atRest {stage : Stage} {interpreter : Interpreter}
    (reachable : Reachable stage interpreter) (suspended : interpreter.phase.isSuspended) :
    interpreter.AtRest := by
  have halted : interpreter.phase ≠ .running := by
    intro running
    rw [running] at suspended
    cases suspended
  obtain ⟨settling, active⟩ := reachable.timely.halted halted
  exact ⟨settling, active⟩

/-- A run that waits on the reader can be saved, any interpreter with the same table and settings
can go on from the save point, and as long as the two stages give the same answers to cues for
music no host can tell the two apart. -/
theorem resume_transparent (stage : Stage) (playback : Playback) {original : Interpreter}
    (reachable : Reachable stage original) (suspended : original.phase.isSuspended)
    (other : Interpreter) :
    ∃ save step resumed, original.save = .ok save ∧
      other.restore { stage with playback } original.script save = (.ok step, resumed) ∧
      (original.phase = .awaitingAdvance ∧ step = .awaitAdvance ∨
        original.phase = .awaitingChoice ∧ step = .awaitChoice) ∧
      ((∀ later, stage.playback (original.cues ++ later) = playback (resumed.cues ++ later)) →
        ∀ moves : List (Move Nat), Session.SameSince original resumed
          (Session.play stage moves ⟨original, []⟩)
          (Session.play { stage with playback } moves ⟨resumed, []⟩)) := by
  have placed := reachable.placed
  have saved := save_eq suspended
  obtain ⟨step, accepted, waits⟩ := placed.fits suspended saved
  refine ⟨_, step, _, saved, restore_eq other accepted, waits, ?_⟩
  -- From here on the two are one interpreter after two pasts.
  intro answers moves
  refine sameSince_of_withoutPast ?_ (reachable.atRest suspended) (restored_atRest ..) ?_ moves
  · exact (restored_withoutPast _ placed suspended saved other).symm
  · exact congrArg (Stage.mk stage.table stage.settings) (funext answers)

theorem resume_transparent_at_choice :
    let stage : Stage := ⟨{}, .standard, .accepting⟩
    let script : Script := ⟨[.choice [⟨"Left", none, none⟩]]⟩
    let original := (fresh.start stage script).2
    let other := (fresh.start stage ⟨[.wait none]⟩).2
    Reachable stage original ∧ original.phase.isSuspended ∧
      ∃ save resumed, original.save = .ok save ∧
        other.restore stage script save = (.ok .awaitChoice, resumed) ∧
        ∀ moves, Session.SameSince original resumed (Session.play stage moves ⟨original, []⟩)
          (Session.play stage moves ⟨resumed, []⟩) := by
  intro stage script original other
  have reachable : Reachable stage original := .perform (.start script) .fresh
  have phase : original.phase = .awaitingChoice := rfl
  have suspended : original.phase.isSuspended := rfl
  obtain ⟨save, step, resumed, saved, restored, waits, same⟩ :=
    resume_transparent stage .accepting reachable suspended other
  have choice : step = .awaitChoice := by
    rcases waits with ⟨advance, -⟩ | ⟨-, choice⟩
    · rw [phase] at advance
      cases advance
    · exact choice
  rw [choice] at restored
  exact ⟨reachable, suspended, save, resumed, saved, restored, same fun _ => rfl⟩

end Interpreter

end VisualNovel
