import VisualNovel.Proofs.Mirror
import VisualNovel.Proofs.Moves
import VisualNovel.Proofs.Resumption

/-!
Where a run stands: what each phase says about the position, the timers, the line and the choice.
`Standing` is what every operation preserves; a run that is about to execute instructions is
`Underway`.

Main statement: `genuine_coherent`, for runs in which the save points that are restored were taken
of such runs.
-/

namespace VisualNovel

def Step.phase? : Step → Option Phase
  | .resume .. => some .running
  | .awaitAdvance => some .awaitingAdvance
  | .awaitChoice => some .awaitingChoice
  | .ended => some .ended
  | .stopped => some .stopped
  | .ignored => none

/-- A step that is handed back, unless it is `ignored`, is the one of the phase. -/
def Answer.Tells (answer : Answer) (phase : Phase) : Prop :=
  ∀ step, answer = .step step → step ≠ .ignored → step.phase? = some phase

namespace Answer

theorem tells_of_phase? {step : Step} {phase : Phase} (same : step.phase? = some phase) :
    (Answer.step step).Tells phase := by
  intro handed handedBack _
  cases handedBack
  exact same

theorem tells_ignored (phase : Phase) : (Answer.step .ignored).Tells phase := by
  intro handed handedBack answered
  cases handedBack
  exact absurd rfl answered

end Answer

namespace Machine

/-- The instruction at `offset` is the one just before the position. -/
structure JustPast (machine : Machine) (offset : Nat) (instruction : Instruction) : Prop where
  pc : machine.pc = offset + 1
  found : machine.script.get? offset = some instruction

inductive Standing (machine : Machine) : Prop where
  | idle : machine.phase = .idle → machine.settling = none → machine.reveal.active = none →
      Standing machine
  | settling (sequence offset : Nat) (instruction : Instruction) :
      machine.phase = .running → machine.settling = some sequence →
      machine.reveal.active = none → machine.JustPast offset instruction →
      instruction.settles → machine.choiceAt = none → Standing machine
  | revealing (revealing : Revealing Nat) (speaker : Option String) (line : Dialogue) :
      machine.phase = .running → machine.settling = none →
      machine.reveal.active = some revealing → revealing.text = line.text.toList →
      machine.JustPast revealing.onComplete (.say speaker line.text) →
      machine.scene.dialogue = some line → machine.choiceAt = none → Standing machine
  | awaitingAdvance (offset : Nat) (speaker : Option String) (line : Dialogue) :
      machine.phase = .awaitingAdvance → machine.settling = none →
      machine.reveal.active = none → machine.JustPast offset (.say speaker line.text) →
      machine.scene.dialogue = some line →
      (∀ options, machine.script.get? machine.pc ≠ some (.choice options)) →
      machine.choiceAt = none → Standing machine
  | awaitingChoice (offset : Nat) (options : List ChoiceOption) :
      machine.phase = .awaitingChoice → machine.settling = none →
      machine.reveal.active = none → machine.JustPast offset (.choice options) →
      options ≠ [] → machine.choiceAt = some offset → Standing machine
  | ended : machine.phase = .ended → machine.settling = none → machine.reveal.active = none →
      (machine.pc = machine.script.length ∨ ∃ offset, machine.JustPast offset .ending) →
      Standing machine
  | stopped : machine.phase = .stopped → machine.settling = none →
      machine.reveal.active = none → Standing machine

theorem Standing.atRest {machine : Machine} (standing : machine.Standing)
    (halted : machine.phase ≠ .running) :
    machine.settling = none ∧ machine.reveal.active = none := by
  cases standing with
  | settling sequence offset instruction running => exact absurd running halted
  | revealing revealing speaker line running => exact absurd running halted
  | idle phase settling active => exact ⟨settling, active⟩
  | awaitingAdvance offset speaker line phase settling active => exact ⟨settling, active⟩
  | awaitingChoice offset options phase settling active => exact ⟨settling, active⟩
  | ended phase settling active => exact ⟨settling, active⟩
  | stopped phase settling active => exact ⟨settling, active⟩

theorem Standing.of_active {machine : Machine} {revealing : Revealing Nat}
    (standing : machine.Standing) (active : machine.reveal.active = some revealing) :
    ∃ speaker line, machine.phase = .running ∧ machine.settling = none ∧
      revealing.text = line.text.toList ∧
      machine.JustPast revealing.onComplete (.say speaker line.text) ∧
      machine.scene.dialogue = some line ∧ machine.choiceAt = none := by
  cases standing with
  | revealing revealing' speaker line running settling active' text past dialogue unasked =>
      obtain rfl : revealing' = revealing := Option.some.inj (active'.symm.trans active)
      exact ⟨speaker, line, running, settling, text, past, dialogue, unasked⟩
  | _ => simp_all

end Machine

namespace Interpreter

/-! ## Executing instructions -/

structure Underway (interpreter : Interpreter) : Prop extends Inside interpreter where
  phase : interpreter.phase = .running
  settling : interpreter.settling = none
  active : interpreter.reveal.active = none
  unasked : interpreter.choiceAt = none

namespace Underway

variable {before after : Interpreter}

theorem fetch {instruction : Instruction} (underway : Underway before)
    (found : before.script.get? before.pc = some instruction) :
    Underway (before.fetch instruction) :=
  ⟨underway.toInside.fetch found, underway.phase, underway.settling, underway.active,
    underway.unasked⟩

theorem note (underway : Underway before) (noted : Note) : Underway (before.note noted) :=
  ⟨⟨underway.targets, underway.pc⟩, underway.phase, underway.settling, underway.active,
    underway.unasked⟩

theorem passed (underway : Underway before) (passed : Passed before after) : Underway after where
  toInside := underway.toInside.passed passed
  phase := (phase_of_clock passed.clock).trans underway.phase
  settling := (settling_of_clock passed.clock).trans underway.settling
  active := (active_of_clock passed.clock).trans underway.active
  unasked := passed.choiceAt.trans underway.unasked

theorem yields {instruction : Instruction} {step : Step} (underway : Underway before)
    (found : before.script.get? before.pc = some instruction)
    (executed : Executed before.pc (before.fetch instruction) instruction (.yield step) after) :
    after.toMachine.Standing ∧ step.phase? = some after.phase := by
  have fetched := underway.fetch found
  have past : (before.fetch instruction).JustPast before.pc instruction := ⟨rfl, found⟩
  cases executed with
  | @settling _ staged time settles same =>
      have phase : staged.phase = .running := (phase_of_clock same.clock).trans fetched.phase
      have active : staged.reveal.active = none :=
        (active_of_clock same.clock).trans fetched.active
      have past : staged.JustPast before.pc instruction :=
        ⟨same.pc.trans past.pc, same.script ▸ past.found⟩
      refine ⟨.settling _ _ _ phase rfl active ⟨past.pc, past.found⟩ settles ?_, ?_⟩
      · exact same.choiceAt.trans fetched.unasked
      · exact congrArg some phase.symm
  | revealing speaker text name time =>
      refine ⟨?_, congrArg some fetched.phase.symm⟩
      exact .revealing _ speaker ⟨name, text⟩ fetched.phase fetched.settling rfl rfl
        ⟨rfl, found⟩ rfl fetched.unasked
  | presenting options nonempty =>
      refine ⟨?_, rfl⟩
      exact .awaitingChoice before.pc options rfl fetched.settling fetched.active ⟨rfl, found⟩
        nonempty rfl
  | finishing endText =>
      exact ⟨.ended rfl rfl rfl (.inr ⟨before.pc, rfl, found⟩), rfl⟩

theorem runUntilSuspended (stage : Stage) (underway : Underway before) :
    (before.runUntilSuspended stage).2.toMachine.Standing ∧
      (before.runUntilSuspended stage).1.phase? =
        some (before.runUntilSuspended stage).2.phase := by
  apply runUntilSuspended_rule Underway
    (fun step next => next.toMachine.Standing ∧ step.phase? = some next.phase) before underway
  · intro next instruction flow after underway found outcome
    have comes := executed_of_eq outcome
    cases flow with
    | onward =>
        cases comes with
        | passed passes passed => exact (underway.fetch found).passed passed
    | yield step => exact underway.yields found comes
  · intro next underway missing
    have atEnd : next.pc = next.script.length :=
      Nat.le_antisymm underway.pc (List.getElem?_eq_none_iff.mp missing)
    exact ⟨.ended rfl underway.settling underway.active (.inl atEnd), rfl⟩
  · intro offset next underway
    exact ⟨.stopped rfl underway.settling underway.active, rfl⟩

end Underway

/-! ## Operations -/

structure Stands (answer : Answer) (after : Interpreter) : Prop where
  standing : after.toMachine.Standing
  tells : answer.Tells after.phase

theorem Underway.stands {interpreter : Interpreter} (stage : Stage)
    (underway : Underway interpreter) :
    Stands (.step (interpreter.runUntilSuspended stage).1)
      (interpreter.runUntilSuspended stage).2 := by
  obtain ⟨standing, phase⟩ := underway.runUntilSuspended stage
  exact ⟨standing, Answer.tells_of_phase? phase⟩

structure Sound (interpreter : Interpreter) : Prop extends Placed interpreter where
  standing : interpreter.toMachine.Standing

section Moves

variable {stage : Stage} {interpreter : Interpreter} (sound : Sound interpreter)
include sound

theorem chosen_underway (offset : Nat) (option : ChoiceOption)
    (halted : interpreter.phase ≠ .running) : Underway (interpreter.chosen offset option) := by
  have led := (sound.toInside.staged (passSignal_staged option _)).passed
    (goWhereItLeads_passed offset option _)
  have clock : ((interpreter.passSignal option).goWhereItLeads offset option).clock =
      interpreter.clock := (goWhereItLeads_passed ..).clock.trans (passSignal_staged ..).clock
  obtain ⟨settling, active⟩ := sound.standing.atRest halted
  refine ⟨⟨led.targets, led.pc⟩, rfl, ?_, ?_, rfl⟩
  · exact (settling_of_clock clock).trans settling
  · exact (active_of_clock clock).trans active

theorem tell_underway {ticket : Ticket} {text : String} {offset : Nat} {reveal : Reveal Nat}
    (ticked : interpreter.reveal.tick ticket = (.complete text offset, reveal)) :
    Underway (interpreter.tell text reveal) ∧ ∃ lineAt speaker line,
      interpreter.JustPast lineAt (.say speaker line.text) ∧
      interpreter.scene.dialogue = some line := by
  obtain ⟨revealing, active, complete, -⟩ := Reveal.tick_complete ticked
  obtain ⟨speaker, line, running, settling, -, past, dialogue, unasked⟩ :=
    sound.standing.of_active active
  refine ⟨⟨⟨sound.targets, sound.pc⟩, running, settling, complete, unasked⟩, ?_⟩
  exact ⟨revealing.onComplete, speaker, line, past, dialogue⟩

theorem Resumes.underway {move : Move Wake} {ready : Interpreter}
    (resumes : Resumes interpreter move ready) : Underway ready := by
  cases resumes with
  | advance awaiting =>
      obtain ⟨settling, active⟩ := sound.standing.atRest (by simp [awaiting])
      refine ⟨⟨sound.targets, sound.pc⟩, rfl, settling, active, ?_⟩
      cases sound.standing with
      | awaitingAdvance offset speaker line phase settling active past dialogue apart unasked =>
          exact unasked
      | _ => simp_all
  | @select index offset options option awaiting =>
      let noted := interpreter.note (.choiceSelected index option.text)
      have sound : Sound noted := ⟨⟨⟨sound.targets, sound.pc⟩, sound.choice⟩, sound.standing⟩
      exact chosen_underway sound offset option (by simp [noted, awaiting])
  | settle running settling =>
      refine ⟨⟨sound.targets, sound.pc⟩, running, rfl, ?_, ?_⟩
      all_goals cases sound.standing <;> simp_all
  | complete running ticked choice => exact (tell_underway sound ticked).1.note _

theorem makeMove_stands (move : Move Wake) :
    Stands (interpreter.makeMove stage move).1 (interpreter.makeMove stage move).2 := by
  rcases outcome : interpreter.makeMove stage move with ⟨answer, after⟩
  cases moved_of_eq outcome with
  | ignored unchanged =>
      refine ⟨?_, Answer.tells_ignored _⟩
      rw [unchanged.toMachine]
      exact sound.standing
  | refused awaiting => exact ⟨sound.standing, fun _ handedBack => nomatch handedBack⟩
  | resumed resumes => exact (resumes.underway sound).stands stage
  | revealing running ticked =>
      obtain ⟨revealing, active, more, -⟩ := Reveal.tick_partly ticked
      obtain ⟨speaker, line, -, settling, text, past, dialogue, unasked⟩ :=
        sound.standing.of_active active
      refine ⟨?_, Answer.tells_of_phase? (congrArg some running.symm)⟩
      refine .revealing _ speaker line running settling more ?_ ?_ dialogue unasked
      · rw [revealing.text_advance, text]
      · rw [revealing.onComplete_advance]
        exact ⟨past.pc, past.found⟩
  | @revealed _ text _ reveal after running ticked apart unchanged =>
      obtain ⟨underway, lineAt, speaker, line, past, dialogue⟩ := tell_underway sound ticked
      refine ⟨?_, Answer.tells_of_phase? rfl⟩
      show Machine.Standing { after.toMachine with phase := .awaitingAdvance }
      rw [unchanged.toMachine]
      exact .awaitingAdvance lineAt speaker line rfl underway.settling underway.active
        ⟨past.pc, past.found⟩ dialogue apart underway.unasked
  | stopped running => exact ⟨.stopped rfl rfl rfl, fun _ handedBack => nomatch handedBack⟩
  | rested resting => exact ⟨sound.standing, fun _ handedBack => nomatch handedBack⟩

theorem makeMove_sound (stage : Stage) (move : Move Wake) :
    Sound (interpreter.makeMove stage move).2 :=
  ⟨perform_placed stage (.move move) sound.toPlaced, (makeMove_stands sound move).standing⟩

end Moves

theorem start_stands (stage : Stage) (script : Script) (interpreter : Interpreter) :
    Stands (.step (interpreter.start stage script).1) (interpreter.start stage script).2 :=
  Underway.stands stage ⟨⟨rfl, Nat.zero_le _⟩, rfl, rfl, rfl, rfl⟩

theorem start_sound (stage : Stage) (script : Script) (interpreter : Interpreter) :
    Sound (interpreter.start stage script).2 :=
  ⟨Inside.runUntilSuspended stage ⟨rfl, Nat.zero_le _⟩ rfl, (start_stands ..).standing⟩

/-! ## Restoring -/

theorem restore_tells (stage : Stage) (script : Script) (save : SavePoint)
    (interpreter : Interpreter) :
    (Answer.ofResult (interpreter.restore stage script save).1).Tells
      (interpreter.restore stage script save).2.phase := by
  cases outcome : save.step? script with
  | error refusal =>
      rw [restore_refused interpreter outcome]
      exact fun _ handedBack => nomatch handedBack
  | ok step =>
      rw [restore_eq interpreter outcome]
      have phase : ((interpreter.putBack script save).replay stage).phase = save.phase :=
        phase_of_clock (replay_shown ..).clock
      refine Answer.tells_of_phase? ?_
      rw [phase]
      cases (SavePoint.step?_ok_iff.mp outcome).2.2 with
      | advance awaiting => rw [awaiting]; rfl
      | choice offset options awaiting => rw [awaiting]; rfl

theorem restore_standing {stage : Stage} {original interpreter : Interpreter} {save : SavePoint}
    (sound : Sound original) (saved : original.save = .ok save)
    (standing : interpreter.toMachine.Standing) :
    (interpreter.restore stage original.script save).2.toMachine.Standing := by
  cases outcome : save.step? original.script with
  | error refusal =>
      rw [restore_refused interpreter outcome]
      exact standing
  | ok step =>
      rw [restore_eq interpreter outcome]
      let restored := (interpreter.putBack original.script save).replay stage
      have suspended : original.phase.isSuspended := by
        unfold Interpreter.save at saved
        split at saved
        · next suspended => exact suspended
        · cases saved
      have same : restored.withoutPast = original.withoutPast :=
        restored_withoutPast stage sound.toPlaced suspended saved interpreter
      obtain ⟨settling, active⟩ := restored_atRest stage original.script save interpreter
      -- Save points hold all that a phase in which the run waits on the reader speaks of.
      have script : restored.script = original.script := congrArg (·.script) same
      have pc : restored.pc = original.pc := congrArg (·.pc) same
      have phase : restored.phase = original.phase := congrArg (·.phase) same
      have scene : restored.scene = original.scene := congrArg (·.scene) same
      have choiceAt : restored.choiceAt = original.choiceAt := congrArg (·.choiceAt) same
      have past {offset : Nat} {instruction : Instruction}
          (past : original.JustPast offset instruction) : restored.JustPast offset instruction :=
        ⟨pc.trans past.pc, script ▸ past.found⟩
      cases sound.standing with
      | awaitingAdvance offset speaker line awaiting _ _ said dialogue apart unasked =>
          refine .awaitingAdvance offset speaker line (phase.trans awaiting) settling active
            (past said) (scene ▸ dialogue) ?_ (choiceAt.trans unasked)
          rw [pc, script]
          exact apart
      | awaitingChoice offset options awaiting _ _ asked nonempty pending =>
          exact .awaitingChoice offset options (phase.trans awaiting) settling active
            (past asked) nonempty (choiceAt.trans pending)
      | _ => simp_all [Phase.isSuspended]

/-! ## Genuine runs -/

/-- Reached by any operations, where only save points of such runs are restored, each with its
script. The run that was saved may have been on another stage. -/
inductive Genuine : Stage → Interpreter → Prop where
  | fresh (stage : Stage) : Genuine stage .fresh
  | start {stage : Stage} {interpreter : Interpreter} (script : Script) :
      Genuine stage interpreter → Genuine stage (interpreter.start stage script).2
  | move {stage : Stage} {interpreter : Interpreter} (move : Move Wake) :
      Genuine stage interpreter → Genuine stage (interpreter.makeMove stage move).2
  | restore {stage stage' : Stage} {interpreter original : Interpreter} {save : SavePoint} :
      Genuine stage' original → original.save = .ok save → Genuine stage interpreter →
      Genuine stage (interpreter.restore stage original.script save).2

theorem Genuine.sound {stage : Stage} {interpreter : Interpreter}
    (genuine : Genuine stage interpreter) : Sound interpreter := by
  induction genuine with
  | fresh => exact ⟨Inside.placed ⟨rfl, Nat.le_refl _⟩ (nomatch ·), .idle rfl rfl rfl⟩
  | start script _ sound => exact start_sound ..
  | move move _ sound => exact makeMove_sound sound _ move
  | restore _ saved _ original sound =>
      exact ⟨restore_placed _ _ _ sound.toPlaced, restore_standing original saved sound.standing⟩

/-- What the phase says about the rest of the machine. -/
structure Coherent (interpreter : Interpreter) : Prop where
  inside : interpreter.pc ≤ interpreter.script.length
  running : interpreter.phase = .running ↔
    interpreter.settling.isSome ≠ interpreter.reveal.isRevealing
  halted : interpreter.phase ≠ .running →
    interpreter.settling = none ∧ interpreter.reveal.active = none
  settling : interpreter.phase = .running → interpreter.settling.isSome →
    ∃ offset instruction, interpreter.JustPast offset instruction ∧ instruction.settles
  revealing : interpreter.phase = .running →
    ∀ revealing, interpreter.reveal.active = some revealing →
      ∃ speaker text, interpreter.JustPast revealing.onComplete (.say speaker text) ∧
        revealing.text = text.toList
  awaitingAdvance : interpreter.phase = .awaitingAdvance →
    (∃ offset speaker line, interpreter.JustPast offset (.say speaker line.text) ∧
      interpreter.scene.dialogue = some line) ∧
    (∀ options, interpreter.script.get? interpreter.pc ≠ some (.choice options)) ∧
    interpreter.choiceAt = none
  awaitingChoice : interpreter.phase = .awaitingChoice →
    ∃ offset options, interpreter.JustPast offset (.choice options) ∧ options ≠ [] ∧
      interpreter.choiceAt = some offset
  ended : interpreter.phase = .ended → interpreter.pc = interpreter.script.length ∨
    ∃ offset, interpreter.JustPast offset .ending

theorem Sound.coherent {interpreter : Interpreter} (sound : Sound interpreter) :
    Coherent interpreter := by
  have standing := sound.standing
  refine ⟨sound.pc, ?_, standing.atRest, ?_, ?_, ?_, ?_, ?_⟩
  · cases standing <;> simp_all [Reveal.isRevealing]
  · intro running waits
    cases standing with
    | settling sequence offset instruction _ _ _ past settles =>
        exact ⟨offset, instruction, past, settles⟩
    | _ => simp_all
  · intro running revealing active
    obtain ⟨speaker, line, -, -, text, past, -⟩ := standing.of_active active
    exact ⟨speaker, line.text, past, text⟩
  · intro awaiting
    cases standing with
    | awaitingAdvance offset speaker line _ _ _ past dialogue apart unasked =>
        exact ⟨⟨offset, speaker, line, past, dialogue⟩, apart, unasked⟩
    | _ => simp_all
  · intro awaiting
    cases standing with
    | awaitingChoice offset options _ _ _ past nonempty asked =>
        exact ⟨offset, options, past, nonempty, asked⟩
    | _ => simp_all
  · intro finished
    cases standing with
    | ended _ _ _ reached => exact reached
    | _ => simp_all

/-- In a run in which only save points of such runs are restored, the machine is what its phase
says, and every operation that does not ignore its signal hands back the step of the phase it leads
to. -/
theorem genuine_coherent {stage : Stage} {interpreter : Interpreter}
    (genuine : Genuine stage interpreter) :
    Coherent interpreter ∧ ∀ operation,
      (interpreter.perform stage operation).1.Tells
        (interpreter.perform stage operation).2.phase := by
  have sound := genuine.sound
  refine ⟨sound.coherent, fun operation => ?_⟩
  cases operation with
  | start script => exact (start_stands stage script interpreter).tells
  | restore script save =>
      simp only [perform, Prod.map_fst, Prod.map_snd, id_eq]
      exact restore_tells stage script save interpreter
  | move move => exact (makeMove_stands sound move).tells

theorem genuine_coherent_restored :
    let stage : Stage := ⟨{}, .standard, .accepting⟩
    let original := (fresh.start stage ⟨[.choice [⟨"Left", none, none⟩]]⟩).2
    let other := (fresh.start stage ⟨[.wait none]⟩).2
    ∃ save restored, original.save = .ok save ∧
      other.restore stage original.script save = (.ok .awaitChoice, restored) ∧
      Genuine stage restored ∧ Coherent restored ∧
        ∀ operation, (restored.perform stage operation).1.Tells
          (restored.perform stage operation).2.phase := by
  intro stage original other
  have started : Genuine stage original := .start _ (.fresh _)
  have phase : original.phase = .awaitingChoice := rfl
  have suspended : original.phase.isSuspended := rfl
  have saved := save_eq suspended
  obtain ⟨step, accepted, waits⟩ := started.sound.toPlaced.fits suspended saved
  have choice : step = .awaitChoice := by
    rcases waits with ⟨advance, -⟩ | ⟨-, choice⟩
    · rw [phase] at advance
      cases advance
    · exact choice
  rw [choice] at accepted
  have restored : other.restore stage original.script _ = _ := restore_eq other accepted
  have genuine := Genuine.restore started saved (.start ⟨[.wait none]⟩ (.fresh stage))
  rw [restored] at genuine
  exact ⟨_, _, saved, restored, genuine, genuine_coherent genuine⟩

end Interpreter

end VisualNovel
