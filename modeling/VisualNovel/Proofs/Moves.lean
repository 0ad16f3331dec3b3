import VisualNovel.Proofs.Execution

namespace VisualNovel.Interpreter

/-- Nothing has happened, though it may have been noted. -/
inductive Unchanged (before : Interpreter) : Interpreter → Prop where
  | same : Unchanged before before
  | noted {noted : Note} : noted.isQuiet → Unchanged before (before.note noted)

namespace Unchanged

variable {before after : Interpreter} (unchanged : Unchanged before after)
include unchanged

theorem toMachine : after.toMachine = before.toMachine := by
  cases unchanged with
  | same => rfl
  | noted quiet => rfl

theorem cued (allowed : Diagnostic → Prop) : Cued allowed before after := by
  cases unchanged with
  | same => exact .refl _
  | noted quiet => exact .note quiet _

end Unchanged

def tell (text : String) (reveal : Reveal Nat) (interpreter : Interpreter) : Interpreter :=
  { interpreter.give (.dialogueText text) with reveal := reveal }

/-- After the move instructions are executed, beginning with `ready`. -/
inductive Resumes (before : Interpreter) : Move Wake → Interpreter → Prop where
  | advance : before.phase = .awaitingAdvance →
      Resumes before .advance { before with phase := .running }
  | select {index offset : Nat} {options : List ChoiceOption} {option : ChoiceOption} :
      before.phase = .awaitingChoice → before.choiceAt = some offset →
      before.script.get? offset = some (.choice options) → options[index]? = some option →
      Resumes before (.select index)
        ((before.note (.choiceSelected index option.text)).chosen offset option)
  | settle {sequence : Nat} : before.phase = .running → before.settling = some sequence →
      Resumes before (.wake ⟨before.run, .settle sequence⟩) { before with settling := none }
  | complete {ticket : Ticket} {text : String} {offset : Nat} {reveal : Reveal Nat}
      {options : List ChoiceOption} : before.phase = .running →
      before.reveal.tick ticket = (.complete text offset, reveal) →
      before.script.get? before.pc = some (.choice options) →
      Resumes before (.wake ⟨before.run, .reveal ticket⟩)
        ((before.tell text reveal).note (.leadsIntoChoice offset))

theorem Resumes.running {before ready : Interpreter} {move : Move Wake}
    (resumes : Resumes before move ready) : ready.phase = .running := by
  cases resumes with
  | advance awaiting => rfl
  | select awaiting asked found selected => rfl
  | settle running settling => exact running
  | complete running ticked choice => exact running

inductive Moved (stage : Stage) (before : Interpreter) :
    Move Wake → Answer → Interpreter → Prop where
  | ignored {move : Move Wake} {after : Interpreter} : Unchanged before after →
      Moved stage before move (.step .ignored) after
  | refused {index offset : Nat} {options : List ChoiceOption} :
      before.phase = .awaitingChoice → before.choiceAt = some offset →
      before.script.get? offset = some (.choice options) → options[index]? = none →
      Moved stage before (.select index) (.refusal (.choiceOutOfRange index options.length))
        (before.note (.choiceOutOfRange index offset options.length))
  | resumed {move : Move Wake} {ready : Interpreter} : Resumes before move ready →
      Moved stage before move (.step (ready.runUntilSuspended stage).1)
        (ready.runUntilSuspended stage).2
  | revealing {ticket next : Ticket} {text : String} {reveal : Reveal Nat} :
      before.phase = .running → before.reveal.tick ticket = (.partly text next, reveal) →
      Moved stage before (.wake ⟨before.run, .reveal ticket⟩)
        (.step (.resume stage.settings.glyphTime ⟨before.run, .reveal next⟩))
        (before.tell text reveal)
  | revealed {ticket : Ticket} {text : String} {offset : Nat} {reveal : Reveal Nat}
      {after : Interpreter} : before.phase = .running →
      before.reveal.tick ticket = (.complete text offset, reveal) →
      (∀ options, before.script.get? before.pc ≠ some (.choice options)) →
      Unchanged (before.tell text reveal) after →
      Moved stage before (.wake ⟨before.run, .reveal ticket⟩) (.step .awaitAdvance)
        { after with phase := .awaitingAdvance }
  | stopped : before.phase.isRunning →
      Moved stage before .stop .nothing
        { before.note (.stopped before.pc) with
          phase := .stopped
          reveal := before.reveal.cancel
          settling := none }
  | rested : ¬before.phase.isRunning → Moved stage before .stop .nothing before

section Moves

variable (stage : Stage) (interpreter : Interpreter)

theorem advance_moved : Moved stage interpreter .advance (.step (interpreter.advance stage).1)
    (interpreter.advance stage).2 := by
  unfold advance
  split
  · next awaiting => exact .resumed (.advance awaiting)
  · exact .ignored (.noted rfl)

theorem select_moved (index : Nat) : Moved stage interpreter (.select index)
    (.ofResult (interpreter.select stage index).1) (interpreter.select stage index).2 := by
  unfold select
  split
  · next awaiting =>
      split
      · exact .ignored .same
      next offset asked =>
      split
      · next options found =>
          split
          · next option selected => exact .resumed (.select awaiting asked found selected)
          · next missing => exact .refused awaiting asked found missing
      · exact .ignored .same
  · exact .ignored (.noted rfl)

theorem tick_moved (running : interpreter.phase = .running) (ticket : Ticket) :
    Moved stage interpreter (.wake ⟨interpreter.run, .reveal ticket⟩)
      (.step (interpreter.tick stage ticket).1) (interpreter.tick stage ticket).2 := by
  unfold tick
  split
  · exact .ignored .same
  · next text next reveal ticked => exact .revealing running ticked
  · next text offset reveal ticked =>
      unfold afterReveal
      split
      · next options choice => exact .resumed (.complete running ticked choice)
      · next ending =>
          refine .revealed running ticked (fun options choice => ?_) (.noted rfl)
          rw [show interpreter.script.get? interpreter.pc = some .ending from ending] at choice
          cases choice
      · next apart _ => exact .revealed running ticked apart .same

theorem wake_moved (wake : Wake) : Moved stage interpreter (.wake wake)
    (.step (interpreter.wake stage wake).1) (interpreter.wake stage wake).2 := by
  obtain ⟨run, timer⟩ := wake
  unfold Interpreter.wake
  split
  · exact .ignored (.noted rfl)
  next current =>
  obtain ⟨sameRun, running⟩ := not_or.mp current
  obtain rfl : run = interpreter.run := Decidable.not_not.mp sameRun
  have running : interpreter.phase = .running := Decidable.not_not.mp running
  cases timer with
  | settle sequence =>
      dsimp only
      split
      · next settling => exact .resumed (.settle running settling)
      · exact .ignored .same
  | reveal ticket => exact tick_moved stage interpreter running ticket

theorem moved (move : Move Wake) : Moved stage interpreter move
    (interpreter.makeMove stage move).1 (interpreter.makeMove stage move).2 := by
  cases move with
  | advance => exact advance_moved ..
  | select index => exact select_moved ..
  | wake wake => exact wake_moved ..
  | stop =>
      show Moved _ _ _ .nothing interpreter.stop
      unfold stop
      split
      · next running => exact .stopped running
      · next resting => exact .rested resting

theorem moved_of_eq {stage : Stage} {interpreter after : Interpreter} {move : Move Wake}
    {answer : Answer} (outcome : interpreter.makeMove stage move = (answer, after)) :
    Moved stage interpreter move answer after := by
  have comes := moved stage interpreter move
  rwa [outcome] at comes

end Moves

end VisualNovel.Interpreter
