import VisualNovel.Proofs.Moves
import VisualNovel.Proofs.Past

namespace VisualNovel

namespace Past

def ofRecords (diagnostics : List Diagnostic) (history : Array Event) : Past :=
  ⟨0, 0, 0, diagnostics, history⟩

variable (diagnostics : List Diagnostic) (history : Array Event)

theorem wake_ofRecords (wake : Wake) : (ofRecords diagnostics history).wake wake = wake := by
  obtain ⟨run, timer⟩ := wake
  cases timer <;> simp [Past.wake, Past.timer, Past.ticket, ofRecords]

theorem step_ofRecords (step : Step) : (ofRecords diagnostics history).step step = step := by
  cases step with
  | resume after wake => simp only [Past.step, wake_ofRecords]
  | _ => rfl

theorem flow_ofRecords (flow : Interpreter.Flow) :
    (ofRecords diagnostics history).flow flow = flow := by
  cases flow with
  | onward => rfl
  | yield step => simp only [Past.flow, step_ofRecords]

theorem answer_ofRecords (answer : Answer) :
    (ofRecords diagnostics history).answer answer = answer := by
  cases answer with
  | step step => simp only [Past.answer, step_ofRecords]
  | _ => rfl

theorem move_ofRecords (move : Move Wake) :
    (ofRecords diagnostics history).move move = move := by
  cases move with
  | wake wake => simp only [Past.move, wake_ofRecords]
  | _ => rfl

theorem event_ofRecords (event : Event) :
    (ofRecords diagnostics history).event event = event := by
  cases event with
  | cue cue => rfl
  | note noted =>
      cases noted with
      | staleWake wake phase => simp only [Past.event, Past.note, wake_ofRecords]
      | started run instructions labels => simp [Past.event, Past.note, ofRecords]
      | restored run pc => simp [Past.event, Past.note, ofRecords]
      | _ => rfl

theorem interpreter_ofRecords (interpreter : Interpreter) :
    (ofRecords diagnostics history).interpreter interpreter =
      { interpreter with
        diagnostics := diagnostics ++ interpreter.diagnostics
        history := history ++ interpreter.history } := by
  have events : (ofRecords diagnostics history).event = id :=
    funext (event_ofRecords diagnostics history)
  simp only [Past.interpreter, events]
  simp [ofRecords, Past.reveal]

end Past

namespace Interpreter

variable (interpreter : Interpreter)

def records : Past :=
  .ofRecords interpreter.diagnostics interpreter.history

def unrecorded : Interpreter :=
  { interpreter with diagnostics := [], history := #[] }

theorem records_unrecorded :
    interpreter.records.interpreter interpreter.unrecorded = interpreter := by
  simp [records, Past.interpreter_ofRecords, unrecorded]

theorem records_cues (after : Interpreter) :
    (interpreter.records.interpreter after).cues = interpreter.cues ++ after.cues :=
  Past.cues_interpreter interpreter.records after

theorem execute_records (stage : Stage) (offset : Nat) (instruction : Instruction) :
    interpreter.execute stage offset instruction =
      (interpreter.unrecorded.execute (interpreter.records.stage stage) offset instruction).map id
        interpreter.records.interpreter := by
  have executed := execute_past interpreter.records stage interpreter.unrecorded offset instruction
  have flows : interpreter.records.flow = id :=
    funext (Past.flow_ofRecords interpreter.diagnostics interpreter.history)
  rwa [records_unrecorded, flows] at executed

theorem makeMove_records (stage : Stage) (move : Move Wake) :
    interpreter.makeMove stage move =
      (interpreter.unrecorded.makeMove (interpreter.records.stage stage) move).map id
        interpreter.records.interpreter := by
  have moved := makeMove_past interpreter.records stage interpreter.unrecorded move
  have answers : interpreter.records.answer = id :=
    funext (Past.answer_ofRecords interpreter.diagnostics interpreter.history)
  have same : interpreter.records.move move = move := Past.move_ofRecords ..
  rwa [records_unrecorded, same, answers] at moved

/-- They have come to the same and have asked the same of the stage. -/
structure Alike (here there : Interpreter) : Prop where
  machine : here.toMachine = there.toMachine
  cues : here.cues = there.cues

namespace Alike

theorem refl : Alike interpreter interpreter :=
  ⟨rfl, rfl⟩

theorem note (noted : Note) : Alike interpreter (interpreter.note noted) :=
  ⟨rfl, (cues_eq_of_history rfl).symm⟩

variable {interpreter}

theorem symm {here there : Interpreter} (alike : Alike here there) : Alike there here :=
  ⟨alike.machine.symm, alike.cues.symm⟩

theorem trans {first second third : Interpreter} (before : Alike first second)
    (after : Alike second third) : Alike first third :=
  ⟨before.machine.trans after.machine, before.cues.trans after.cues⟩

theorem of_unchanged {after : Interpreter} (unchanged : Unchanged interpreter after) :
    Alike interpreter after := by
  cases unchanged with
  | same => exact refl _
  | noted quiet => exact note _ _

theorem makeMove {here there : Interpreter} (alike : Alike here there) (stage : Stage)
    (move : Move Wake) :
    (here.makeMove stage move).1 = (there.makeMove stage move).1 ∧
      Alike (here.makeMove stage move).2 (there.makeMove stage move).2 := by
  have same : here.unrecorded = there.unrecorded := by
    simp only [unrecorded, alike.machine]
  have stages : here.records.stage stage = there.records.stage stage :=
    congrArg (fun cues => { stage with playback := fun before => stage.playback (cues ++ before) })
      alike.cues
  rw [makeMove_records here, makeMove_records there, same, stages]
  generalize there.unrecorded.makeMove (there.records.stage stage) move = outcome
  have diagnostics : here.diagnostics = there.diagnostics :=
    congrArg (·.diagnostics) alike.machine
  refine ⟨rfl, ?_, ?_⟩
  · simp only [Prod.map_snd, records, Past.interpreter_ofRecords, diagnostics]
  · simp only [Prod.map_snd, records_cues, alike.cues]

end Alike

end Interpreter

end VisualNovel
