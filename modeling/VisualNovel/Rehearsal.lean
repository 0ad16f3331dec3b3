import VisualNovel.SavePoint

/-!
Rehearsals: performances on virtual time. A rehearsal holds the one timer that the interpreter
waits for, and moves its clock on to the time a timer is due instead of waiting. Times are numbers
of milliseconds.

How often timers fire until the reader is waited for is bounded by the length of the script: a run
that comes to an instruction twice without the reader never ends. So `runUntilBlocked` and
`advanceTime` fire a bounded number of timers, and give nothing where that is not enough.
-/

namespace VisualNovel

structure DueTimer where
  due : Nat
  wake : Wake
  deriving DecidableEq

structure Rehearsal where
  interpreter : Interpreter
  now : Nat
  pending : Option DueTimer
  last : Step

def Instruction.fires : Instruction → Nat
  | .say _ text => max 1 text.length
  | .background .. | .character .. | .wait _ | .music .. => 1
  | _ => 0

def Script.fires (script : Script) : Nat :=
  script.instructions.foldr (fun instruction fires => instruction.fires + fires) 0

namespace Rehearsal

def ofInterpreter (interpreter : Interpreter) : Rehearsal :=
  ⟨interpreter, 0, none, .ignored⟩

/-- Takes note of a step of the interpreter. An ignored signal leaves the timer as it is, and
shows a run that has stopped or ended. -/
def accept (step : Step) (rehearsal : Rehearsal) : Rehearsal :=
  match step with
  | .resume after wake =>
      { rehearsal with pending := some ⟨rehearsal.now + after, wake⟩, last := step }
  | .ignored =>
      match rehearsal.interpreter.phase with
      | .stopped => { rehearsal with last := .stopped }
      | .ended => { rehearsal with last := .ended }
      | _ => rehearsal
  | step => { rehearsal with pending := none, last := step }

def take (outcome : Step × Interpreter) (rehearsal : Rehearsal) : Step × Rehearsal :=
  (outcome.1, { rehearsal with interpreter := outcome.2 }.accept outcome.1)

def start (stage : Stage) (script : Script) (rehearsal : Rehearsal) : Step × Rehearsal :=
  rehearsal.take (rehearsal.interpreter.start stage script)

def advance (stage : Stage) (rehearsal : Rehearsal) : Step × Rehearsal :=
  rehearsal.take (rehearsal.interpreter.advance stage)

def select (stage : Stage) (index : Nat) (rehearsal : Rehearsal) :
    Except Refusal Step × Rehearsal :=
  match rehearsal.interpreter.select stage index with
  | (.ok step, interpreter) =>
      (.ok step, { rehearsal with interpreter := interpreter }.accept step)
  | (.error refusal, interpreter) =>
      (.error refusal, { rehearsal with interpreter := interpreter })

def fire (stage : Stage) (timer : DueTimer) (rehearsal : Rehearsal) : Step × Rehearsal :=
  { rehearsal with now := max rehearsal.now timer.due, pending := none }.take
    (rehearsal.interpreter.wake stage timer.wake)

def fireNext? (stage : Stage) (rehearsal : Rehearsal) : Option (Step × Rehearsal) :=
  rehearsal.pending.map fun timer => rehearsal.fire stage timer

def fireWithin (stage : Stage) (deadline : Option Nat) : Nat → Rehearsal → Option Rehearsal
  | fuel, rehearsal =>
      match rehearsal.pending with
      | none => some rehearsal
      | some timer =>
          if deadline.all (timer.due ≤ ·) then
            match fuel with
            | 0 => none
            | fuel + 1 => fireWithin stage deadline fuel (rehearsal.fire stage timer).2
          else some rehearsal

/-- Enough for a run from here to the next signal of the reader; one more for a stale timer. -/
def enoughFires (rehearsal : Rehearsal) : Nat :=
  rehearsal.interpreter.script.fires + 1

def runUntilBlocked (stage : Stage) (rehearsal : Rehearsal) : Option (Step × Rehearsal) :=
  (fireWithin stage none rehearsal.enoughFires rehearsal).map fun rehearsal =>
    (rehearsal.last, rehearsal)

/-- Lets time pass, firing the timers that are due. A run in a circle that takes no time never
ends; any other fires no more than the whole script in each millisecond. -/
def advanceTime (stage : Stage) (elapsed : Nat) (rehearsal : Rehearsal) : Option Rehearsal :=
  let deadline := rehearsal.now + elapsed
  (fireWithin stage (some deadline) ((elapsed + 2) * rehearsal.enoughFires) rehearsal).map
    fun rehearsal => { rehearsal with now := max rehearsal.now deadline }

def play (stage : Stage) (script : Script) (rehearsal : Rehearsal) : Option (Step × Rehearsal) :=
  (rehearsal.start stage script).2.runUntilBlocked stage

def advanceAndRun (stage : Stage) (rehearsal : Rehearsal) : Option (Step × Rehearsal) :=
  match rehearsal.advance stage with
  | (.ignored, rehearsal) => some (.ignored, rehearsal)
  | (_, rehearsal) => rehearsal.runUntilBlocked stage

def chooseAndRun (stage : Stage) (index : Nat) (rehearsal : Rehearsal) :
    Option (Except Refusal Step × Rehearsal) :=
  match rehearsal.select stage index with
  | (.error refusal, rehearsal) => some (.error refusal, rehearsal)
  | (.ok .ignored, rehearsal) => some (.ok .ignored, rehearsal)
  | (.ok _, rehearsal) =>
      (rehearsal.runUntilBlocked stage).map fun (step, rehearsal) => (.ok step, rehearsal)

def stopInterpreter (rehearsal : Rehearsal) : Rehearsal :=
  { rehearsal with interpreter := rehearsal.interpreter.stop }

def restoreInterpreter (stage : Stage) (script : Script) (save : SavePoint)
    (rehearsal : Rehearsal) : Except Refusal Step × Rehearsal :=
  let (result, interpreter) := rehearsal.interpreter.restore stage script save
  (result, { rehearsal with interpreter := interpreter })

end Rehearsal

end VisualNovel
