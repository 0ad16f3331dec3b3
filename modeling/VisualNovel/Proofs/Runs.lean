import VisualNovel.SavePoint

/-!
Runs: what a host can do with an interpreter, one thing after another. A move is what the host does
within a run; an operation may also begin a run or restore one. A session is an interpreter
together with the wakes its host has been handed.
-/

namespace VisualNovel

inductive Move (ω : Type) where
  | advance
  | select (index : Nat)
  | wake (wake : ω)
  | stop
  deriving DecidableEq

def Move.lookUp {ω ω' : Type} (find : ω → Option ω') : Move ω → Option (Move ω')
  | .advance => some .advance
  | .select index => some (.select index)
  | .wake name => (find name).map .wake
  | .stop => some .stop

inductive Operation where
  | start (script : Script)
  | restore (script : Script) (save : SavePoint)
  | move (move : Move Wake)
  deriving DecidableEq

inductive Answer where
  | step (step : Step)
  | refusal (refusal : Refusal)
  | nothing
  deriving DecidableEq

namespace Answer

def ofResult : Except Refusal Step → Answer
  | .ok handed => .step handed
  | .error reason => .refusal reason

def wake? : Answer → Option Wake
  | .step (.resume _ wake) => some wake
  | _ => none

end Answer

namespace Interpreter

def makeMove (stage : Stage) (move : Move Wake) (interpreter : Interpreter) :
    Answer × Interpreter :=
  match move with
  | .advance => (interpreter.advance stage).map .step id
  | .select index => (interpreter.select stage index).map .ofResult id
  | .wake wake => (interpreter.wake stage wake).map .step id
  | .stop => (.nothing, interpreter.stop)

def perform (stage : Stage) (operation : Operation) (interpreter : Interpreter) :
    Answer × Interpreter :=
  match operation with
  | .start script => (interpreter.start stage script).map .step id
  | .restore script save => (interpreter.restore stage script save).map .ofResult id
  | .move move => interpreter.makeMove stage move

def afterMoves (stage : Stage) (moves : List (Move Wake)) (interpreter : Interpreter) :
    Interpreter :=
  moves.foldl (fun interpreter move => (interpreter.makeMove stage move).2) interpreter

inductive Reachable (stage : Stage) : Interpreter → Prop where
  | fresh : Reachable stage .fresh
  | perform {interpreter : Interpreter} (operation : Operation) :
      Reachable stage interpreter → Reachable stage (interpreter.perform stage operation).2

/-- The kinds of the instructions that begin a timer: `say` begins a reveal, the others wait until
the stage has settled. -/
def timedKinds : List String :=
  ["say", "bg", "char", "wait", "bgm"]

end Interpreter

def Event.beginsTimer : Event → Bool
  | note (.executing _ kind) => Interpreter.timedKinds.contains kind
  | _ => false

def Interpreter.timersBegun (interpreter : Interpreter) : Nat :=
  interpreter.history.toList.countP Event.beginsTimer

structure Issue where
  wake : Wake
  timer : Nat
  deriving DecidableEq

structure Session where
  interpreter : Interpreter
  issues : List Issue

namespace Session

def fresh : Session := ⟨.fresh, []⟩

def take (outcome : Answer × Interpreter) (session : Session) : Session :=
  ⟨outcome.2, session.issues
    ++ (outcome.1.wake?.map fun wake => Issue.mk wake outcome.2.timersBegun).toList⟩

def afterOperations (stage : Stage) (operations : List Operation) : Session :=
  operations.foldl
    (fun session operation => session.take (session.interpreter.perform stage operation)) .fresh

/-- A move with the wake that was handed out as the `k`-th one; without such a wake nothing is
done. -/
def makeMove (stage : Stage) (move : Move Nat) (session : Session) : Answer × Session :=
  match move.lookUp fun k => session.issues[k]?.map (·.wake) with
  | some move =>
      let outcome := session.interpreter.makeMove stage move
      (outcome.1, session.take outcome)
  | none => (.nothing, session)

def play (stage : Stage) : List (Move Nat) → Session → List Answer × Session
  | [], session => ([], session)
  | move :: moves, session =>
      let (answer, session) := session.makeMove stage move
      let (answers, session) := session.play stage moves
      (answer :: answers, session)

end Session

end VisualNovel
