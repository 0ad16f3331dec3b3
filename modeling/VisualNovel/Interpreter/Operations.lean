import VisualNovel.Interpreter.Execution

/-!
What a host can do with an interpreter: start a script, hand in the signals of the reader and the
wakes of timers, and stop. A signal that does not fit the phase is ignored, and so is the wake of
a timer that is no longer waited for.
-/

namespace VisualNovel

inductive Misfit where
  | pastEnd (pc count : Nat)
  | noPendingChoice
  | notAChoice
  | detached (pc choice : Nat)
  | notResumable (phase : Phase)
  deriving DecidableEq

def Misfit.message : Misfit → String
  | pastEnd pc count =>
      "pc " ++ toString pc ++ " is past the end of the script (" ++ toString count
        ++ " instructions)"
  | noPendingChoice => "awaiting a choice but no choice is pending"
  | notAChoice => "pending choice does not point at a choice instruction"
  | detached pc choice =>
      "pc " ++ toString pc ++ " does not follow the pending choice at " ++ toString choice
  | notResumable phase => "cannot resume from " ++ phase.name

inductive Refusal where
  | choiceOutOfRange (index count : Nat)
  | notSuspended (phase : Phase)
  | otherScript
  | invalidSave (misfit : Misfit)
  deriving DecidableEq

def Refusal.message : Refusal → String
  | choiceOutOfRange index count =>
      "choice index " ++ toString index ++ " out of range (" ++ toString count ++ " choices)"
  | notSuspended phase =>
      "cannot snapshot while " ++ phase.name ++ "; wait for an advance or choice"
  | otherScript => "snapshot was taken from a different script"
  | invalidSave misfit => "invalid snapshot: " ++ misfit.message

namespace Interpreter

/-- Begins a new run of a script, with a blank scene. Timers of earlier runs become stale. -/
def reset (script : Script) (interpreter : Interpreter) : Interpreter :=
  { script := script
    targets := .ofScript script
    pc := 0
    phase := interpreter.phase
    run := interpreter.run + 1
    timers := interpreter.timers
    settling := none
    reveal := interpreter.reveal.cancel
    scene := .blank
    choiceAt := none
    diagnostics := []
    history := interpreter.history
      ++ (Targets.redefinitions script).map fun redefinition =>
        Event.note (.redefined redefinition) }

def start (stage : Stage) (script : Script) (interpreter : Interpreter) : Step × Interpreter :=
  let interpreter := interpreter.reset script
  let interpreter := interpreter.note
    (.started interpreter.run script.length interpreter.targets.size)
  runUntilSuspended stage { interpreter with phase := .running }

def advance (stage : Stage) (interpreter : Interpreter) : Step × Interpreter :=
  if interpreter.phase = .awaitingAdvance then
    runUntilSuspended stage { interpreter with phase := .running }
  else (.ignored, interpreter.note (.advanceIgnored interpreter.phase))

def takeOption (stage : Stage) (offset : Nat) (option : ChoiceOption)
    (interpreter : Interpreter) : Step × Interpreter :=
  let interpreter := match option.signal with
    | some signal => interpreter.give (.signal signal)
    | none => interpreter
  let interpreter := match option.target with
    | some label => interpreter.jump offset label
    | none => interpreter
  runUntilSuspended stage
    { interpreter.give .clearChoices with choiceAt := none, phase := .running }

def select (stage : Stage) (index : Nat) (interpreter : Interpreter) :
    Except Refusal Step × Interpreter :=
  if interpreter.phase = .awaitingChoice then
    match interpreter.choiceAt with
    | none => (.ok .ignored, interpreter)
    | some offset =>
        match interpreter.script.get? offset with
        | some (.choice options) =>
            match options[index]? with
            | some option =>
                let (step, interpreter) :=
                  interpreter.note (.choiceSelected index option.text)
                    |>.takeOption stage offset option
                (.ok step, interpreter)
            | none =>
                (.error (.choiceOutOfRange index options.length),
                  interpreter.note (.choiceOutOfRange index offset options.length))
        | _ => (.ok .ignored, interpreter)
  else (.ok .ignored, interpreter.note (.choiceIgnored index interpreter.phase))

/-- A revealed line leads straight into a choice that follows it; otherwise it waits for the
reader. -/
def afterReveal (stage : Stage) (offset : Nat) (interpreter : Interpreter) : Step × Interpreter :=
  match interpreter.script.get? interpreter.pc with
  | some (.choice _) => runUntilSuspended stage (interpreter.note (.leadsIntoChoice offset))
  | some .ending =>
      (.awaitAdvance,
        { interpreter.note (.lastBeforeEnd offset) with phase := .awaitingAdvance })
  | _ => (.awaitAdvance, { interpreter with phase := .awaitingAdvance })

def tick (stage : Stage) (ticket : Ticket) (interpreter : Interpreter) : Step × Interpreter :=
  match interpreter.reveal.tick ticket with
  | (.stale, _) => (.ignored, interpreter)
  | (.partly shown next, reveal) =>
      (.resume stage.settings.glyphTime ⟨interpreter.run, .reveal next⟩,
        { interpreter.give (.dialogueText shown) with reveal := reveal })
  | (.complete shown offset, reveal) =>
      { interpreter.give (.dialogueText shown) with reveal := reveal }.afterReveal stage offset

def wake (stage : Stage) (wake : Wake) (interpreter : Interpreter) : Step × Interpreter :=
  if wake.run ≠ interpreter.run ∨ interpreter.phase ≠ .running then
    (.ignored, interpreter.note (.staleWake wake interpreter.phase))
  else
    match wake.timer with
    | .settle sequence =>
        if interpreter.settling = some sequence then
          runUntilSuspended stage { interpreter with settling := none }
        else (.ignored, interpreter)
    | .reveal ticket => interpreter.tick stage ticket

def stop (interpreter : Interpreter) : Interpreter :=
  if interpreter.phase.isRunning then
    { interpreter.note (.stopped interpreter.pc) with
      phase := .stopped
      reveal := interpreter.reveal.cancel
      settling := none }
  else interpreter

def takeDiagnostics (interpreter : Interpreter) : List Diagnostic × Interpreter :=
  (interpreter.diagnostics, { interpreter with diagnostics := [] })

end Interpreter

end VisualNovel
