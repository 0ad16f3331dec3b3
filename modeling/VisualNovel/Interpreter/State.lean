import VisualNovel.Targets
import VisualNovel.Stage
import VisualNovel.Reveal
import VisualNovel.Diagnostic

/-!
The state of an interpreter. A `Machine` is what a run has come to; an `Interpreter` also keeps the
history of all it has asked of its stage and noted in the journal. The interpreter keeps no time:
a `Step` tells the host which timer to wait for, and the host gives its `Wake` back.
-/

namespace VisualNovel

inductive Timer where
  | settle (sequence : Nat)
  | reveal (ticket : Ticket)
  deriving DecidableEq

structure Wake where
  run : Nat
  timer : Timer
  deriving DecidableEq

def Wake.isReveal (wake : Wake) : Bool :=
  match wake.timer with
  | .reveal _ => true
  | .settle _ => false

inductive Step where
  | resume (after : Nat) (wake : Wake)
  | awaitAdvance
  | awaitChoice
  | ended
  | stopped
  | ignored
  deriving DecidableEq

inductive Note where
  | started (run instructions labels : Nat)
  | redefined (redefinition : Redefinition)
  | executing (offset : Nat) (kind : String)
  | reachedEnd (pc : Nat)
  | advanceIgnored (phase : Phase)
  | choiceIgnored (index : Nat) (phase : Phase)
  | choiceOutOfRange (index offset count : Nat)
  | choiceSelected (index : Nat) (text : String)
  | staleWake (wake : Wake) (phase : Phase)
  | stopped (pc : Nat)
  | passingLabel (id : String) (offset : Nat)
  | leadsIntoChoice (offset : Nat)
  | lastBeforeEnd (offset : Nat)
  | presentingChoices (count offset : Nat)
  | jumping (offset target : Nat) (label : String)
  | playing (asset : String) (looping : Bool)
  | finished (offset : Nat)
  | restored (run pc : Nat)
  | problem (diagnostic : Diagnostic)
  deriving DecidableEq

def Timer.text : Timer → String
  | settle sequence => "Settle(" ++ toString sequence ++ ")"
  | reveal ticket => "Reveal(Ticket(" ++ toString ticket.generation ++ "))"

def Wake.text (wake : Wake) : String :=
  "Wake \x7b run: " ++ toString wake.run ++ ", kind: " ++ wake.timer.text ++ " \x7d"

def Note.record : Note → Journal.Record
  | started run instructions labels => ⟨.info, "engine",
      "starting run " ++ toString run ++ " (" ++ toString instructions ++ " instructions, "
        ++ toString labels ++ " labels)"⟩
  | redefined redefinition => redefinition.record
  | executing offset kind => ⟨.trace, "engine", "executing pc=" ++ toString offset ++ " " ++ kind⟩
  | reachedEnd pc => ⟨.info, "engine", "reached end of script at pc=" ++ toString pc⟩
  | advanceIgnored phase => ⟨.trace, "flow", "advance ignored in " ++ phase.name⟩
  | choiceIgnored index phase =>
      ⟨.trace, "flow", "choice " ++ toString index ++ " ignored in " ++ phase.name⟩
  | choiceOutOfRange index offset count => ⟨.error, "flow",
      "choice index " ++ toString index ++ " out of range at pc=" ++ toString offset ++ " ("
        ++ toString count ++ " choices)"⟩
  | choiceSelected index text =>
      ⟨.debug, "flow", "choice " ++ toString index ++ " '" ++ text ++ "' selected"⟩
  | staleWake wake phase =>
      ⟨.trace, "engine", "stale wake " ++ wake.text ++ " ignored in " ++ phase.name⟩
  | stopped pc => ⟨.info, "engine", "stopped at pc=" ++ toString pc⟩
  | passingLabel id offset =>
      ⟨.debug, "flow", "passing label '" ++ id ++ "' at pc=" ++ toString offset⟩
  | leadsIntoChoice offset =>
      ⟨.debug, "flow", "line at pc=" ++ toString offset ++ " leads into a choice"⟩
  | lastBeforeEnd offset =>
      ⟨.debug, "flow", "line at pc=" ++ toString offset ++ " is the last before end"⟩
  | presentingChoices count offset =>
      ⟨.debug, "flow", "presenting " ++ toString count ++ " choices at pc=" ++ toString offset⟩
  | jumping offset target label => ⟨.debug, "flow",
      "jumping from pc=" ++ toString offset ++ " to pc=" ++ toString target ++ " (label="
        ++ label ++ ")"⟩
  | playing asset looping => ⟨.debug, "audio",
      "play '" ++ asset ++ "' (loop=" ++ (if looping then "true" else "false") ++ ")"⟩
  | finished offset => ⟨.info, "engine", "end reached at pc=" ++ toString offset⟩
  | restored run pc =>
      ⟨.info, "engine", "restored run " ++ toString run ++ " at pc=" ++ toString pc⟩
  | problem diagnostic => diagnostic.record

inductive Event where
  | cue (cue : Cue)
  | note (note : Note)
  deriving DecidableEq

def Event.cue? : Event → Option Cue
  | cue given => some given
  | note _ => none

structure Machine where
  script : Script
  targets : Targets
  pc : Nat
  phase : Phase
  /-- How many runs have been started or restored. -/
  run : Nat
  /-- How many settle timers have been asked for. -/
  timers : Nat
  settling : Option Nat
  reveal : Reveal Nat
  scene : Scene
  choiceAt : Option Nat
  diagnostics : List Diagnostic
  deriving DecidableEq

def Machine.fresh : Machine where
  script := .empty
  targets := .empty
  pc := 0
  phase := .idle
  run := 0
  timers := 0
  settling := none
  reveal := .idle
  scene := .blank
  choiceAt := none
  diagnostics := []

def Machine.pendingChoices (machine : Machine) : Option (List ChoiceOption) :=
  match machine.choiceAt.bind machine.script.get? with
  | some (.choice options) => if machine.phase = .awaitingChoice then some options else none
  | _ => none

structure Interpreter extends Machine where
  history : Array Event

namespace Interpreter

def fresh : Interpreter := ⟨.fresh, #[]⟩

def cues (interpreter : Interpreter) : List Cue :=
  interpreter.history.toList.filterMap Event.cue?

def dialogueTexts (interpreter : Interpreter) : List String :=
  interpreter.cues.filterMap Cue.dialogueText?

end Interpreter

end VisualNovel
