import VisualNovel.Screen
import VisualNovel.Rehearsal
import VisualNovel.Text.Blank
import VisualNovel.Text.Utf8

/-!
Playing a script for a reader, who sees the screen and enters lines. The player waits for timers
and for lines in turn, each prompt takes one line, and the end of the lines quits. A line that
makes no sense at a prompt is answered with a word of advice and another prompt.
-/

namespace VisualNovel

inductive Line where
  | text (content : String)
  | unreadable (fault : Text.EncodingFault)
  deriving DecidableEq

namespace Line

def ofBytes (bytes : List UInt8) : Line :=
  match Text.decode bytes with
  | .ok content => .text content
  | .error fault => .unreadable fault

/-- A carriage return just before the line feed belongs to the end of the line. -/
def dropReturn (bytes : List UInt8) : List UInt8 :=
  if bytes.getLast? = some 13 then bytes.dropLast else bytes

def all (bytes : List UInt8) : List Line :=
  let pieces := bytes.splitOn 10
  let ended := pieces.dropLast.map dropReturn
  let rest := pieces.getLast?.toList.filter (· ≠ [])
  (ended ++ rest).map ofBytes

end Line

inductive Reply where
  | next
  | quit
  | other (text : String)
  deriving DecidableEq

namespace Reply

def ofLine (line : String) : Reply :=
  match Text.trim line with
  | "" => .next
  | "q" => .quit
  | text => .other text

def digit? (char : Char) : Option Nat :=
  if '0' ≤ char ∧ char ≤ '9' then some (char.toNat - '0'.toNat) else none

def digits? (number : Nat) : List Char → Option Nat
  | [] => some number
  | char :: rest =>
      match digit? char with
      | some digit => digits? (10 * number + digit) rest
      | none => none

def number? (text : String) : Option Nat :=
  let digits := match text.toList with
    | '+' :: digits => digits
    | digits => digits
  match digits with
  | [] => none
  | digits => (digits? 0 digits).filter (· < Nat.pow 2 64)

def index? (text : String) : Option Nat :=
  match number? text with
  | some (index + 1) => some index
  | _ => none

end Reply

inductive Awaited where
  | timer (after : Nat) (wake : Wake)
  | advance
  | choice
  | nothing
  deriving DecidableEq

def Awaited.ofStep (phase : Phase) : Step → Awaited
  | .resume after wake => .timer after wake
  | .awaitAdvance => .advance
  | .awaitChoice => .choice
  | .ended | .stopped => .nothing
  | .ignored =>
      match phase with
      | .awaitingAdvance => .advance
      | .awaitingChoice => .choice
      | _ => .nothing

structure Player where
  interpreter : Interpreter
  awaited : Awaited
  transcript : Transcript
  output : Array Output

namespace Player

def ready : Player := ⟨.fresh, .nothing, .start, #[]⟩

def print (text : String) (player : Player) : Player :=
  { player with output := player.output.push (.text text) }

def follow (interpreter : Interpreter) (player : Player) : Player :=
  let events := interpreter.history.extract player.interpreter.history.size
    interpreter.history.size
  let (output, transcript) := player.transcript.follow .working events.toList
  { player with
    interpreter := interpreter
    transcript := transcript
    output := player.output ++ output }

def banner : String :=
  "=== tsuzuri Script Player ===\n\nControls:\n  Enter: next\n  1-9:   select choice\n"
    ++ "  q:     quit\n"

def insight (interpreter : Interpreter) : String :=
  let visible := interpreter.scene.characters.entries.filter fun (_, sprite) => sprite.visible
  "\n[debug] pc=" ++ toString interpreter.pc ++ " phase=" ++ interpreter.phase.name
    ++ "\n[debug] characters=["
    ++ ", ".intercalate (visible.map fun (id, _) => Text.quoted id)
    ++ "] audio=" ++ interpreter.scene.audio.status.name ++ "\n"

def ask (debug : Bool) (player : Player) : Player :=
  let informed := if debug then player.print (insight player.interpreter) else player
  match player.awaited with
  | .advance => informed
  | .choice => informed.print "Select (1-9): "
  | _ => player

def take (debug : Bool) (outcome : Step × Interpreter) (player : Player) : Player :=
  { player.follow outcome.2 with
    awaited := .ofStep outcome.2.phase outcome.1 }.ask debug

def start (stage : Stage) (debug : Bool) (script : Script) : Player :=
  (ready.print banner).take debug (ready.interpreter.start stage script)

def fire (stage : Stage) (debug : Bool) (wake : Wake) (player : Player) : Player :=
  player.take debug (player.interpreter.wake stage wake)

def choose (stage : Stage) (debug : Bool) (text : String) (player : Player) : Player :=
  match Reply.index? text with
  | none => player.print "Invalid input. Enter a number or 'q'.\n" |>.ask debug
  | some index =>
      match player.interpreter.select stage index with
      | (.ok step, interpreter) => player.take debug (step, interpreter)
      | (.error refusal, interpreter) =>
          (player.follow interpreter).print ("Invalid choice: " ++ refusal.message ++ "\n")
            |>.ask debug

def enter (stage : Stage) (debug : Bool) (reply : Reply) (player : Player) : Player :=
  match player.awaited, reply with
  | .advance, .next => player.take debug (player.interpreter.advance stage)
  | .advance, .other _ => player.print "Press Enter to continue, or 'q' to quit.\n" |>.ask debug
  | .choice, .next => player.ask debug
  | .choice, .other text => player.choose stage debug text
  | _, .quit => { player with awaited := .nothing }
  | _, _ => player

def problems (diagnostics : List Diagnostic) : String :=
  if diagnostics.isEmpty then ""
  else "\n" ++ toString diagnostics.length ++ " problem(s) during this run:\n"
    ++ String.join (diagnostics.map fun diagnostic => "  - " ++ diagnostic.message ++ "\n")

def finish (player : Player) : Player :=
  let player := player.follow player.interpreter.stop
  player.print (problems player.interpreter.diagnostics ++ "\nGoodbye!\n")

def settleWithin (stage : Stage) (debug : Bool) : Nat → Player → Option Player
  | fuel, player =>
      match player.awaited with
      | .timer _ wake =>
          match fuel with
          | 0 => none
          | fuel + 1 => settleWithin stage debug fuel (player.fire stage debug wake)
      | _ => some player

/-- Fires timers until none is waited for; nothing, if that never comes to an end. -/
def settle (stage : Stage) (debug : Bool) (player : Player) : Option Player :=
  settleWithin stage debug (player.interpreter.script.fires + 1) player

inductive Ending where
  | finished
  | unreadable (fault : Text.EncodingFault)
  deriving DecidableEq

/-- Plays on with the lines that are still to be entered; nothing, if the play never ends. -/
def playOn (stage : Stage) (debug : Bool) (player : Player) :
    List Line → Option (Ending × Player)
  | [] => (player.settle stage debug).map fun player => (.finished, player.finish)
  | line :: lines =>
      match player.settle stage debug with
      | none => none
      | some player =>
          match player.awaited, line with
          | .nothing, _ => some (.finished, player.finish)
          | _, .unreadable fault => some (.unreadable fault, player)
          | _, .text content =>
              (player.enter stage debug (.ofLine content)).playOn stage debug lines

def play (stage : Stage) (debug : Bool) (script : Script) (lines : List Line) :
    Option (Ending × Player) :=
  (start stage debug script).playOn stage debug lines

end Player

end VisualNovel
