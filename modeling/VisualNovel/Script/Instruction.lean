import VisualNovel.Scene
import VisualNovel.Json.Tagged

/-!
The instructions of a script and their format. An instruction is a record whose member `kind` says
which one it is; a kind that is not known stands for `unknown`.
-/

namespace VisualNovel

open Json

inductive CharacterAction where
  | shown
  | hidden
  | setState
  deriving DecidableEq

namespace CharacterAction

def name : CharacterAction → String
  | shown => "show"
  | hidden => "hide"
  | setState => "setState"

def format : Format CharacterAction :=
  .names ([shown, hidden, setState].map fun action => (action.name, action)) name

end CharacterAction

inductive MusicAction where
  | play
  | stop
  | pause
  deriving DecidableEq

namespace MusicAction

def name : MusicAction → String
  | play => "play"
  | stop => "stop"
  | pause => "pause"

def format : Format MusicAction :=
  .names ([play, stop, pause].map fun action => (action.name, action)) name

end MusicAction

structure Signal where
  event : String
  payload : Option Json
  deriving DecidableEq

def Signal.format : Format Signal :=
  .record "struct ChoiceSignal"
    (.need "event" .text <| .optional "payload" .any .done)
    (fun (event, payload, ()) => ⟨event, payload⟩)
    (fun signal => (signal.event, signal.payload, ()))

structure ChoiceOption where
  text : String
  target : Option String
  signal : Option Signal
  deriving DecidableEq

def ChoiceOption.format : Format ChoiceOption :=
  .record "struct ChoiceOption"
    (.need "text" .text <| .optional "goto" .text <| .optional "onSelect" Signal.format .done)
    (fun (text, target, signal, ()) => ⟨text, target, signal⟩)
    (fun option => (option.text, option.target, option.signal, ()))

inductive Instruction where
  | label (id : String)
  | say (speaker : Option String) (text : String)
  | background (visible : Option Bool) (image : Option String) (delay : Option UInt64)
  | character (id : String) (action : CharacterAction) (state : Option String)
      (side : Option Side) (delay : Option UInt64)
  | choice (options : List ChoiceOption)
  | wait (duration : Option UInt64)
  | jump (target : String)
  | music (action : MusicAction) (track : Option String) (looping : Option Bool)
  | ending
  | unknown
  deriving DecidableEq

namespace Instruction

def kind : Instruction → String
  | label _ => "label"
  | say .. => "say"
  | background .. => "bg"
  | character .. => "char"
  | choice _ => "choice"
  | wait _ => "wait"
  | jump _ => "jump"
  | music .. => "bgm"
  | ending => "end"
  | unknown => "unknown"

def labelFields := Fields.need "id" .text .done

def sayFields := Fields.optional "who" .text <| .need "text" .text .done

def backgroundFields :=
  Fields.optional "show" .boolean <| .optional "src" .text <| .optional "wait" .millis .done

def characterFields :=
  Fields.need "id" .text <| .need "action" CharacterAction.format <|
    .optional "state" .text <| .optional "side" Side.format <| .optional "wait" .millis .done

def choiceFields := Fields.need "choices" (.list ChoiceOption.format) .done

def waitFields := Fields.optional "ms" .millis .done

def jumpFields := Fields.need "to" .text .done

def musicFields :=
  Fields.need "action" MusicAction.format <| .optional "id" .text <|
    .optional "loop" .boolean .done

def members : Instruction → List (String × Json)
  | label id => labelFields.write (id, ())
  | say speaker text => sayFields.write (speaker, text, ())
  | background visible image delay => backgroundFields.write (visible, image, delay, ())
  | character id action state side delay =>
      characterFields.write (id, action, state, side, delay, ())
  | choice options => choiceFields.write (options, ())
  | wait duration => waitFields.write (duration, ())
  | jump target => jumpFields.write (target, ())
  | music action track looping => musicFields.write (action, track, looping, ())
  | ending => []
  | unknown => []

def tagged : Tagged Instruction where
  tag := "kind"
  owner := "internally tagged enum Instruction"
  kinds := [
    ("label", .record "struct variant Instruction::Label" labelFields fun (id, ()) => label id),
    ("say", .record "struct variant Instruction::Say" sayFields
      fun (speaker, text, ()) => say speaker text),
    ("bg", .record "struct variant Instruction::Bg" backgroundFields
      fun (visible, image, delay, ()) => background visible image delay),
    ("char", .record "struct variant Instruction::Char" characterFields
      fun (id, action, state, side, delay, ()) => character id action state side delay),
    ("choice", .record "struct variant Instruction::Choice" choiceFields
      fun (options, ()) => choice options),
    ("wait", .record "struct variant Instruction::Wait" waitFields
      fun (duration, ()) => wait duration),
    ("jump", .record "struct variant Instruction::Jump" jumpFields fun (target, ()) => jump target),
    ("bgm", .record "struct variant Instruction::Bgm" musicFields
      fun (action, track, looping, ()) => music action track looping),
    ("end", .empty ending)]
  other := .empty unknown

def format : Format Instruction :=
  .tagged tagged fun instruction =>
    .object (("kind", .string instruction.kind) :: instruction.members)

end Instruction

end VisualNovel
