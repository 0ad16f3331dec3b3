import VisualNovel.Stage
import VisualNovel.Json.Printer
import VisualNovel.Journal.Record
import VisualNovel.Text.Bytes

/-!
The plain-text rendition of a performance. Every cue is written as a line, except that of a line of
dialogue only what is new since the last cue is written.
-/

namespace VisualNovel

structure Transcript where
  printed : Nat
  deriving DecidableEq

namespace Transcript

def start : Transcript := ⟨0⟩

def lineBreak (transcript : Transcript) : List String :=
  if 0 < transcript.printed then ["\n"] else []

def line (transcript : Transcript) (text : String) : List String × Transcript :=
  (transcript.lineBreak ++ [text, "\n"], start)

def numbered : (first : Nat) → List String → List String
  | _, [] => []
  | number, text :: texts =>
      (toString number ++ ". " ++ text ++ "\n") :: numbered (number + 1) texts

def dialogueText (transcript : Transcript) (text : String) : List String × Transcript :=
  let writes := match Text.dropBytes? transcript.printed text.toList with
    | some suffix => [String.ofList suffix]
    | none => ["\n", text]
  (writes, ⟨text.utf8ByteSize⟩)

def perform (transcript : Transcript) : Cue → List String × Transcript
  | .backgroundVisible true => transcript.line "[bg] shown"
  | .backgroundVisible false => transcript.line "[bg] hidden"
  | .backgroundImage asset => transcript.line ("[bg] " ++ asset)
  | .showCharacter id (some asset) side =>
      transcript.line ("[show] " ++ id ++ " (" ++ side.name ++ ") " ++ asset)
  | .showCharacter id none side => transcript.line ("[show] " ++ id ++ " (" ++ side.name ++ ")")
  | .hideCharacter id => transcript.line ("[hide] " ++ id)
  | .characterState id asset => transcript.line ("[state] " ++ id ++ " " ++ asset)
  | .showDialogue (some speaker) => (transcript.lineBreak ++ ["\n", speaker ++ ":\n"], start)
  | .showDialogue none => (transcript.lineBreak ++ ["\n"], start)
  | .dialogueText text => transcript.dialogueText text
  | .clearDialogue => (transcript.lineBreak, start)
  | .renderChoices texts =>
      (transcript.lineBreak ++ "\n--- Choice ---\n" :: numbered 1 texts, start)
  | .clearChoices => ([], transcript)
  | .playAudio asset true => transcript.line ("[music] " ++ asset ++ " (loop)")
  | .playAudio asset false => transcript.line ("[music] " ++ asset)
  | .stopAudio => transcript.line "[music] stop"
  | .pauseAudio => transcript.line "[music] pause"
  | .signal ⟨event, some payload⟩ =>
      transcript.line ("[signal] " ++ event ++ " " ++ payload.compact)
  | .signal ⟨event, none⟩ => transcript.line ("[signal] " ++ event)
  | .showEnd text => (transcript.lineBreak ++ ["\n" ++ text ++ "\n"], start)

def writeFailed (reason : String) : Journal.Record :=
  ⟨.warn, "engine", "terminal write failed: " ++ reason⟩

def performAll (transcript : Transcript) : List Cue → List (List String) × Transcript
  | [] => ([], transcript)
  | cue :: cues =>
      let (writes, transcript) := transcript.perform cue
      let (later, transcript) := transcript.performAll cues
      (writes :: later, transcript)

end Transcript

end VisualNovel
