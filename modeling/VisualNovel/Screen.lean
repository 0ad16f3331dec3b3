import VisualNovel.Interpreter.State
import VisualNovel.Transcript
import VisualNovel.Journal.Filter

namespace VisualNovel

inductive Output where
  | text (piece : String)
  | record (record : Journal.Record)
  | complaint (text : String)
  deriving DecidableEq

namespace Output

def screen (outputs : List Output) : String :=
  String.join (outputs.map fun
    | .text piece => piece
    | _ => "")

def records (outputs : List Output) : List Journal.Record :=
  outputs.filterMap fun
    | .record noted => some noted
    | _ => none

def margin (filter : Journal.Filter) (outputs : List Output) : String :=
  String.join (outputs.map fun
    | .text _ => ""
    | .record noted => Journal.printed filter [noted]
    | .complaint words => words)

end Output

inductive Screen where
  | working
  | failing (reason : String)
  deriving DecidableEq

def Screen.write (screen : Screen) (piece : String) : List Output :=
  match screen with
  | working => [.text piece]
  | failing reason => if piece = "" then [] else [.record (Transcript.writeFailed reason)]

def Transcript.follow (screen : Screen) (transcript : Transcript) :
    List Event → List Output × Transcript
  | [] => ([], transcript)
  | .note note :: events =>
      let (later, transcript) := transcript.follow screen events
      (.record note.record :: later, transcript)
  | .cue cue :: events =>
      let (pieces, transcript) := transcript.perform cue
      let (later, transcript) := transcript.follow screen events
      (pieces.flatMap screen.write ++ later, transcript)

end VisualNovel
