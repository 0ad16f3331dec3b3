import VisualNovel.Interpreter.Operations
import VisualNovel.Text.Utf8

/-!
Save points. A run can be saved while it waits on the reader, so no timer and no reveal is ever
part of a save point. Restoring one begins a new run at the saved place and shows the saved scene
again.
-/

namespace VisualNovel

open Json

structure SavePoint where
  fingerprint : String
  pc : Nat
  phase : Phase
  scene : Scene
  choiceAt : Option Nat
  deriving DecidableEq

namespace SavePoint

def format : Format SavePoint :=
  .record "struct Snapshot"
    (.need "script_digest" .text <| .need "pc" .index <| .need "phase" Phase.format <|
      .need "characters" (.dict Sprite.format) <| .need "background" Backdrop.format <|
      .need "audio" Music.format <| .nullable "dialogue" Dialogue.format <|
      .nullable "choice_at" .index .done)
    (fun (fingerprint, pc, phase, characters, background, audio, dialogue, choiceAt, ()) =>
      ⟨fingerprint, pc, phase, ⟨characters, background, audio, dialogue⟩, choiceAt⟩)
    (fun save => (save.fingerprint, save.pc, save.phase, save.scene.characters,
      save.scene.background, save.scene.audio, save.scene.dialogue, save.choiceAt, ()))

def text (save : SavePoint) : String :=
  (format.write save).pretty

inductive LoadFault where
  | encoding (fault : Text.EncodingFault)
  | json (fault : Json.Fault)
  deriving DecidableEq

def LoadFault.message : LoadFault → String
  | encoding fault => fault.message
  | json fault => fault.message

def bytes (save : SavePoint) : List UInt8 :=
  Text.encode save.text

def ofBytes? (bytes : List UInt8) : Except LoadFault SavePoint :=
  match Text.decode bytes with
  | .error fault => .error (.encoding fault)
  | .ok text =>
      match format.ofText? text with
      | .error fault => .error (.json fault)
      | .ok save => .ok save

def step? (save : SavePoint) (script : Script) : Except Refusal Step :=
  if script.fingerprint ≠ save.fingerprint then .error .otherScript
  else if script.length < save.pc then
    .error (.invalidSave (.pastEnd save.pc script.length))
  else
    match save.phase with
    | .awaitingAdvance => .ok .awaitAdvance
    | .awaitingChoice =>
        match save.choiceAt with
        | none => .error (.invalidSave .noPendingChoice)
        | some offset =>
            match script.get? offset with
            | some (.choice _) =>
                if save.pc = offset + 1 then .ok .awaitChoice
                else .error (.invalidSave (.detached save.pc offset))
            | _ => .error (.invalidSave .notAChoice)
    | phase => .error (.invalidSave (.notResumable phase))

end SavePoint

namespace Interpreter

def save (interpreter : Interpreter) : Except Refusal SavePoint :=
  if interpreter.phase.isSuspended then
    .ok ⟨interpreter.script.fingerprint, interpreter.pc, interpreter.phase, interpreter.scene,
      interpreter.choiceAt⟩
  else .error (.notSuspended interpreter.phase)

def replayBackdrop (backdrop : Backdrop) (interpreter : Interpreter) : Interpreter :=
  let interpreter := interpreter.give (.backgroundVisible backdrop.visible)
  match backdrop.image with
  | some image => interpreter.give (.backgroundImage image)
  | none => interpreter

def replaySprite (table : AssetTable) (interpreter : Interpreter) (entry : String × Sprite) :
    Interpreter :=
  let (id, sprite) := entry
  if sprite.visible then
    interpreter.give (.showCharacter id (sprite.asset table id) sprite.side)
  else interpreter

def replayMusic (stage : Stage) (music : Music) (interpreter : Interpreter) : Interpreter :=
  match music.track with
  | some track =>
      match music.status with
      | .stopped => interpreter
      | .playing => interpreter.requestMusic stage track music.looping
      | .paused => (interpreter.requestMusic stage track music.looping).give .pauseAudio
  | none => interpreter

def replayDialogue (dialogue : Option Dialogue) (interpreter : Interpreter) : Interpreter :=
  match dialogue with
  | some dialogue =>
      interpreter.give (.showDialogue dialogue.speaker) |>.give (.dialogueText dialogue.text)
  | none => interpreter

def replayChoices (interpreter : Interpreter) : Interpreter :=
  match interpreter.pendingChoices with
  | some options => interpreter.give (.renderChoices (options.map (·.text)))
  | none => interpreter

def replay (stage : Stage) (interpreter : Interpreter) : Interpreter :=
  let scene := interpreter.scene
  let interpreter := interpreter.replayBackdrop scene.background
  let interpreter :=
    scene.characters.entries.foldl (replaySprite stage.table) interpreter
  interpreter.replayMusic stage scene.audio
    |>.replayDialogue scene.dialogue
    |>.replayChoices

def restore (stage : Stage) (script : Script) (save : SavePoint) (interpreter : Interpreter) :
    Except Refusal Step × Interpreter :=
  match save.step? script with
  | .error refusal => (.error refusal, interpreter)
  | .ok step =>
      let interpreter :=
        { interpreter.reset script with
          pc := save.pc
          phase := save.phase
          scene := save.scene
          choiceAt := save.choiceAt }
      (.ok step, interpreter.note (.restored interpreter.run interpreter.pc) |>.replay stage)

end Interpreter

end VisualNovel
