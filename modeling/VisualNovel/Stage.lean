import VisualNovel.Script.Instruction
import VisualNovel.Catalog
import VisualNovel.Settings

namespace VisualNovel

open Json

inductive Cue where
  | backgroundVisible (visible : Bool)
  | backgroundImage (asset : String)
  | showCharacter (id : String) (asset : Option String) (side : Side)
  | hideCharacter (id : String)
  | characterState (id : String) (asset : String)
  | showDialogue (speaker : Option String)
  | dialogueText (text : String)
  | clearDialogue
  | renderChoices (texts : List String)
  | clearChoices
  | playAudio (asset : String) (looping : Bool)
  | stopAudio
  | pauseAudio
  | signal (signal : Signal)
  | showEnd (text : String)
  deriving DecidableEq

namespace Cue

def dialogueText? : Cue → Option String
  | dialogueText text => some text
  | _ => none

def showCharacterFields :=
  Fields.need "id" .text <| .nullable "asset" .text <| .need "side" Side.format .done

def characterStateFields := Fields.need "id" .text <| .need "asset" .text .done

def playAudioFields := Fields.need "asset" .text <| .need "looping" .boolean .done

def write : Cue → Json
  | backgroundVisible visible => variantOf "BackgroundVisible" (.bool visible)
  | backgroundImage asset => variantOf "BackgroundImage" (.string asset)
  | showCharacter id asset side =>
      variantOf "ShowCharacter" (.object (showCharacterFields.write (id, asset, side, ())))
  | hideCharacter id => variantOf "HideCharacter" (.string id)
  | characterState id asset =>
      variantOf "CharacterState" (.object (characterStateFields.write (id, asset, ())))
  | showDialogue speaker => variantOf "ShowDialogue" ((Format.option .text).write speaker)
  | dialogueText text => variantOf "DialogueText" (.string text)
  | clearDialogue => .string "ClearDialogue"
  | renderChoices texts => variantOf "RenderChoices" ((Format.list .text).write texts)
  | clearChoices => .string "ClearChoices"
  | playAudio asset looping =>
      variantOf "PlayAudio" (.object (playAudioFields.write (asset, looping, ())))
  | stopAudio => .string "StopAudio"
  | pauseAudio => .string "PauseAudio"
  | signal content => variantOf "Signal" (Signal.format.write content)
  | showEnd text => variantOf "ShowEnd" (.string text)

def format : Format Cue :=
  .variants
    [.single "BackgroundVisible" .boolean backgroundVisible,
      .single "BackgroundImage" .text backgroundImage,
      .record "PresenterCall" "ShowCharacter" showCharacterFields
        fun (id, asset, side, ()) => showCharacter id asset side,
      .single "HideCharacter" .text hideCharacter,
      .record "PresenterCall" "CharacterState" characterStateFields
        fun (id, asset, ()) => characterState id asset,
      .single "ShowDialogue" (.option .text) showDialogue,
      .single "DialogueText" .text dialogueText,
      .unit "ClearDialogue" clearDialogue,
      .single "RenderChoices" (.list .text) renderChoices,
      .unit "ClearChoices" clearChoices,
      .record "PresenterCall" "PlayAudio" playAudioFields
        fun (asset, looping, ()) => playAudio asset looping,
      .unit "StopAudio" stopAudio,
      .unit "PauseAudio" pauseAudio,
      .single "Signal" Signal.format signal,
      .single "ShowEnd" .text showEnd]
    write

end Cue

inductive PlaybackFault where
  | rejected (asset : String) (reason : String)
  | unavailable (reason : String)
  deriving DecidableEq

def PlaybackFault.message : PlaybackFault → String
  | rejected asset reason => "playback of '" ++ asset ++ "' rejected: " ++ reason
  | unavailable reason => "presentation unavailable: " ++ reason

/-- How a cue for music is answered, after the cues given before it. -/
abbrev Playback := (before : List Cue) → (asset : String) → (looping : Bool) → Option PlaybackFault

namespace Playback

def accepting : Playback := fun _ _ _ => none

def rejecting : Playback := fun _ asset _ => some (.rejected asset "autoplay blocked")

def unavailable : Playback := fun _ _ _ => some (.unavailable "no device")

end Playback

/-- The asset that shows a sprite: that of its state, or the state itself where the table does not
know it. -/
def Sprite.asset (sprite : Sprite) (table : AssetTable) (id : String) : Option String :=
  sprite.state.map fun state => (table.stateAsset id state).getD state

structure Stage where
  table : AssetTable
  settings : Settings
  playback : Playback

end VisualNovel
