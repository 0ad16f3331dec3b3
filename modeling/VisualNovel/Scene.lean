import VisualNovel.Json.Variants

namespace VisualNovel

open Json

inductive Phase where
  | idle
  | running
  | awaitingAdvance
  | awaitingChoice
  | ended
  | stopped
  deriving DecidableEq, Inhabited

namespace Phase

def name : Phase → String
  | idle => "Idle"
  | running => "Running"
  | awaitingAdvance => "AwaitingAdvance"
  | awaitingChoice => "AwaitingChoice"
  | ended => "Ended"
  | stopped => "Stopped"

def all : List Phase :=
  [idle, running, awaitingAdvance, awaitingChoice, ended, stopped]

def isSuspended : Phase → Bool
  | awaitingAdvance | awaitingChoice => true
  | _ => false

def isRunning : Phase → Bool
  | running => true
  | phase => phase.isSuspended

def format : Format Phase :=
  .names (all.map fun phase => (phase.name, phase)) name

end Phase

inductive Side where
  | left
  | center
  | right
  deriving DecidableEq, Inhabited

namespace Side

def name : Side → String
  | left => "left"
  | center => "center"
  | right => "right"

def format : Format Side :=
  .names ([left, center, right].map fun side => (side.name, side)) name

end Side

structure Sprite where
  visible : Bool
  state : Option String
  side : Side
  deriving DecidableEq

def Sprite.format : Format Sprite :=
  .record "struct CharacterState"
    (.need "visible" .boolean <| .nullable "state" .text <| .need "side" Side.format .done)
    (fun (visible, state, side, ()) => ⟨visible, state, side⟩)
    (fun sprite => (sprite.visible, sprite.state, sprite.side, ()))

structure Backdrop where
  visible : Bool
  image : Option String
  deriving DecidableEq

namespace Backdrop

def blank : Backdrop := ⟨true, none⟩

def format : Format Backdrop :=
  .record "struct BackgroundState"
    (.need "visible" .boolean <| .nullable "image" .text .done)
    (fun (visible, image, ()) => ⟨visible, image⟩)
    (fun backdrop => (backdrop.visible, backdrop.image, ()))

end Backdrop

inductive MusicStatus where
  | stopped
  | playing
  | paused
  deriving DecidableEq

namespace MusicStatus

def name : MusicStatus → String
  | stopped => "Stopped"
  | playing => "Playing"
  | paused => "Paused"

def format : Format MusicStatus :=
  .names ([stopped, playing, paused].map fun status => (status.name, status)) name

end MusicStatus

structure Music where
  track : Option String
  looping : Bool
  status : MusicStatus
  deriving DecidableEq

namespace Music

def silent : Music := ⟨none, false, .stopped⟩

/-- Only playing music can be paused. -/
def pause (music : Music) : Music :=
  if music.status = .playing then { music with status := .paused } else music

def stop (music : Music) : Music :=
  { music with status := .stopped }

def format : Format Music :=
  .record "struct AudioState"
    (.nullable "track" .text <| .need "looping" .boolean <|
      .need "status" MusicStatus.format .done)
    (fun (track, looping, status, ()) => ⟨track, looping, status⟩)
    (fun music => (music.track, music.looping, music.status, ()))

end Music

structure Dialogue where
  speaker : Option String
  text : String
  deriving DecidableEq

def Dialogue.format : Format Dialogue :=
  .record "struct Dialogue"
    (.nullable "speaker" .text <| .need "text" .text .done)
    (fun (speaker, text, ()) => ⟨speaker, text⟩)
    (fun dialogue => (dialogue.speaker, dialogue.text, ()))

structure Scene where
  characters : Dict Sprite
  background : Backdrop
  audio : Music
  dialogue : Option Dialogue
  deriving DecidableEq

def Scene.blank : Scene := ⟨.empty, .blank, .silent, none⟩

end VisualNovel
