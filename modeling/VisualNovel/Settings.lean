import VisualNovel.Json.Record

namespace VisualNovel

open Json

structure Settings where
  textInterval : UInt64 := 30
  transitionDelay : UInt64 := 450
  audioSettle : UInt64 := 50
  defaultWait : UInt64 := 500
  endText : String := "— FIN —"
  loopByDefault : Bool := true
  deriving DecidableEq, Inhabited

namespace Settings

def standard : Settings := {}

def format : Format Settings :=
  .record "struct EngineConfig"
    (.withDefault "text_interval_ms" .millis standard.textInterval <|
      .withDefault "transition_delay_ms" .millis standard.transitionDelay <|
      .withDefault "audio_settle_ms" .millis standard.audioSettle <|
      .withDefault "default_wait_ms" .millis standard.defaultWait <|
      .withDefault "end_text" .text standard.endText <|
      .withDefault "loop_bgm_by_default" .boolean standard.loopByDefault .done)
    (fun (textInterval, transitionDelay, audioSettle, defaultWait, endText, loopByDefault, ()) =>
      ⟨textInterval, transitionDelay, audioSettle, defaultWait, endText, loopByDefault⟩)
    (fun settings => (settings.textInterval, settings.transitionDelay, settings.audioSettle,
      settings.defaultWait, settings.endText, settings.loopByDefault, ()))

def glyphTime (settings : Settings) : Nat :=
  settings.textInterval.toNat

def transitionTime (settings : Settings) (wait : Option UInt64) : Nat :=
  (wait.getD settings.transitionDelay).toNat

def audioTime (settings : Settings) : Nat :=
  settings.audioSettle.toNat

def waitTime (settings : Settings) (duration : Option UInt64) : Nat :=
  (duration.getD settings.defaultWait).toNat

end Settings

end VisualNovel
