import VisualNovel.Json.Variants
import VisualNovel.Journal.Record

namespace VisualNovel

open Json

inductive Diagnostic where
  | unknownLabel (label : String) (offset : Nat)
  | unknownCharacter (id : String) (offset : Nat)
  | unresolvedAsset (kind : String) (id : String)
  | missingField (kind : String) (field : String) (offset : Nat)
  | unknownInstruction (offset : Nat)
  | playbackFailed (asset : String) (reason : String)
  | stalled (offset : Nat)
  deriving DecidableEq

namespace Diagnostic

def message : Diagnostic → String
  | unknownLabel label offset =>
      "unknown label '" ++ label ++ "' referenced at offset " ++ toString offset
  | unknownCharacter id offset =>
      "unknown character '" ++ id ++ "' at offset " ++ toString offset
  | unresolvedAsset kind id =>
      "no " ++ kind ++ " named '" ++ id ++ "'; using it as a literal asset reference"
  | missingField kind field offset =>
      "'" ++ kind ++ "' instruction at offset " ++ toString offset ++ " is missing '" ++ field
        ++ "'"
  | unknownInstruction offset =>
      "unrecognized instruction at offset " ++ toString offset ++ " skipped"
  | playbackFailed asset reason => "playback of '" ++ asset ++ "' failed: " ++ reason
  | stalled offset =>
      "no suspension point reachable from offset " ++ toString offset ++ "; run stopped"

def target : Diagnostic → String
  | unknownLabel .. | stalled _ => "flow"
  | unresolvedAsset .. | unknownCharacter .. => "resources"
  | playbackFailed .. => "audio"
  | missingField .. | unknownInstruction _ => "engine"

def record (diagnostic : Diagnostic) : Journal.Record :=
  ⟨.warn, diagnostic.target, diagnostic.message⟩

def unknownLabelFields := Fields.need "label" .text <| .need "offset" .index .done

def unknownCharacterFields := Fields.need "id" .text <| .need "offset" .index .done

def unresolvedAssetFields := Fields.need "kind" .text <| .need "id" .text .done

def missingFieldFields :=
  Fields.need "kind" .text <| .need "field" .text <| .need "offset" .index .done

def offsetFields := Fields.need "offset" .index .done

def playbackFailedFields := Fields.need "asset" .text <| .need "reason" .text .done

def write : Diagnostic → Json
  | unknownLabel label offset =>
      variantOf "UnknownLabel" (.object (unknownLabelFields.write (label, offset, ())))
  | unknownCharacter id offset =>
      variantOf "UnknownCharacter" (.object (unknownCharacterFields.write (id, offset, ())))
  | unresolvedAsset kind id =>
      variantOf "UnresolvedAsset" (.object (unresolvedAssetFields.write (kind, id, ())))
  | missingField kind field offset =>
      variantOf "MissingField" (.object (missingFieldFields.write (kind, field, offset, ())))
  | unknownInstruction offset =>
      variantOf "UnknownInstruction" (.object (offsetFields.write (offset, ())))
  | playbackFailed asset reason =>
      variantOf "PlaybackFailed" (.object (playbackFailedFields.write (asset, reason, ())))
  | stalled offset => variantOf "Stalled" (.object (offsetFields.write (offset, ())))

def format : Format Diagnostic :=
  .variants
    [.record "Diagnostic" "UnknownLabel" unknownLabelFields
        fun (label, offset, ()) => unknownLabel label offset,
      .record "Diagnostic" "UnknownCharacter" unknownCharacterFields
        fun (id, offset, ()) => unknownCharacter id offset,
      .record "Diagnostic" "UnresolvedAsset" unresolvedAssetFields
        fun (kind, id, ()) => unresolvedAsset kind id,
      .record "Diagnostic" "MissingField" missingFieldFields
        fun (kind, field, offset, ()) => missingField kind field offset,
      .record "Diagnostic" "UnknownInstruction" offsetFields
        fun (offset, ()) => unknownInstruction offset,
      .record "Diagnostic" "PlaybackFailed" playbackFailedFields
        fun (asset, reason, ()) => playbackFailed asset reason,
      .record "Diagnostic" "Stalled" offsetFields fun (offset, ()) => stalled offset]
    write

end Diagnostic

end VisualNovel
