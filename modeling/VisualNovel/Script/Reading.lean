import VisualNovel.Script.Basic
import VisualNovel.Journal.Record

/-!
Reading a script from its text, an array of records or an object whose member `script` is one. A
record without a `kind` that is a string is kept as an `unknown` instruction, so that offsets stay
those of the text. The first record that does not decode refuses the script.
-/

namespace VisualNovel

open Json

inductive ScriptFault where
  | json (fault : Json.Fault)
  | malformed (offset : Nat) (kind : String) (reason : Mismatch)
  | notASequence
  deriving DecidableEq

namespace ScriptFault

def messageWith (wording : Json.Fault → String) : ScriptFault → String
  | json fault => "invalid script JSON: " ++ wording fault
  | malformed offset kind reason =>
      "malformed '" ++ kind ++ "' instruction at offset " ++ toString offset ++ ": "
        ++ reason.message
  | notASequence => "script must be an array of instructions or an object with a `script` array"

def message : ScriptFault → String :=
  messageWith Json.Fault.message

def messageIn (text : String) : ScriptFault → String :=
  messageWith (Json.Fault.messageIn text)

end ScriptFault

inductive SkippedRecord where
  | withoutKind (offset : Nat)
  | unknownKind (kind : String) (offset : Nat)
  deriving DecidableEq

def SkippedRecord.record : SkippedRecord → Journal.Record
  | withoutKind offset => ⟨.warn, "engine",
      "instruction at offset " ++ toString offset ++ " has no string 'kind'; it will be skipped"⟩
  | unknownKind kind offset => ⟨.warn, "engine",
      "unrecognized instruction kind '" ++ kind ++ "' at offset " ++ toString offset
        ++ "; it will be skipped"⟩

namespace Script

def recordsOf : Json → Except ScriptFault (List Json)
  | .array records => .ok records
  | .object members =>
      match members.lookup "script" with
      | some (.array records) => .ok records
      | _ => .error .notASequence
  | _ => .error .notASequence

def records? (text : String) : Except ScriptFault (List Json) :=
  match Json.ofText? text with
  | .ok value => recordsOf value.normalize
  | .error fault => .error (.json fault)

def kindOf? (record : Json) : Option String :=
  match record.member? "kind" with
  | some (.string kind) => some kind
  | _ => none

def instructionOf (offset : Nat) (record : Json) : Except ScriptFault Instruction :=
  match kindOf? record with
  | none => .ok .unknown
  | some kind =>
      match Instruction.format.ofJson record with
      | .ok instruction => .ok instruction
      | .error reason => .error (.malformed offset kind reason)

def instructionsOf : (offset : Nat) → List Json → Except ScriptFault (List Instruction)
  | _, [] => .ok []
  | offset, record :: records => do
      let instruction ← instructionOf offset record
      let instructions ← instructionsOf (offset + 1) records
      return instruction :: instructions

def ofText? (text : String) : Except ScriptFault Script := do
  let records ← records? text
  let instructions ← instructionsOf 0 records
  return ⟨instructions⟩

/-- The records that are skipped, up to the first that does not decode. -/
def skippedOf : (offset : Nat) → List Json → List SkippedRecord
  | _, [] => []
  | offset, record :: records =>
      match kindOf? record, instructionOf offset record with
      | _, .error _ => []
      | none, .ok _ => .withoutKind offset :: skippedOf (offset + 1) records
      | some kind, .ok instruction =>
          if instruction = .unknown then
            .unknownKind kind offset :: skippedOf (offset + 1) records
          else skippedOf (offset + 1) records

def skipped (text : String) : List SkippedRecord :=
  match records? text with
  | .ok records => skippedOf 0 records
  | .error _ => []

end Script

end VisualNovel
