import VisualNovel.Script.Instruction
import VisualNovel.Json.Printer
import VisualNovel.Fingerprint

namespace VisualNovel

open Json

structure Script where
  instructions : List Instruction
  deriving DecidableEq, Inhabited

namespace Script

def empty : Script := ⟨[]⟩

def length (script : Script) : Nat :=
  script.instructions.length

def get? (script : Script) (offset : Nat) : Option Instruction :=
  script.instructions[offset]?

def format : Format Script :=
  (Format.list Instruction.format).imap Script.mk Script.instructions

def canonicalText (script : Script) : String :=
  (format.write script).compact

def fingerprint (script : Script) : String :=
  Fingerprint.ofText script.canonicalText

end Script

end VisualNovel
