import VisualNovel.Script.Basic
import VisualNovel.Journal.Record

/-!
Jump targets. A label stands for the offset just after it; of several labels with one name the
last counts.
-/

namespace VisualNovel

/-- A label that takes the place of an earlier one, whose target was `previous`. -/
structure Redefinition where
  label : String
  offset : Nat
  previous : Nat
  deriving DecidableEq

def Redefinition.record (redefinition : Redefinition) : Journal.Record :=
  ⟨.warn, "flow", "label '" ++ redefinition.label ++ "' redefined at offset "
    ++ toString redefinition.offset ++ "; replaces target " ++ toString redefinition.previous⟩

abbrev Targets := Dict Nat

namespace Targets

def enter (targets : Targets) (offset : Nat) :
    List Instruction → Targets × List Redefinition
  | [] => (targets, [])
  | .label id :: rest =>
      let (final, later) := enter (targets.insert id (offset + 1)) (offset + 1) rest
      match targets.get? id with
      | some previous => (final, ⟨id, offset, previous⟩ :: later)
      | none => (final, later)
  | _ :: rest => enter targets (offset + 1) rest

def ofScript (script : Script) : Targets :=
  (enter .empty 0 script.instructions).1

def redefinitions (script : Script) : List Redefinition :=
  (enter .empty 0 script.instructions).2

def resolve (targets : Targets) (label : String) : Option Nat :=
  targets.get? label

end Targets

end VisualNovel
