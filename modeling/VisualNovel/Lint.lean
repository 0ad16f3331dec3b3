import VisualNovel.Targets
import VisualNovel.Catalog

namespace VisualNovel.Lint

open Json

inductive Severity where
  | error
  | warning
  deriving DecidableEq

namespace Severity

def name : Severity → String
  | error => "Error"
  | warning => "Warning"

def word : Severity → String
  | error => "error"
  | warning => "warning"

def format : Format Severity :=
  .names ([error, warning].map fun severity => (severity.name, severity)) name

end Severity

structure Issue where
  severity : Severity
  offset : Nat
  message : String
  deriving DecidableEq

def Issue.format : Format Issue :=
  .record "struct Issue"
    (.need "severity" Severity.format <| .need "offset" .index <| .need "message" .text .done)
    (fun (severity, offset, message, ()) => ⟨severity, offset, message⟩)
    (fun issue => (issue.severity, issue.offset, issue.message, ()))

structure Report where
  issues : List Issue
  errors : Nat
  warnings : Nat
  deriving DecidableEq

namespace Report

def empty : Report := ⟨[], 0, 0⟩

def add (report : Report) (issue : Issue) : Report :=
  { issues := report.issues ++ [issue]
    errors := report.errors + if issue.severity = .error then 1 else 0
    warnings := report.warnings + if issue.severity = .warning then 1 else 0 }

def ofIssues (issues : List Issue) : Report :=
  issues.foldl add empty

def hasErrors (report : Report) : Bool :=
  0 < report.errors

def isClean (report : Report) : Bool :=
  report.issues.isEmpty

/-- The issues by their offsets; those at one offset keep their order. -/
def sorted (report : Report) : Report :=
  { report with
    issues := report.issues.mergeSort fun first second => first.offset ≤ second.offset }

def format : Format Report :=
  .record "struct CheckReport"
    (.need "issues" (.list Issue.format) <| .need "error_count" .index <|
      .need "warning_count" .index .done)
    (fun (issues, errors, warnings, ()) => ⟨issues, errors, warnings⟩)
    (fun report => (report.issues, report.errors, report.warnings, ()))

def line (name : String) (issue : Issue) : String :=
  name ++ ":" ++ toString issue.offset ++ ": " ++ issue.severity.word ++ ": "
    ++ issue.message ++ "\n"

def summary (name : String) (report : Report) : String :=
  if report.isClean then name ++ ": ok\n"
  else name ++ ": " ++ toString report.errors ++ " error(s), "
    ++ toString report.warnings ++ " warning(s)\n"

def text (name : String) (report : Report) : String :=
  String.join (report.issues.map (line name)) ++ summary name report

end Report

/-- Where each label is defined last among the instructions from `offset` on, and an issue for
each definition that takes the place of an earlier one. -/
def labelIssues (seen : Dict Nat) (offset : Nat) :
    List Instruction → Dict Nat × List Issue
  | [] => (seen, [])
  | .label id :: rest =>
      let (final, later) := labelIssues (seen.insert id offset) (offset + 1) rest
      match seen.get? id with
      | some previous =>
          (final, ⟨.warning, offset, "label '" ++ id ++ "' already defined at offset "
            ++ toString previous ++ "; this one wins"⟩ :: later)
      | none => (final, later)
  | _ :: rest => labelIssues seen (offset + 1) rest

def targetIssues (defined : String → Bool) (offset : Nat) (context label : String) : List Issue :=
  if defined label then []
  else [⟨.error, offset, context ++ " targets undefined label '" ++ label ++ "'"⟩]

def optionIssues (defined : String → Bool) (offset : Nat) (option : ChoiceOption) : List Issue :=
  match option.target with
  | some label => targetIssues defined offset ("choice '" ++ option.text ++ "'") label
  | none => []

def unknownIdIssues (table : Option AssetTable) (offset : Nat) (role id : String) : List Issue :=
  match table with
  | some table =>
      if table.hasCharacter id then []
      else [⟨.warning, offset, role ++ " '" ++ id ++ "' is not defined in resources"⟩]
  | none => []

def instructionIssues (defined : String → Bool) (table : Option AssetTable) (offset : Nat) :
    Instruction → List Issue
  | .jump label => targetIssues defined offset "jump" label
  | .choice options =>
      (if options.isEmpty then [⟨.error, offset, "choice has no options"⟩] else [])
        ++ options.flatMap (optionIssues defined offset)
  | .character id action state _ _ =>
      (if action = .setState ∧ state.isNone then
          [⟨.error, offset, "setState for '" ++ id ++ "' has no state"⟩]
        else [])
        ++ unknownIdIssues table offset "character" id
  | .say (some speaker) _ => unknownIdIssues table offset "speaker" speaker
  | .music .play none _ => [⟨.error, offset, "bgm play has no id"⟩]
  | .unknown => [⟨.warning, offset, "unrecognized instruction kind will be skipped"⟩]
  | _ => []

def scan (defined : String → Bool) (table : Option AssetTable) (offset : Nat) :
    List Instruction → List Issue
  | [] => []
  | instruction :: rest =>
      instructionIssues defined table offset instruction ++ scan defined table (offset + 1) rest

def report (script : Script) (table : Option AssetTable) : Report :=
  let (seen, issues) := labelIssues .empty 0 script.instructions
  (Report.ofIssues (issues ++ scan seen.contains table 0 script.instructions)).sorted

end VisualNovel.Lint
