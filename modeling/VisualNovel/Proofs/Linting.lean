import VisualNovel.Lint
import VisualNovel.Proofs.Positions

namespace VisualNovel

def Script.defines (script : Script) (label : String) : Bool :=
  decide (.label label ∈ script.instructions)

namespace Targets

theorem isSome_resolve_enter (instructions : List Instruction) (targets : Targets) (offset : Nat)
    (label : String) :
    ((enter targets offset instructions).1.resolve label).isSome ↔
      (targets.resolve label).isSome ∨ .label label ∈ instructions := by
  induction instructions generalizing targets offset with
  | nil => simp [enter]
  | cons instruction instructions ih =>
      cases instruction with
      | label id =>
          rw [enter_label, ih, resolve, Dict.get?_insert]
          by_cases same : label = id
          · simp [same]
          · simp [same, resolve]
      | _ => simp [enter, ih]

theorem isSome_resolve_ofScript (script : Script) (label : String) :
    ((ofScript script).resolve label).isSome = script.defines label := by
  rw [Bool.eq_iff_iff, Script.defines, decide_eq_true_iff]
  refine (isSome_resolve_enter script.instructions .empty 0 label).trans ?_
  simp [resolve, Dict.get?, Dict.empty]

theorem resolve_ofScript_eq_none_iff {script : Script} {label : String} :
    (ofScript script).resolve label = none ↔ script.defines label = false := by
  rw [← Option.not_isSome_iff_eq_none, isSome_resolve_ofScript, Bool.not_eq_true]

end Targets

namespace Lint

theorem labelIssues_label (seen : Dict Nat) (offset : Nat) (id : String)
    (rest : List Instruction) :
    (labelIssues seen offset (.label id :: rest)).1 =
      (labelIssues (seen.insert id offset) (offset + 1) rest).1 := by
  simp only [labelIssues]
  cases seen.get? id <;> rfl

theorem labelIssues_targets (instructions : List Instruction) (seen : Dict Nat) (offset : Nat) :
    (labelIssues seen offset instructions).1.map (fun _ seenAt => seenAt + 1) =
      (Targets.enter (seen.map fun _ seenAt => seenAt + 1) offset instructions).1 := by
  induction instructions generalizing seen offset with
  | nil => rfl
  | cons instruction instructions ih =>
      cases instruction with
      | label id => rw [labelIssues_label, Targets.enter_label, ih, Dict.map_insert]
      | _ => exact ih ..

theorem labels_contains (script : Script) :
    (labelIssues .empty 0 script.instructions).1.contains = script.defines := by
  funext label
  have targets := labelIssues_targets script.instructions .empty 0
  have found := congrArg (fun targets => (targets.get? label).isSome) targets
  simp only [Dict.get?_map, Option.isSome_map] at found
  rw [Dict.contains, found]
  exact Targets.isSome_resolve_ofScript script label

theorem labelIssues_warning (instructions : List Instruction) (seen : Dict Nat) (offset : Nat)
    {issue : Issue} (member : issue ∈ (labelIssues seen offset instructions).2) :
    issue.severity = .warning := by
  induction instructions generalizing seen offset with
  | nil => exact absurd member List.not_mem_nil
  | cons instruction instructions ih =>
      cases instruction with
      | label id =>
          simp only [labelIssues] at member
          cases known : seen.get? id with
          | none => exact ih _ _ (by simpa [known] using member)
          | some previous =>
              simp only [known, List.mem_cons] at member
              rcases member with rfl | later
              · rfl
              · exact ih _ _ later
      | _ => exact ih _ _ member

namespace Report

theorem issues_foldl_add (issues : List Issue) (report : Report) :
    (issues.foldl add report).issues = report.issues ++ issues := by
  induction issues generalizing report with
  | nil => exact (List.append_nil _).symm
  | cons issue issues ih =>
      rw [List.foldl_cons, ih]
      exact List.append_assoc ..

theorem mem_sorted_ofIssues {issue : Issue} {issues : List Issue} :
    issue ∈ (ofIssues issues).sorted.issues ↔ issue ∈ issues := by
  rw [sorted, List.mem_mergeSort, ofIssues, issues_foldl_add]
  rfl

end Report

theorem mem_scan_iff {defined : String → Bool} {table : Option AssetTable} {issue : Issue}
    {instructions : List Instruction} {start : Nat} :
    issue ∈ scan defined table start instructions ↔
      ∃ index instruction, instructions[index]? = some instruction ∧
        issue ∈ instructionIssues defined table (start + index) instruction := by
  induction instructions generalizing start with
  | nil => simp [scan]
  | cons instruction instructions ih =>
      rw [scan, List.mem_append, ih]
      constructor
      · rintro (here | ⟨index, later, found, member⟩)
        · exact ⟨0, instruction, rfl, here⟩
        · exact ⟨index + 1, later, found, Nat.add_right_comm start 1 index ▸ member⟩
      · rintro ⟨index, later, found, member⟩
        cases index with
        | zero =>
            cases found
            exact .inl member
        | succ index => exact .inr ⟨index, later, found, Nat.add_right_comm start 1 index ▸ member⟩

theorem mem_report_iff {script : Script} {table : Option AssetTable} {issue : Issue} :
    issue ∈ (report script table).issues ↔
      issue ∈ (labelIssues .empty 0 script.instructions).2 ∨
        ∃ offset instruction, script.get? offset = some instruction ∧
          issue ∈ instructionIssues script.defines table offset instruction := by
  simp only [report, Report.mem_sorted_ofIssues, List.mem_append, mem_scan_iff, labels_contains,
    Nat.zero_add]
  rfl

theorem mem_report {script : Script} {table : Option AssetTable} {issue : Issue} {offset : Nat}
    {instruction : Instruction} (found : script.get? offset = some instruction)
    (member : issue ∈ instructionIssues script.defines table offset instruction) :
    issue ∈ (report script table).issues :=
  mem_report_iff.mpr (.inr ⟨offset, instruction, found, member⟩)

end Lint

def Script.fault? (script : Script) (offset : Nat) : Option Diagnostic :=
  (script.get? offset).bind (·.fault? (.ofScript script) offset)

namespace Diagnostic

inductive ErrorAt (offset : Nat) : Diagnostic → Prop where
  | unknownLabel (label : String) : ErrorAt offset (.unknownLabel label offset)
  | missingField (kind field : String) : ErrorAt offset (.missingField kind field offset)

/-- An issue is raised where the diagnostic says that something is wrong. Of characters that are
unknown only those that are shown are spoken of: hiding one may go wrong because it was never
shown. -/
def AnnouncedBy (issues : List Lint.Issue) (script : Script) : Diagnostic → Prop
  | unknownLabel label offset => script.defines label = false ∧ ∃ context,
      ⟨.error, offset, context ++ " targets undefined label '" ++ label ++ "'"⟩ ∈ issues
  | missingField _ _ offset => ∃ message, ⟨.error, offset, message⟩ ∈ issues
  | unknownInstruction offset => ∃ message, ⟨.warning, offset, message⟩ ∈ issues
  | unknownCharacter id offset => ∀ shown state side delay,
      script.get? offset = some (.character shown .shown state side delay) →
      ⟨.warning, offset, "character '" ++ id ++ "' is not defined in resources"⟩ ∈ issues
  | unresolvedAsset .. | playbackFailed .. | stalled _ => True

end Diagnostic

namespace Lint

variable {script : Script} {offset : Nat} {instruction : Instruction}

theorem fault_announced (table : Option AssetTable) {fault : Diagnostic}
    (found : script.get? offset = some instruction)
    (faulty : instruction.fault? (.ofScript script) offset = some fault) :
    fault.AnnouncedBy (report script table).issues script := by
  have raised {issue : Issue}
      (member : issue ∈ instructionIssues script.defines table offset instruction) :
      issue ∈ (report script table).issues := mem_report found member
  unfold Instruction.fault? at faulty
  split at faulty
  · next label =>
      split at faulty
      · cases faulty
      · next undefined =>
          cases faulty
          rw [Targets.isSome_resolve_ofScript, Bool.not_eq_true] at undefined
          refine ⟨undefined, "jump", raised ?_⟩
          simp [instructionIssues, targetIssues, undefined]
  · cases faulty
    exact ⟨_, raised (List.mem_singleton.mpr rfl)⟩
  · cases faulty
    exact ⟨_, raised (List.mem_append_left _ (List.mem_singleton.mpr rfl))⟩
  · cases faulty
    exact ⟨_, raised (List.mem_singleton.mpr rfl)⟩
  · cases faulty
    exact ⟨_, raised (List.mem_singleton.mpr rfl)⟩
  · cases faulty

theorem option_announced (table : Option AssetTable) {options : List ChoiceOption}
    {option : ChoiceOption} {label : String}
    (found : script.get? offset = some (.choice options)) (offered : option ∈ options)
    (leads : option.target = some label) (undefined : script.defines label = false) :
    (Diagnostic.unknownLabel label offset).AnnouncedBy (report script table).issues script := by
  refine ⟨undefined, "choice '" ++ option.text ++ "'", mem_report found ?_⟩
  refine List.mem_append_right _ (List.mem_flatMap.mpr ⟨option, offered, ?_⟩)
  simp [optionIssues, leads, targetIssues, undefined]

theorem announced {table : AssetTable} {diagnostic : Diagnostic}
    (found : script.get? offset = some instruction)
    (reported : instruction.MayReport table (.ofScript script) offset diagnostic) :
    diagnostic.AnnouncedBy (report script (some table)).issues script := by
  cases reported with
  | fault faulty => exact fault_announced (some table) found faulty
  | asset kind id => trivial
  | playback asset reason => trivial
  | @character id action state side delay same unknown =>
      intro shown state' side' delay' shows
      rw [found, same] at shows
      cases shows
      refine mem_report found ?_
      rw [same]
      refine List.mem_append_right _ ?_
      simp [unknownIdIssues, unknown rfl]

/-- An option leads to a label that is defined nowhere, and the issue says so. -/
structure Strays (script : Script) (options : List ChoiceOption) (issue : Issue) : Prop where
  found : script.get? issue.offset = some (.choice options)
  strays : ∃ option ∈ options, ∃ label, option.target = some label ∧
    script.defines label = false ∧ issue.message =
      "choice '" ++ option.text ++ "'" ++ " targets undefined label '" ++ label ++ "'"

theorem mem_targetIssues_iff {defined : String → Bool} {context label : String} {issue : Issue} :
    issue ∈ targetIssues defined offset context label ↔ defined label = false ∧
      issue = ⟨.error, offset, context ++ " targets undefined label '" ++ label ++ "'"⟩ := by
  unfold targetIssues
  cases defined label <;> simp

theorem mem_optionIssues {defined : String → Bool} {option : ChoiceOption} {issue : Issue}
    (member : issue ∈ optionIssues defined offset option) :
    ∃ label, option.target = some label ∧ defined label = false ∧ issue = ⟨.error, offset,
      "choice '" ++ option.text ++ "'" ++ " targets undefined label '" ++ label ++ "'"⟩ := by
  unfold optionIssues at member
  split at member
  · next label leads => exact ⟨label, leads, mem_targetIssues_iff.mp member⟩
  · cases member

theorem warning_of_unknownId {table : Option AssetTable} {role id : String} {issue : Issue}
    (member : issue ∈ unknownIdIssues table offset role id) : issue.severity = .warning := by
  unfold unknownIdIssues at member
  split at member
  · split at member
    · cases member
    · rw [List.mem_singleton.mp member]
  · cases member

theorem error_cases {table : Option AssetTable} {issue : Issue}
    (member : issue ∈ (report script table).issues) (error : issue.severity = .error) :
    (∃ fault, script.fault? issue.offset = some fault ∧ fault.ErrorAt issue.offset) ∨
      ∃ options, Strays script options issue := by
  have notWarning : issue.severity ≠ .warning := by simp [error]
  rcases mem_report_iff.mp member with redefinition | ⟨offset, instruction, found, member⟩
  · exact absurd (labelIssues_warning _ _ _ redefinition) notWarning
  have faulty {fault : Diagnostic} (at_ : issue.offset = offset)
      (fails : instruction.fault? (.ofScript script) offset = some fault)
      (serious : fault.ErrorAt offset) :
      ∃ fault, script.fault? issue.offset = some fault ∧ fault.ErrorAt issue.offset := by
    rw [at_, Script.fault?, found]
    exact ⟨fault, fails, serious⟩
  unfold instructionIssues at member
  split at member
  · next label =>
      obtain ⟨undefined, rfl⟩ := mem_targetIssues_iff.mp member
      refine .inl (faulty rfl ?_ (.unknownLabel label))
      simp [Instruction.fault?, Targets.isSome_resolve_ofScript, undefined]
  · next options =>
      rcases List.mem_append.mp member with barren | stray
      · cases options with
        | nil =>
            cases List.mem_singleton.mp barren
            exact .inl (faulty rfl rfl (.missingField ..))
        | cons option options => cases barren
      · obtain ⟨option, offered, stray⟩ := List.mem_flatMap.mp stray
        obtain ⟨label, leads, undefined, rfl⟩ := mem_optionIssues stray
        exact .inr ⟨options, found, option, offered, label, leads, undefined, rfl⟩
  · next id action state side delay =>
      rcases List.mem_append.mp member with stateless | unknown
      · split at stateless
        · next missing =>
            obtain ⟨rfl, none⟩ := missing
            cases Option.isNone_iff_eq_none.mp none
            cases List.mem_singleton.mp stateless
            exact .inl (faulty rfl rfl (.missingField ..))
        · cases stateless
      · exact absurd (warning_of_unknownId unknown) notWarning
  · exact absurd (warning_of_unknownId member) notWarning
  · cases List.mem_singleton.mp member
    exact .inl (faulty rfl rfl (.missingField ..))
  · cases List.mem_singleton.mp member
    exact absurd rfl notWarning
  · cases member

end Lint

end VisualNovel
