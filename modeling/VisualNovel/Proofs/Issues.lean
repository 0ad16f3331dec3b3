import VisualNovel.Proofs.Labels

namespace VisualNovel

/-! ## Sorting by places -/

section Sorting

variable {α : Type} {place : α → Nat}

theorem mergeSort_sorted (place : α → Nat) (items : List α) :
    let sorted := items.mergeSort (place · ≤ place ·)
    sorted.Pairwise (place · ≤ place ·) ∧
      ∀ here, sorted.filter (place · = here) = items.filter (place · = here) := by
  intro sorted
  have trans (first second third : α) : decide (place first ≤ place second) →
      decide (place second ≤ place third) → decide (place first ≤ place third) := by
    simpa using Nat.le_trans
  have total (first second : α) :
      decide (place first ≤ place second) || decide (place second ≤ place first) := by
    simpa using Nat.le_total (place first) (place second)
  constructor
  · simpa using List.pairwise_mergeSort trans total items
  · intro here
    have level : (items.filter (place · = here)).Pairwise (decide <| place · ≤ place ·) := by
      apply List.pairwise_of_forall_mem_list
      intro first member second member'
      have same : place first = here := by simpa using (List.mem_filter.mp member).2
      have same' : place second = here := by simpa using (List.mem_filter.mp member').2
      simp [same, same']
    have kept := List.sublist_mergeSort trans total level List.filter_sublist
    have kept := kept.filter (place · = here)
    rw [List.filter_filter] at kept
    simp only [Bool.and_self] at kept
    refine (kept.eq_of_length ?_).symm
    exact ((List.mergeSort_perm items _).filter _).length_eq.symm

theorem eq_of_filter_eq {first second : List α} (ascends : first.Pairwise (place · ≤ place ·))
    (ascends' : second.Pairwise (place · ≤ place ·))
    (same : ∀ here, first.filter (place · = here) = second.filter (place · = here)) :
    first = second := by
  have among {items others : List α} (shared : ∀ here,
      items.filter (place · = here) = others.filter (place · = here)) {item : α}
      (member : item ∈ items) : item ∈ others := by
    have kept : item ∈ items.filter (place · = place item) :=
      List.mem_filter.mpr ⟨member, by simp⟩
    rw [shared] at kept
    exact (List.mem_filter.mp kept).1
  induction first generalizing second with
  | nil =>
      cases second with
      | nil => rfl
      | cons other second => cases among (fun here => (same here).symm) List.mem_cons_self
  | cons item first ih =>
      cases second with
      | nil => cases among same List.mem_cons_self
      | cons other second =>
          obtain ⟨least, rest⟩ := List.pairwise_cons.mp ascends
          obtain ⟨least', rest'⟩ := List.pairwise_cons.mp ascends'
          -- Each list has the first item of the other, at a place no smaller than its own.
          have level : place item = place other := by
            apply Nat.le_antisymm
            · rcases List.mem_cons.mp (among (fun here => (same here).symm) List.mem_cons_self)
                with rfl | member
              · exact Nat.le_refl _
              · exact least other member
            · rcases List.mem_cons.mp (among same List.mem_cons_self) with rfl | member
              · exact Nat.le_refl _
              · exact least' item member
          have here := same (place item)
          simp only [level, List.filter_cons, decide_true, ↓reduceIte, List.cons.injEq] at here
          obtain ⟨rfl, -⟩ := here
          refine congrArg (item :: ·) (ih rest rest' fun there => ?_)
          have both := same there
          simp only [List.filter_cons] at both
          split at both
          · exact (List.cons.inj both).2
          · exact both

theorem filter_flatMap_range {items : Nat → List α} {count : Nat}
    (own : ∀ here, ∀ item ∈ items here, place item = here) (here : Nat) :
    ((List.range count).flatMap items).filter (place · = here) =
      if here < count then items here else [] := by
  induction count with
  | zero => rfl
  | succ count ih =>
      rw [List.range_succ, List.flatMap_append, List.filter_append, ih, List.flatMap_singleton]
      by_cases same : count = here
      · subst same
        have all : (items count).filter (place · = count) = items count := by
          rw [List.filter_eq_self]
          intro item member
          simp [own count item member]
        simp [all]
      · have foreign : (items count).filter (place · = here) = [] := by
          rw [List.filter_eq_nil_iff]
          intro item member
          simp [own count item member, same]
        have within : here < count + 1 ↔ here < count := by omega
        simp [foreign, within]

theorem pairwise_flatMap_range {items : Nat → List α}
    (own : ∀ here, ∀ item ∈ items here, place item = here) (count : Nat) :
    ((List.range count).flatMap items).Pairwise (place · ≤ place ·) := by
  rw [List.pairwise_flatMap]
  constructor
  · intro here _
    apply List.pairwise_of_forall_mem_list
    intro first member second member'
    rw [own here first member, own here second member']
  · refine List.pairwise_lt_range.imp fun {here there} before first member second member' => ?_
    rw [own here first member, own there second member']
    exact Nat.le_of_lt before

theorem mergeSort_flatMap {first second : Nat → List α}
    (own : ∀ here, ∀ item ∈ first here ++ second here, place item = here) (count : Nat) :
    ((List.range count).flatMap first ++ (List.range count).flatMap second).mergeSort
        (place · ≤ place ·) =
      (List.range count).flatMap fun here => first here ++ second here := by
  obtain ⟨ascends, kept⟩ := mergeSort_sorted place
    ((List.range count).flatMap first ++ (List.range count).flatMap second)
  refine eq_of_filter_eq ascends (pairwise_flatMap_range own count) fun here => ?_
  have own₁ (here : Nat) (item : α) (member : item ∈ first here) : place item = here :=
    own here item (List.mem_append_left _ member)
  have own₂ (here : Nat) (item : α) (member : item ∈ second here) : place item = here :=
    own here item (List.mem_append_right _ member)
  rw [kept, List.filter_append, filter_flatMap_range own₁, filter_flatMap_range own₂,
    filter_flatMap_range own]
  split <;> rfl

end Sorting

/-! ## Instruction by instruction -/

namespace Lint

def undefinedTarget (offset : Nat) (context label : String) : Issue :=
  ⟨.error, offset, context ++ " targets undefined label '" ++ label ++ "'"⟩

def unknownId (offset : Nat) (role id : String) : Issue :=
  ⟨.warning, offset, role ++ " '" ++ id ++ "' is not defined in resources"⟩

def raised (condition : Prop) [Decidable condition] (issue : Issue) : List Issue :=
  if condition then [issue] else []

/-- The issues of the instruction at an offset, told by the script and the table alone. -/
def issuesAt (script : Script) (table : Option AssetTable) (offset : Nat) : List Issue :=
  match script.get? offset with
  | some (.label id) =>
      (script.definitionBefore? id offset).toList.map (redefinition id offset)
  | some (.jump label) =>
      raised (.label label ∉ script.instructions) (undefinedTarget offset "jump" label)
  | some (.choice options) =>
      raised (options = []) ⟨.error, offset, "choice has no options"⟩ ++
        options.flatMap fun option => option.target.toList.flatMap fun label =>
          raised (.label label ∉ script.instructions)
            (undefinedTarget offset ("choice '" ++ option.text ++ "'") label)
  | some (.character id action state _ _) =>
      raised (action = .setState ∧ state = none)
          ⟨.error, offset, "setState for '" ++ id ++ "' has no state"⟩ ++
        table.toList.flatMap fun table =>
          raised (table.hasCharacter id = false) (unknownId offset "character" id)
  | some (.say speaker _) =>
      speaker.toList.flatMap fun id => table.toList.flatMap fun table =>
        raised (table.hasCharacter id = false) (unknownId offset "speaker" id)
  | some (.music action id _) =>
      raised (action = .play ∧ id = none) ⟨.error, offset, "bgm play has no id"⟩
  | some .unknown => [⟨.warning, offset, "unrecognized instruction kind will be skipped"⟩]
  | some (.background ..) | some (.wait _) | some .ending | none => []

variable {script : Script} {table : Option AssetTable}

theorem targetIssues_eq (offset : Nat) (context label : String) :
    targetIssues script.defines offset context label =
      raised (.label label ∉ script.instructions) (undefinedTarget offset context label) := by
  unfold targetIssues raised Script.defines
  by_cases defined : .label label ∈ script.instructions <;> simp [defined, undefinedTarget]

theorem unknownIdIssues_eq (offset : Nat) (role id : String) :
    unknownIdIssues table offset role id = table.toList.flatMap fun table =>
      raised (table.hasCharacter id = false) (unknownId offset role id) := by
  cases table with
  | none => rfl
  | some table =>
      simp only [unknownIdIssues, Option.toList_some, List.flatMap_singleton, raised]
      cases table.hasCharacter id <;> rfl

theorem optionIssues_eq (offset : Nat) (option : ChoiceOption) :
    optionIssues script.defines offset option = option.target.toList.flatMap fun label =>
      raised (.label label ∉ script.instructions)
        (undefinedTarget offset ("choice '" ++ option.text ++ "'") label) := by
  unfold optionIssues
  cases option.target with
  | none => rfl
  | some label =>
      simp only [Option.toList_some, List.flatMap_singleton]
      exact targetIssues_eq ..

def scannedAt (script : Script) (table : Option AssetTable) (offset : Nat) : List Issue :=
  (script.get? offset).toList.flatMap (instructionIssues script.defines table offset)

theorem issuesAt_eq (offset : Nat) :
    issuesAt script table offset =
      redefinitionsAt script offset ++ scannedAt script table offset := by
  unfold issuesAt redefinitionsAt scannedAt
  cases script.get? offset with
  | none => rfl
  | some instruction =>
      simp only [Option.toList_some, List.flatMap_singleton]
      cases instruction with
      | label id => exact (List.append_nil _).symm
      | jump label => exact (targetIssues_eq ..).symm
      | choice options =>
          simp only [instructionIssues, funext (optionIssues_eq offset), List.nil_append]
          cases options <;> rfl
      | character id action state side delay =>
          simp only [instructionIssues, unknownIdIssues_eq, Option.isNone_iff_eq_none]
          rfl
      | say speaker text =>
          cases speaker with
          | none => rfl
          | some id =>
              simp only [instructionIssues, unknownIdIssues_eq, Option.toList_some,
                List.flatMap_singleton, List.nil_append]
      | music action id looping =>
          cases action <;> cases id <;> rfl
      | _ => rfl

theorem scan_eq {offset : Nat} {instructions : List Instruction}
    (rest : instructions = script.instructions.drop offset) :
    scan script.defines table offset instructions =
      (List.range' offset instructions.length).flatMap (scannedAt script table) := by
  induction instructions generalizing offset with
  | nil => rfl
  | cons instruction instructions ih =>
      obtain ⟨here, following⟩ := Script.cons_eq_drop rest
      rw [scan, ih following, List.length_cons, List.range'_succ, List.flatMap_cons, scannedAt,
        here, Option.toList_some, List.flatMap_singleton]

theorem mem_raised {condition : Prop} [Decidable condition] {given issue : Issue} :
    issue ∈ raised condition given ↔ condition ∧ issue = given := by
  unfold raised
  split <;> simp_all

theorem offset_of_mem {offset : Nat} {issue : Issue}
    (member : issue ∈ issuesAt script table offset) : issue.offset = offset := by
  unfold issuesAt at member
  split at member
  · obtain ⟨previous, -, rfl⟩ := List.mem_map.mp member
    rfl
  · rw [(mem_raised.mp member).2]
    rfl
  · rcases List.mem_append.mp member with barren | stray
    · rw [(mem_raised.mp barren).2]
    · obtain ⟨option, -, stray⟩ := List.mem_flatMap.mp stray
      obtain ⟨label, -, stray⟩ := List.mem_flatMap.mp stray
      rw [(mem_raised.mp stray).2]
      rfl
  · rcases List.mem_append.mp member with stateless | unknown
    · rw [(mem_raised.mp stateless).2]
    · obtain ⟨table, -, unknown⟩ := List.mem_flatMap.mp unknown
      rw [(mem_raised.mp unknown).2]
      rfl
  · obtain ⟨id, -, unknown⟩ := List.mem_flatMap.mp member
    obtain ⟨table, -, unknown⟩ := List.mem_flatMap.mp unknown
    rw [(mem_raised.mp unknown).2]
    rfl
  · rw [(mem_raised.mp member).2]
  · rw [List.mem_singleton.mp member]
  all_goals cases member

theorem Report.foldl_add (issues : List Issue) (before : Report) :
    issues.foldl add before = ⟨before.issues ++ issues,
      before.errors + issues.countP (·.severity = .error),
      before.warnings + issues.countP (·.severity = .warning)⟩ := by
  induction issues generalizing before with
  | nil => simp
  | cons issue issues ih =>
      rw [List.foldl_cons, ih]
      simp only [add, List.append_assoc, List.singleton_append, List.countP_cons,
        decide_eq_true_eq, Nat.add_assoc, Nat.add_comm]

theorem Report.sorted_ofIssues (issues : List Issue) :
    let sorted := issues.mergeSort (·.offset ≤ ·.offset)
    (ofIssues issues).sorted = ⟨sorted, sorted.countP (·.severity = .error),
      sorted.countP (·.severity = .warning)⟩ := by
  intro sorted
  have counts (severity : Severity) :
      issues.countP (·.severity = severity) = sorted.countP (·.severity = severity) :=
    (List.mergeSort_perm issues _).symm.countP_eq _
  rw [ofIssues, foldl_add, counts, counts, empty, Nat.zero_add, Nat.zero_add]
  rfl

theorem report_eq (script : Script) (table : Option AssetTable) :
    let issues := (List.range script.length).flatMap (issuesAt script table)
    report script table = ⟨issues, issues.countP (·.severity = .error),
      issues.countP (·.severity = .warning)⟩ := by
  intro issues
  have redefined := (labelIssues_script script).2
  have scanned : scan script.defines table 0 script.instructions =
      (List.range script.length).flatMap (scannedAt script table) := by
    rw [List.range_eq_range']
    exact scan_eq rfl
  have merged : ((List.range script.length).flatMap (redefinitionsAt script) ++
      (List.range script.length).flatMap (scannedAt script table)).mergeSort
        (·.offset ≤ ·.offset) = issues := by
    have own (here : Nat) (issue : Issue)
        (member : issue ∈ redefinitionsAt script here ++ scannedAt script table here) :
        issue.offset = here := by
      rw [← issuesAt_eq] at member
      exact offset_of_mem member
    rw [mergeSort_flatMap own]
    simp only [← issuesAt_eq]
    rfl
  rw [← merged, ← redefined, ← scanned, ← labels_contains]
  exact Report.sorted_ofIssues _

/-- What the linter finds is what it would find going through the script once, from the first
instruction to the last. -/
theorem report_in_one_pass (script : Script) (table : Option AssetTable) :
    let issues := (List.range script.length).flatMap (issuesAt script table)
    report script table = ⟨issues, issues.countP (·.severity = .error),
        issues.countP (·.severity = .warning)⟩ ∧
      ((report script table).hasErrors ↔ ∃ issue ∈ issues, issue.severity = .error) := by
  intro issues
  refine ⟨report_eq script table, ?_⟩
  rw [report_eq, Report.hasErrors, decide_eq_true_iff, List.countP_pos_iff]
  simp only [decide_eq_true_eq, issues]

/-! ## Redefinitions -/

theorem split_at_last {α : Type} {mark : α} {first first' last last' : List α}
    (absent : mark ∉ last) (absent' : mark ∉ last')
    (same : first ++ mark :: last = first' ++ mark :: last') : first = first' ∧ last = last' := by
  rcases List.append_eq_append_iff.mp same with ⟨between, rfl, rest⟩ | ⟨between, rfl, rest⟩
  · cases between with
    | nil => exact ⟨(List.append_nil _).symm, (List.cons.inj rest).2⟩
    | cons item between =>
        obtain ⟨rfl, rfl⟩ := List.cons.inj rest
        simp at absent
  · cases between with
    | nil => exact ⟨List.append_nil _, (List.cons.inj rest).2.symm⟩
    | cons item between =>
        obtain ⟨rfl, rfl⟩ := List.cons.inj rest
        simp at absent'

theorem blank_not_mem_toDigits (number : Nat) : ' ' ∉ Nat.toDigits 10 number := fun member =>
  absurd (Nat.isDigit_of_mem_toDigits (by decide) (by decide) member) (by decide)

theorem redefinition_inj {label label' : String} {offset offset' previous previous' : Nat}
    (same : redefinition label offset previous = redefinition label' offset' previous') :
    label = label' ∧ offset = offset' ∧ previous = previous' := by
  obtain ⟨-, rfl, message⟩ := Issue.mk.inj same
  -- Whatever the label says, the last blank is the one before the number.
  have spelled (label : String) (previous : Nat) :
      ("label '" ++ label ++ "' already defined at offset " ++ toString previous).toList =
        ("label '" ++ label ++ "' already defined at offset").toList ++
          ' ' :: Nat.toDigits 10 previous := by
    simp
  have text := congrArg String.toList ((String.append_left_inj _).mp message)
  rw [spelled, spelled] at text
  obtain ⟨before, after⟩ :=
    split_at_last (blank_not_mem_toDigits previous) (blank_not_mem_toDigits previous') text
  rw [String.toList_inj, String.append_left_inj, String.append_right_inj] at before
  have number := congrArg (Nat.ofDigitChars 10 · 0) after
  simp only [Nat.ofDigitChars_ten_toDigits] at number
  exact ⟨before, rfl, number⟩

theorem redefinition_mem_issuesAt {label : String} {offset previous here : Nat}
    (member : redefinition label offset previous ∈ issuesAt script table here) :
    script.get? here = some (.label label) ∧
      script.definitionBefore? label here = some previous := by
  have begins {severity : Severity} {message : String}
      (same : redefinition label offset previous = ⟨severity, here, message⟩) :
      severity = .warning ∧ message.toList.head? = some 'l' := by
    obtain ⟨rfl, -, rfl⟩ := Issue.mk.inj same
    simp
  have notError {message : String} :
      redefinition label offset previous ≠ ⟨.error, here, message⟩ := fun same =>
    nomatch (begins same).1
  unfold issuesAt at member
  split at member
  · next found =>
      obtain ⟨previous', before, same⟩ := List.mem_map.mp member
      obtain ⟨rfl, -, rfl⟩ := redefinition_inj same
      exact ⟨found, Option.mem_toList.mp before⟩
  · exact absurd (mem_raised.mp member).2 notError
  · rcases List.mem_append.mp member with barren | stray
    · exact absurd (mem_raised.mp barren).2 notError
    · obtain ⟨option, -, stray⟩ := List.mem_flatMap.mp stray
      obtain ⟨target, -, stray⟩ := List.mem_flatMap.mp stray
      exact absurd (mem_raised.mp stray).2 notError
  · rcases List.mem_append.mp member with stateless | unknown
    · exact absurd (mem_raised.mp stateless).2 notError
    · obtain ⟨table, -, unknown⟩ := List.mem_flatMap.mp unknown
      have first := (begins (mem_raised.mp unknown).2).2
      simp at first
  · obtain ⟨id, -, unknown⟩ := List.mem_flatMap.mp member
    obtain ⟨table, -, unknown⟩ := List.mem_flatMap.mp unknown
    have first := (begins (mem_raised.mp unknown).2).2
    simp at first
  · exact absurd (mem_raised.mp member).2 notError
  · have first := (begins (List.mem_singleton.mp member)).2
    simp at first
  all_goals cases member

theorem redefinition_mem_iff {label : String} {offset previous : Nat} :
    redefinition label offset previous ∈ (report script table).issues ↔
      script.get? offset = some (.label label) ∧
        script.definitionBefore? label offset = some previous := by
  rw [report_eq, List.mem_flatMap]
  constructor
  · rintro ⟨here, -, member⟩
    obtain rfl : offset = here := offset_of_mem member
    exact redefinition_mem_issuesAt member
  · rintro ⟨here, before⟩
    refine ⟨offset, List.mem_range.mpr (Script.lt_length here), ?_⟩
    simp [issuesAt, here, before]

end Lint

end VisualNovel
