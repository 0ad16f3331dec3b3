import VisualNovel.Proofs.Linting
import Mathlib.Data.Finset.Card

/-!
Labels: where a script defines them. The targets of jumps and the linter each go through the
instructions once and keep what was seen last; both come to the last definition of every label.

Main statement: `ofScript_indexed`, for the targets of a script.
-/

namespace VisualNovel

def Instruction.definition? : Instruction → Option String
  | .label id => some id
  | _ => none

namespace Script

def definitions (script : Script) : List String :=
  script.instructions.filterMap Instruction.definition?

def definitionBefore? (script : Script) (label : String) (offset : Nat) : Option Nat :=
  (List.range offset).reverse.find? fun earlier => script.get? earlier = some (.label label)

variable {script : Script} {label : String} {offset : Nat}

theorem definitionBefore?_succ : script.definitionBefore? label (offset + 1) =
    if script.get? offset = some (.label label) then some offset
    else script.definitionBefore? label offset := by
  simp only [definitionBefore?, List.range_succ, List.reverse_append, List.reverse_singleton,
    List.singleton_append, List.find?_cons]
  split <;> simp_all

theorem definitionBefore?_eq_some_iff {previous : Nat} :
    script.definitionBefore? label offset = some previous ↔
      previous < offset ∧ script.get? previous = some (.label label) ∧
        ∀ between, previous < between → between < offset →
          script.get? between ≠ some (.label label) := by
  induction offset with
  | zero => simp [definitionBefore?]
  | succ offset ih =>
      rw [definitionBefore?_succ]
      split
      · next here =>
          constructor
          · rintro ⟨⟩
            exact ⟨Nat.lt_succ_self _, here, fun between after before => by omega⟩
          · rintro ⟨within, -, last⟩
            by_contra differs
            have before : previous < offset := by grind
            exact last offset before (Nat.lt_succ_self _) here
      · next elsewhere =>
          rw [ih]
          constructor
          · rintro ⟨before, found, last⟩
            refine ⟨Nat.lt_succ_of_lt before, found, fun between after within => ?_⟩
            rcases Nat.lt_succ_iff_lt_or_eq.mp within with within | rfl
            · exact last between after within
            · exact elsewhere
          · rintro ⟨within, found, last⟩
            have before : previous < offset :=
              (Nat.lt_succ_iff_lt_or_eq.mp within).resolve_right fun same =>
                elsewhere (same ▸ found)
            exact ⟨before, found, fun between after within =>
              last between after (Nat.lt_succ_of_lt within)⟩

theorem isSome_definitionBefore? {earlier : Nat} (before : earlier < offset)
    (found : script.get? earlier = some (.label label)) :
    (script.definitionBefore? label offset).isSome := by
  rw [definitionBefore?, List.find?_isSome]
  exact ⟨earlier, by simpa using before, by simpa using found⟩

/-- A label is defined at an offset, and nowhere after it. -/
def DefinedLast (script : Script) (label : String) (offset : Nat) : Prop :=
  script.get? offset = some (.label label) ∧
    ∀ later, offset < later → script.get? later ≠ some (.label label)

theorem definedLast_iff :
    script.DefinedLast label offset ↔
      script.definitionBefore? label script.length = some offset := by
  rw [definitionBefore?_eq_some_iff]
  constructor
  · rintro ⟨here, last⟩
    exact ⟨lt_length here, here, fun later after _ => last later after⟩
  · rintro ⟨-, here, last⟩
    exact ⟨here, fun later after found => last later after (lt_length found) found⟩

theorem cons_eq_drop {instruction : Instruction} {rest : List Instruction}
    (here : instruction :: rest = script.instructions.drop offset) :
    script.get? offset = some instruction ∧ rest = script.instructions.drop (offset + 1) := by
  constructor
  · have found := congrArg List.head? here
    rw [List.head?_drop] at found
    exact found.symm
  · rw [← List.tail_drop, ← here]
    rfl

end Script

namespace Lint

def redefinition (label : String) (offset previous : Nat) : Issue :=
  ⟨.warning, offset, "label '" ++ label ++ "' already defined at offset " ++ toString previous
    ++ "; this one wins"⟩

def redefinitionsAt (script : Script) (offset : Nat) : List Issue :=
  match script.get? offset with
  | some (.label id) =>
      (script.definitionBefore? id offset).toList.map (redefinition id offset)
  | _ => []

/-- Of each label the last definition before an offset has been seen. -/
def Seen (script : Script) (offset : Nat) (seen : Dict Nat) : Prop :=
  ∀ label, seen.get? label = script.definitionBefore? label offset

variable {script : Script} {offset : Nat} {seen : Dict Nat}

theorem Seen.label {id : String} (known : Seen script offset seen)
    (here : script.get? offset = some (.label id)) :
    Seen script (offset + 1) (seen.insert id offset) := by
  intro label
  rw [Dict.get?_insert, known label, Script.definitionBefore?_succ, here]
  simp only [Option.some.injEq, Instruction.label.injEq, eq_comm]

theorem Seen.other {instruction : Instruction} (known : Seen script offset seen)
    (here : script.get? offset = some instruction) (other : instruction.definition? = none) :
    Seen script (offset + 1) seen := by
  intro label
  have differs : script.get? offset ≠ some (.label label) := by
    rintro found
    cases here.symm.trans found
    cases other
  rw [known label, Script.definitionBefore?_succ, if_neg differs]

theorem labelIssues_eq {instructions : List Instruction} (known : Seen script offset seen)
    (rest : instructions = script.instructions.drop offset) :
    Seen script (offset + instructions.length) (labelIssues seen offset instructions).1 ∧
      (labelIssues seen offset instructions).2 =
        (List.range' offset instructions.length).flatMap (redefinitionsAt script) := by
  induction instructions generalizing seen offset with
  | nil => exact ⟨known, rfl⟩
  | cons instruction instructions ih =>
      obtain ⟨here, following⟩ := Script.cons_eq_drop rest
      rw [List.length_cons, List.range'_succ, List.flatMap_cons, Nat.add_comm _ 1,
        ← Nat.add_assoc]
      cases instruction with
      | label id =>
          obtain ⟨final, later⟩ := ih (known.label here) following
          rw [labelIssues_label]
          refine ⟨final, ?_⟩
          rw [← later]
          simp only [labelIssues, redefinitionsAt, here, ← known id]
          cases seen.get? id <;> rfl
      | _ =>
          obtain ⟨final, later⟩ := ih (known.other here rfl) following
          refine ⟨final, ?_⟩
          rw [← later]
          simp only [labelIssues, redefinitionsAt, here]
          rfl

theorem seen_nothing (script : Script) : Seen script 0 .empty :=
  fun _ => rfl

theorem labelIssues_script (script : Script) :
    Seen script script.length (labelIssues .empty 0 script.instructions).1 ∧
      (labelIssues .empty 0 script.instructions).2 =
        (List.range script.length).flatMap (redefinitionsAt script) := by
  have complete := labelIssues_eq (seen_nothing script) List.drop_zero.symm
  rwa [Nat.zero_add, ← List.range_eq_range'] at complete

end Lint

namespace Targets

variable {script : Script} {label : String}

theorem resolve_eq_definition : (ofScript script).resolve label =
    (script.definitionBefore? label script.length).map (· + 1) := by
  have found := congrArg (·.get? label) (Lint.labelIssues_targets script.instructions .empty 0)
  simp only [Dict.get?_map, (Lint.labelIssues_script script).1 label] at found
  exact found.symm

theorem resolve_eq_some_iff {target : Nat} : (ofScript script).resolve label = some target ↔
    1 ≤ target ∧ script.DefinedLast label (target - 1) := by
  rw [resolve_eq_definition, Script.definedLast_iff, Option.map_eq_some_iff]
  constructor
  · rintro ⟨offset, last, rfl⟩
    exact ⟨Nat.le_add_left 1 offset, last⟩
  · rintro ⟨positive, last⟩
    exact ⟨target - 1, last, Nat.sub_add_cancel positive⟩

theorem contains_iff : (ofScript script).contains label ↔ label ∈ script.definitions := by
  show ((ofScript script).resolve label).isSome = true ↔ _
  rw [isSome_resolve_ofScript, Script.defines, decide_eq_true_iff, Script.definitions,
    List.mem_filterMap]
  constructor
  · exact fun member => ⟨_, member, rfl⟩
  · rintro ⟨instruction, member, defined⟩
    cases instruction with
    | label id =>
        cases defined
        exact member
    | _ => cases defined

theorem size_ofScript (script : Script) :
    (ofScript script).size = script.definitions.toFinset.card := by
  have keys : (ofScript script).keys.toFinset = script.definitions.toFinset := by
    ext label
    rw [List.mem_toFinset, List.mem_toFinset, ← Dict.contains_iff, contains_iff]
  have apart : (ofScript script).keys.Nodup := nodup_of_ascending (ofScript script).ascending
  rw [← keys, List.toFinset_card_of_nodup apart]
  exact (List.length_map Prod.fst).symm

theorem length_enter (targets : Targets) (offset : Nat) (instructions : List Instruction) :
    (enter targets offset instructions).2.length + (enter targets offset instructions).1.size =
      targets.size + (instructions.filterMap Instruction.definition?).length := by
  -- Each definition is entered anew or takes the place of an earlier one.
  induction instructions generalizing targets offset with
  | nil => simp [enter]
  | cons instruction instructions ih =>
      cases instruction with
      | label id =>
          have entered := ih (targets.insert id (offset + 1)) (offset + 1)
          rw [Dict.size_insert, Dict.contains] at entered
          simp only [enter, List.filterMap_cons, Instruction.definition?, List.length_cons]
          cases known : targets.get? id with
          | none =>
              simp only [known, Option.isSome_none, Bool.false_eq_true, ↓reduceIte] at entered ⊢
              omega
          | some previous =>
              simp only [known, Option.isSome_some, ↓reduceIte, List.length_cons] at entered ⊢
              omega
      | _ => exact ih targets (offset + 1)

/-- What the targets of a script are, and how often one has been replaced. -/
structure Indexed (script : Script) (targets : Targets) (replaced : List Redefinition) :
    Prop where
  resolved : ∀ label target, targets.resolve label = some target ↔
    1 ≤ target ∧ script.DefinedLast label (target - 1)
  missing : ∀ label, targets.resolve label = none ↔ .label label ∉ script.instructions
  inside : ∀ label target, targets.resolve label = some target →
    1 ≤ target ∧ target ≤ script.length
  size : targets.size = script.definitions.toFinset.card
  replaced : replaced.length + targets.size = script.definitions.length
  linted : targets.contains = (Lint.labelIssues .empty 0 script.instructions).1.contains

theorem ofScript_indexed (script : Script) :
    Indexed script (ofScript script) (redefinitions script) where
  resolved _ _ := resolve_eq_some_iff
  missing label := by
    rw [resolve_ofScript_eq_none_iff, Script.defines, decide_eq_false_iff_not]
  inside label target resolved :=
    ⟨(resolve_eq_some_iff.mp resolved).1, resolve_ofScript_le resolved⟩
  size := size_ofScript script
  replaced := (length_enter .empty 0 script.instructions).trans (Nat.zero_add _)
  linted := by
    rw [Lint.labels_contains]
    exact funext (isSome_resolve_ofScript script)

end Targets

end VisualNovel
