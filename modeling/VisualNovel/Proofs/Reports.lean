import VisualNovel.Proofs.Moves
import VisualNovel.Proofs.Restoring

namespace VisualNovel

namespace Event

def problem? : Event → Option Diagnostic
  | note (.problem diagnostic) => some diagnostic
  | _ => none

theorem mem_problems_iff {diagnostic : Diagnostic} {events : List Event} :
    diagnostic ∈ events.filterMap problem? ↔ .note (.problem diagnostic) ∈ events := by
  rw [List.mem_filterMap]
  constructor
  · rintro ⟨event, member, problem⟩
    unfold problem? at problem
    split at problem
    · cases problem
      exact member
    · cases problem
  · exact fun member => ⟨_, member, rfl⟩

def Within (allowed : Diagnostic → Prop) : Event → Prop
  | note (.problem diagnostic) => allowed diagnostic
  | note (.executing ..) => False
  | _ => True

theorem Within.mono {allowed allowed' : Diagnostic → Prop} {event : Event}
    (within : event.Within allowed)
    (weaker : ∀ diagnostic, allowed diagnostic → allowed' diagnostic) :
    event.Within allowed' := by
  cases event with
  | cue cue => trivial
  | note noted =>
      cases noted with
      | problem diagnostic => exact weaker _ within
      | executing offset kind => exact within
      | _ => trivial

end Event

theorem Note.within_of_isQuiet {noted : Note} (quiet : noted.isQuiet)
    (allowed : Diagnostic → Prop) :
    (Event.note noted).problem? = none ∧ (Event.note noted).Within allowed := by
  cases noted with
  | executing offset kind => cases quiet
  | choiceSelected index text => cases quiet
  | problem diagnostic => cases quiet
  | _ => exact ⟨rfl, trivial⟩

namespace Interpreter

structure Added (events : List Event) (before after : Interpreter) : Prop where
  script : after.script = before.script
  targets : after.targets = before.targets
  history : after.history.toList = before.history.toList ++ events
  diagnostics : after.diagnostics = before.diagnostics ++ events.filterMap Event.problem?

namespace Added

theorem nothing {before after : Interpreter} (script : after.script = before.script)
    (targets : after.targets = before.targets) (history : after.history = before.history)
    (diagnostics : after.diagnostics = before.diagnostics) : Added [] before after :=
  ⟨script, targets, by simp [history], by simp [diagnostics]⟩

theorem trans {first second third : Interpreter} {earlier later : List Event}
    (before : Added earlier first second) (after : Added later second third) :
    Added (earlier ++ later) first third where
  script := after.script.trans before.script
  targets := after.targets.trans before.targets
  history := by rw [after.history, before.history, List.append_assoc]
  diagnostics := by
    rw [after.diagnostics, before.diagnostics, List.filterMap_append, List.append_assoc]

theorem give (cue : Cue) (interpreter : Interpreter) :
    Added [.cue cue] interpreter (interpreter.give cue) :=
  ⟨rfl, rfl, Array.toList_push, (List.append_nil _).symm⟩

theorem note {noted : Note} (harmless : (Event.note noted).problem? = none)
    (interpreter : Interpreter) : Added [.note noted] interpreter (interpreter.note noted) := by
  refine ⟨rfl, rfl, Array.toList_push, ?_⟩
  simp [harmless]

theorem report (diagnostic : Diagnostic) (interpreter : Interpreter) :
    Added [.note (.problem diagnostic)] interpreter (interpreter.report diagnostic) :=
  ⟨rfl, rfl, Array.toList_push, rfl⟩

theorem settle {events : List Event} {before staged : Interpreter}
    (added : Added events before staged) (time : Nat) :
    Added events before (staged.settle time).2 := by
  have settles : Added [] staged (staged.settle time).2 := .nothing rfl rfl rfl rfl
  have both := added.trans settles
  rwa [List.append_nil] at both

end Added

/-- No instruction is executed from `before` to `after`, and what is reported is allowed. -/
def Reports (allowed : Diagnostic → Prop) (before after : Interpreter) : Prop :=
  ∃ events, Added events before after ∧ ∀ event ∈ events, event.Within allowed

namespace Reports

variable {allowed : Diagnostic → Prop}

theorem nothing {before after : Interpreter} (script : after.script = before.script)
    (targets : after.targets = before.targets) (history : after.history = before.history)
    (diagnostics : after.diagnostics = before.diagnostics) : Reports allowed before after :=
  ⟨[], .nothing script targets history diagnostics, nofun⟩

theorem refl (interpreter : Interpreter) : Reports allowed interpreter interpreter :=
  .nothing rfl rfl rfl rfl

theorem trans {first second third : Interpreter} (before : Reports allowed first second)
    (after : Reports allowed second third) : Reports allowed first third := by
  obtain ⟨earlier, added, within⟩ := before
  obtain ⟨later, added', within'⟩ := after
  refine ⟨earlier ++ later, added.trans added', fun event member => ?_⟩
  exact (List.mem_append.mp member).elim (within event) (within' event)

theorem mono {allowed' : Diagnostic → Prop} {before after : Interpreter}
    (reports : Reports allowed before after)
    (weaker : ∀ diagnostic, allowed diagnostic → allowed' diagnostic) :
    Reports allowed' before after := by
  obtain ⟨events, added, within⟩ := reports
  exact ⟨events, added, fun event member => (within event member).mono weaker⟩

theorem single {event : Event} {before after : Interpreter} (added : Added [event] before after)
    (within : event.Within allowed) : Reports allowed before after := by
  refine ⟨[event], added, fun other member => ?_⟩
  rw [List.mem_singleton.mp member]
  exact within

end Reports

section Effects

variable {allowed : Diagnostic → Prop} {before after : Interpreter}

theorem Cued.reports (cued : Cued allowed before after) : Reports allowed before after := by
  induction cued with
  | refl interpreter => exact .refl _
  | trans _ _ first second => exact first.trans second
  | give cue interpreter => exact .single (.give _ _) trivial
  | note quiet interpreter =>
      obtain ⟨harmless, within⟩ := Note.within_of_isQuiet quiet allowed
      exact .single (.note harmless _) within
  | report permitted interpreter => exact .single (.report _ _) permitted

theorem Effects.reports (effects : Effects allowed before after) :
    Reports allowed before after := by
  induction effects with
  | cued cued => exact cued.reports
  | scene scene interpreter => exact .nothing rfl rfl rfl rfl
  | trans _ _ first second => exact first.trans second

theorem Cued.updates {updated : Interpreter} (cued : Cued allowed before after)
    (script : updated.script = after.script) (targets : updated.targets = after.targets)
    (history : updated.history = after.history)
    (diagnostics : updated.diagnostics = after.diagnostics) : Reports allowed before updated :=
  cued.reports.trans (.nothing script targets history diagnostics)

end Effects

section Instructions

variable (stage : Stage) (offset : Nat) (interpreter : Interpreter)

theorem jump_reports {allowed : Diagnostic → Prop} (label : String)
    (unknown : interpreter.targets.resolve label = none → allowed (.unknownLabel label offset)) :
    Reports allowed interpreter (interpreter.jump offset label) := by
  unfold jump
  split
  · exact (Cued.note rfl _).updates rfl rfl rfl rfl
  · next unresolved => exact (Cued.report (unknown unresolved) _).reports

theorem execute_reports (instruction : Instruction) :
    Reports (instruction.MayReport stage.table interpreter.targets offset) interpreter
      (interpreter.execute stage offset instruction).2 := by
  have settled (settles : instruction.settles) :
      Reports (instruction.MayReport stage.table interpreter.targets offset) interpreter
        (interpreter.execute stage offset instruction).2 := by
    obtain ⟨staged, time, outcome, effects⟩ :=
      settles_effects interpreter stage interpreter.targets offset settles
    rw [outcome]
    exact effects.reports.trans (.nothing rfl rfl rfl rfl)
  cases instruction with
  | label id => exact (Cued.note rfl _).reports
  | say speaker text => exact (Cued.give _ _).updates rfl rfl rfl rfl
  | choice options =>
      cases options with
      | nil => exact (Cued.report (.fault rfl) _).reports
      | cons option options =>
          exact ((Cued.note rfl _).trans (.give _ _)).updates rfl rfl rfl rfl
  | jump label =>
      refine jump_reports offset interpreter label fun unresolved => .fault ?_
      simp [Instruction.fault?, unresolved]
  | ending =>
      exact ((Cued.note rfl _).trans <| (Cued.give _ _).trans <|
        (Cued.give _ _).trans (.give _ _)).updates rfl rfl rfl rfl
  | unknown => exact (Cued.report (.fault rfl) _).reports
  | _ => exact settled rfl

theorem execute_faulty {instruction : Instruction} {fault : Diagnostic}
    (faulty : instruction.fault? interpreter.targets offset = some fault) :
    Added [.note (.problem fault)] interpreter
      (interpreter.execute stage offset instruction).2 := by
  unfold Instruction.fault? at faulty
  split at faulty
  · next label =>
      split at faulty
      · cases faulty
      · next undefined =>
          cases faulty
          rw [Option.not_isSome_iff_eq_none] at undefined
          simp only [execute, jump, undefined]
          exact .report _ _
  · cases faulty
    exact .report _ _
  · cases faulty
    exact (Added.report _ _).settle _
  · cases faulty
    exact (Added.report _ _).settle _
  · cases faulty
    exact .report _ _
  · cases faulty

end Instructions

theorem tell_reports {allowed : Diagnostic → Prop} (text : String) (reveal : Reveal Nat)
    (interpreter : Interpreter) : Reports allowed interpreter (interpreter.tell text reveal) :=
  (Cued.give _ _).updates rfl rfl rfl rfl

theorem goWhereItLeads_unknown {interpreter : Interpreter} {option : ChoiceOption}
    {label : String} (offset : Nat) (leads : option.target = some label)
    (unresolved : interpreter.targets.resolve label = none) :
    interpreter.goWhereItLeads offset option = interpreter.report (.unknownLabel label offset) := by
  simp only [goWhereItLeads, leads, jump, unresolved]

theorem putBack_reports {allowed : Diagnostic → Prop} (script : Script) (save : SavePoint)
    (interpreter : Interpreter) :
    Reports allowed (interpreter.reset script) (interpreter.putBack script save) := by
  let placed : Interpreter :=
    { interpreter.reset script with
      pc := save.pc
      phase := save.phase
      scene := save.scene
      choiceAt := save.choiceAt }
  have places : Reports allowed (interpreter.reset script) placed := .nothing rfl rfl rfl rfl
  exact places.trans (Cued.note rfl placed).reports

end Interpreter

end VisualNovel
