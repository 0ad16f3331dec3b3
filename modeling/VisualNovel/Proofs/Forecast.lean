import VisualNovel.Proofs.Linting
import VisualNovel.Proofs.Reports

namespace VisualNovel

structure Foretold (script : Script) (allowed : Diagnostic → Prop) (events : List Event) :
    Prop where
  reported : ∀ diagnostic, .note (.problem diagnostic) ∈ events → allowed diagnostic
  prompt : ∀ {index offset kind fault}, events[index]? = some (.note (.executing offset kind)) →
    script.fault? offset = some fault → events[index + 1]? = some (.note (.problem fault))

namespace Foretold

variable {script : Script} {allowed : Diagnostic → Prop}

theorem of_within {events : List Event} (within : ∀ event ∈ events, event.Within allowed) :
    Foretold script allowed events where
  reported _ member := within _ member
  prompt executing _ := (within _ (List.mem_of_getElem? executing)).elim

theorem append {earlier later : List Event} (before : Foretold script allowed earlier)
    (after : Foretold script allowed later) : Foretold script allowed (earlier ++ later) where
  reported diagnostic member :=
    (List.mem_append.mp member).elim (before.reported diagnostic) (after.reported diagnostic)
  prompt {index _ _ _} executing faulty := by
    rcases Nat.lt_or_ge index earlier.length with first | second
    · rw [List.getElem?_append_left first] at executing
      have follows := before.prompt executing faulty
      rw [List.getElem?_append_left (List.getElem?_eq_some_iff.mp follows).1]
      exact follows
    · rw [List.getElem?_append_right second] at executing
      rw [List.getElem?_append_right (Nat.le_succ_of_le second), Nat.succ_sub second]
      exact after.prompt executing faulty

theorem executing {offset : Nat} {kind : String} {events : List Event}
    (foretold : Foretold script allowed events)
    (follows : ∀ fault, script.fault? offset = some fault →
      events[0]? = some (.note (.problem fault))) :
    Foretold script allowed (.note (.executing offset kind) :: events) where
  reported diagnostic member := by
    rcases List.mem_cons.mp member with same | member
    · cases same
    · exact foretold.reported diagnostic member
  prompt {index _ _ _} executing faulty := by
    cases index with
    | zero =>
        cases executing
        exact follows _ faulty
    | succ index => exact foretold.prompt executing faulty

end Foretold

namespace Interpreter

def Announced (stage : Stage) (script : Script) (diagnostic : Diagnostic) : Prop :=
  diagnostic.AnnouncedBy (Lint.report script (some stage.table)).issues script

structure Performs (script : Script) (interpreter : Interpreter) : Prop where
  targets : interpreter.targets = .ofScript script
  script : interpreter.script = script

def Proceeds (stage : Stage) (script : Script) (before after : Interpreter) : Prop :=
  ∃ events, Added events before after ∧ Foretold script (Announced stage script) events

theorem Reports.proceeds {stage : Stage} {script : Script} {before after : Interpreter}
    (reports : Reports (Announced stage script) before after) :
    Proceeds stage script before after := by
  obtain ⟨events, added, within⟩ := reports
  exact ⟨events, added, .of_within within⟩

namespace Proceeds

variable {stage : Stage} {script : Script}

theorem trans {first second third : Interpreter} (before : Proceeds stage script first second)
    (after : Proceeds stage script second third) : Proceeds stage script first third := by
  obtain ⟨earlier, added, foretold⟩ := before
  obtain ⟨later, added', foretold'⟩ := after
  exact ⟨earlier ++ later, added.trans added', foretold.append foretold'⟩

theorem performs {before after : Interpreter} (proceeds : Proceeds stage script before after)
    (performs : Performs script before) : Performs script after := by
  obtain ⟨events, added, -⟩ := proceeds
  exact ⟨added.targets.trans performs.targets, added.script.trans performs.script⟩

end Proceeds

namespace Performs

variable {stage : Stage} {script : Script} {interpreter : Interpreter}
  (performs : Performs script interpreter)
include performs

theorem execute {instruction : Instruction}
    (found : interpreter.script.get? interpreter.pc = some instruction) :
    Proceeds stage script interpreter
      ((interpreter.fetch instruction).execute stage interpreter.pc instruction).2 := by
  let fetched := interpreter.fetch instruction
  have fetches : Added [.note (.executing interpreter.pc instruction.kind)] interpreter fetched :=
    ⟨rfl, rfl, Array.toList_push, (List.append_nil _).symm⟩
  have targets : fetched.targets = .ofScript script := performs.targets
  rw [performs.script] at found
  have fault_eq : script.fault? interpreter.pc =
      instruction.fault? (.ofScript script) interpreter.pc := by
    rw [Script.fault?, found, Option.bind_some]
  cases outcome : instruction.fault? (.ofScript script) interpreter.pc with
  | some fault =>
      have reports := execute_faulty stage interpreter.pc fetched (targets ▸ outcome)
      refine ⟨_, fetches.trans reports, .executing (.of_within fun event member => ?_) ?_⟩
      · rw [List.mem_singleton.mp member]
        exact Lint.fault_announced _ found outcome
      · intro other faulty
        rw [fault_eq, outcome] at faulty
        cases faulty
        rfl
  | none =>
      obtain ⟨events, added, within⟩ := execute_reports stage interpreter.pc fetched instruction
      rw [targets] at within
      refine ⟨_, fetches.trans added, .executing (.of_within fun event member => ?_) ?_⟩
      · exact (within event member).mono fun _ => Lint.announced found
      · intro other faulty
        rw [fault_eq, outcome] at faulty
        cases faulty

theorem runUntilSuspended :
    Proceeds stage script interpreter (interpreter.runUntilSuspended stage).2 := by
  apply runUntilSuspended_rule (Proceeds stage script interpreter)
    (fun _ next => Proceeds stage script interpreter next) interpreter (Reports.refl _).proceeds
  · intro next instruction flow after proceeds found outcome
    have executed : Proceeds stage script next _ := (proceeds.performs performs).execute found
    rw [outcome] at executed
    cases flow with
    | onward => exact proceeds.trans executed
    | yield step => exact proceeds.trans executed
  · intro next proceeds missing
    exact proceeds.trans (Reports.proceeds ((Cued.note rfl _).updates rfl rfl rfl rfl))
  · intro offset next proceeds
    exact proceeds.trans (Reports.proceeds ((Cued.report trivial _).updates rfl rfl rfl rfl))

theorem resumes {next : Interpreter}
    (reports : Reports (Announced stage script) interpreter next) :
    Proceeds stage script interpreter (next.runUntilSuspended stage).2 :=
  reports.proceeds.trans (reports.proceeds.performs performs).runUntilSuspended

theorem chosen {offset : Nat} {options : List ChoiceOption} {option : ChoiceOption}
    (found : script.get? offset = some (.choice options)) (offered : option ∈ options) :
    Reports (Announced stage script) interpreter (interpreter.chosen offset option) := by
  have signals : Reports (Announced stage script) interpreter (interpreter.passSignal option) :=
    (passSignal_cued option interpreter).reports
  have leads : Reports (Announced stage script) (interpreter.passSignal option)
      ((interpreter.passSignal option).goWhereItLeads offset option) := by
    unfold goWhereItLeads
    split
    · next label leads =>
        refine jump_reports offset _ label fun unresolved => ?_
        rw [(signals.proceeds.performs performs).targets] at unresolved
        have undefined := Targets.resolve_ofScript_eq_none_iff.mp unresolved
        exact Lint.option_announced _ found offered leads undefined
    · exact .refl _
  exact signals.trans (leads.trans ((Cued.give _ _).updates rfl rfl rfl rfl))

theorem ready {move : Move Wake} {ready : Interpreter} (resumes : Resumes interpreter move ready) :
    Reports (Announced stage script) interpreter ready := by
  cases resumes with
  | advance awaiting => exact .nothing rfl rfl rfl rfl
  | @select index offset options option awaiting asked found selected =>
      have noted : Performs script (interpreter.note (.choiceSelected index option.text)) :=
        ⟨performs.targets, performs.script⟩
      rw [performs.script] at found
      have notes : Reports (Announced stage script) interpreter
          (interpreter.note (.choiceSelected index option.text)) := .single (.note rfl _) trivial
      exact notes.trans (noted.chosen found (List.mem_of_getElem? selected))
  | settle running settling => exact .nothing rfl rfl rfl rfl
  | complete running ticked choice =>
      exact (tell_reports ..).trans (Cued.note rfl _).reports

theorem makeMove (move : Move Wake) :
    Proceeds stage script interpreter (interpreter.makeMove stage move).2 := by
  rcases outcome : interpreter.makeMove stage move with ⟨answer, after⟩
  cases moved_of_eq outcome with
  | ignored unchanged => exact (unchanged.cued _).reports.proceeds
  | refused awaiting => exact (Cued.note rfl _).reports.proceeds
  | resumed resumes => exact performs.resumes (performs.ready resumes)
  | revealing running ticked => exact (tell_reports ..).proceeds
  | revealed running ticked apart unchanged =>
      exact Reports.proceeds ((tell_reports ..).trans
        ((unchanged.cued _).updates rfl rfl rfl rfl))
  | stopped running => exact Reports.proceeds ((Cued.note rfl _).updates rfl rfl rfl rfl)
  | rested resting => exact (Reports.refl _).proceeds

end Performs

/-- A run of `script`, begun when the interpreter was `earlier`, and the diagnostics that the host
has collected in it. -/
inductive RunOf (stage : Stage) (script : Script) (earlier : Interpreter) :
    List Diagnostic → Interpreter → Prop where
  | start : RunOf stage script earlier [] (earlier.start stage script).2
  | restore {save : SavePoint} {step : Step} {restored : Interpreter} :
      earlier.restore stage script save = (.ok step, restored) →
      RunOf stage script earlier [] restored
  | move {collected : List Diagnostic} {interpreter : Interpreter} (move : Move Wake) :
      RunOf stage script earlier collected interpreter →
      RunOf stage script earlier collected (interpreter.makeMove stage move).2
  | collect {collected : List Diagnostic} {interpreter : Interpreter} :
      RunOf stage script earlier collected interpreter →
      RunOf stage script earlier (collected ++ interpreter.takeDiagnostics.1)
        interpreter.takeDiagnostics.2

def eventsSince (interpreter earlier : Interpreter) : List Event :=
  interpreter.history.toList.drop earlier.history.size

def reportedSince (interpreter earlier : Interpreter) : List Diagnostic :=
  (interpreter.eventsSince earlier).filterMap Event.problem?

theorem eventsSince_eq {earlier interpreter : Interpreter} {events : List Event}
    (history : interpreter.history.toList = earlier.history.toList ++ events) :
    interpreter.eventsSince earlier = events := by
  rw [eventsSince, history]
  exact List.drop_left

theorem reset_history (script : Script) (earlier : Interpreter) :
    (earlier.reset script).history.toList = earlier.history.toList ++
      (Targets.redefinitions script).map fun redefinition =>
        Event.note (.redefined redefinition) := by
  simp [reset]

structure Unfolds (stage : Stage) (script : Script) (earlier : Interpreter)
    (collected : List Diagnostic) (interpreter : Interpreter) : Prop where
  performs : Performs script interpreter
  history : interpreter.history.toList =
    earlier.history.toList ++ interpreter.eventsSince earlier
  foretold : Foretold script (Announced stage script) (interpreter.eventsSince earlier)
  diagnostics : collected ++ interpreter.diagnostics = interpreter.reportedSince earlier

namespace Unfolds

variable {stage : Stage} {script : Script} {earlier interpreter : Interpreter}
  {collected : List Diagnostic}

theorem reset (stage : Stage) (script : Script) (earlier : Interpreter) :
    Unfolds stage script earlier [] (earlier.reset script) := by
  have history := reset_history script earlier
  refine ⟨⟨rfl, rfl⟩, ?_, ?_, ?_⟩
  · rw [eventsSince_eq history, history]
  · rw [eventsSince_eq history]
    refine .of_within fun event member => ?_
    obtain ⟨redefinition, -, rfl⟩ := List.mem_map.mp member
    trivial
  · rw [reportedSince, eventsSince_eq history, List.filterMap_map]
    exact (List.filterMap_eq_nil_iff.mpr fun _ _ => rfl).symm

theorem proceeds {after : Interpreter}
    (unfolds : Unfolds stage script earlier collected interpreter)
    (proceeds : Proceeds stage script interpreter after) :
    Unfolds stage script earlier collected after := by
  have performs := proceeds.performs unfolds.performs
  obtain ⟨events, added, foretold⟩ := proceeds
  have history : after.history.toList =
      earlier.history.toList ++ (interpreter.eventsSince earlier ++ events) := by
    rw [added.history, ← List.append_assoc, ← unfolds.history]
  refine ⟨performs, ?_, ?_, ?_⟩
  · rw [eventsSince_eq history, history]
  · rw [eventsSince_eq history]
    exact unfolds.foretold.append foretold
  · rw [reportedSince, eventsSince_eq history, List.filterMap_append, added.diagnostics,
      ← List.append_assoc, unfolds.diagnostics]
    rfl

theorem collect (unfolds : Unfolds stage script earlier collected interpreter) :
    Unfolds stage script earlier (collected ++ interpreter.takeDiagnostics.1)
      interpreter.takeDiagnostics.2 where
  performs := ⟨unfolds.performs.targets, unfolds.performs.script⟩
  history := unfolds.history
  foretold := unfolds.foretold
  diagnostics := (List.append_nil _).trans unfolds.diagnostics

end Unfolds

theorem RunOf.unfolds {stage : Stage} {script : Script} {earlier interpreter : Interpreter}
    {collected : List Diagnostic} (run : RunOf stage script earlier collected interpreter) :
    Unfolds stage script earlier collected interpreter := by
  have begun := Unfolds.reset stage script earlier
  induction run with
  | start =>
      refine begun.proceeds (begun.performs.resumes ?_)
      exact (Cued.note rfl _).updates rfl rfl rfl rfl
  | restore accepted =>
      obtain ⟨-, rfl⟩ := (restore_ok_iff earlier).mp accepted
      refine begun.proceeds (Reports.proceeds ?_)
      refine (putBack_reports ..).trans ((replay_cued _ stage).reports.mono ?_)
      rintro _ ⟨asset, reason⟩
      trivial
  | move move _ unfolds => exact unfolds.proceeds (unfolds.performs.makeMove move)
  | collect _ unfolds => exact unfolds.collect

/-- What the linter finds in a script is what a run of it reports, whether the diagnostics have been
collected or not. -/
structure Foreseen (stage : Stage) (script : Script) (issues : List Lint.Issue)
    (earlier : Interpreter) (collected : List Diagnostic) (interpreter : Interpreter) : Prop where
  diagnostics : collected ++ interpreter.diagnostics = interpreter.reportedSince earlier
  announced : ∀ diagnostic ∈ interpreter.reportedSince earlier,
    diagnostic.AnnouncedBy issues script
  executed : ∀ issue ∈ issues, issue.severity = .error →
    (∃ options, Lint.Strays script options issue) ∨
      ∀ {index kind}, (interpreter.eventsSince earlier)[index]? =
          some (.note (.executing issue.offset kind)) →
        ∃ diagnostic, diagnostic.ErrorAt issue.offset ∧
          (interpreter.eventsSince earlier)[index + 1]? = some (.note (.problem diagnostic))
  selected : ∀ {offset options index option label}, interpreter.phase = .awaitingChoice →
    interpreter.choiceAt = some offset → script.get? offset = some (.choice options) →
    options[index]? = some option → option.target = some label →
    script.defines label = false →
    .unknownLabel label offset ∈ (interpreter.select stage index).2.reportedSince interpreter

theorem select_reports_unknown {stage : Stage} {script : Script} {interpreter : Interpreter}
    {offset index : Nat} {options : List ChoiceOption} {option : ChoiceOption} {label : String}
    (performs : Performs script interpreter) (awaiting : interpreter.phase = .awaitingChoice)
    (asked : interpreter.choiceAt = some offset)
    (found : script.get? offset = some (.choice options)) (selected : options[index]? = some option)
    (leads : option.target = some label) (undefined : script.defines label = false) :
    .unknownLabel label offset ∈ (interpreter.select stage index).2.reportedSince interpreter := by
  rw [← performs.script] at found
  rw [select_eq awaiting asked found selected]
  let noted := interpreter.note (.choiceSelected index option.text)
  let signalled := noted.passSignal option
  let led := signalled.goWhereItLeads offset option
  let chosen := noted.chosen offset option
  show .unknownLabel label offset ∈ (chosen.runUntilSuspended stage).2.reportedSince interpreter
  have notes : Reports (Announced stage script) interpreter noted := .single (.note rfl _) trivial
  have signals : Proceeds stage script interpreter signalled :=
    (notes.trans (passSignal_cued option noted).reports).proceeds
  have unresolved : signalled.targets.resolve label = none := by
    rw [(signals.performs performs).targets]
    exact Targets.resolve_ofScript_eq_none_iff.mpr undefined
  have reports : Added [.note (.problem (.unknownLabel label offset))] signalled led := by
    unfold led
    rw [goWhereItLeads_unknown offset leads unresolved]
    exact .report _ _
  have led_performs : Performs script led :=
    ⟨reports.targets.trans (signals.performs performs).targets,
      reports.script.trans (signals.performs performs).script⟩
  have takes : Reports (Announced stage script) led chosen :=
    (Cued.give .clearChoices led).updates rfl rfl rfl rfl
  obtain ⟨before, signals, -⟩ := signals
  obtain ⟨after, runs, -⟩ := led_performs.resumes takes
  have history := (signals.trans (reports.trans runs)).history
  rw [reportedSince, eventsSince_eq history, Event.mem_problems_iff]
  simp

theorem lint_foresees {stage : Stage} {script : Script} {earlier interpreter : Interpreter}
    {collected : List Diagnostic} (run : RunOf stage script earlier collected interpreter) :
    Foreseen stage script (Lint.report script (some stage.table)).issues earlier collected
      interpreter := by
  have unfolds := run.unfolds
  refine ⟨unfolds.diagnostics, fun diagnostic member => ?_, fun issue member error => ?_, ?_⟩
  · exact unfolds.foretold.reported diagnostic (Event.mem_problems_iff.mp member)
  · rcases Lint.error_cases member error with ⟨fault, faulty, serious⟩ | strays
    · refine .inr fun executing => ⟨fault, serious, ?_⟩
      exact unfolds.foretold.prompt executing faulty
    · exact .inl strays
  · exact select_reports_unknown unfolds.performs

theorem lint_foresees_stray_option :
    let stage : Stage := ⟨{}, .standard, .accepting⟩
    let script : Script := ⟨[.choice [⟨"Go", some "nowhere", none⟩], .unknown]⟩
    let interpreter := ((fresh.start stage script).2.makeMove stage (.select 0)).2
    RunOf stage script fresh [] interpreter ∧
      interpreter.diagnostics = [.unknownLabel "nowhere" 0, .unknownInstruction 1] ∧
      Foreseen stage script (Lint.report script (some stage.table)).issues fresh []
        interpreter := by
  intro stage script interpreter
  have run : RunOf stage script fresh [] interpreter := .move (.select 0) .start
  exact ⟨run, by decide, lint_foresees run⟩

end Interpreter

end VisualNovel
