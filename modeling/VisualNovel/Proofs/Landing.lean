import VisualNovel.Proofs.Blocking
import VisualNovel.Proofs.Issues
import Mathlib.Data.List.Chain

namespace VisualNovel

namespace Script

/-- A jump that was executed at an offset, if its label is defined, is followed by its target. -/
def Lands (script : Script) (offset next : Nat) : Prop :=
  ∀ label target, script.get? offset = some (.jump label) →
    (Targets.ofScript script).resolve label = some target → next = target

structure Leg (script : Script) (first : Nat) (offsets : List Nat) (last : Nat) : Prop where
  begins : (offsets ++ [last]).head? = some first
  lands : (offsets ++ [last]).IsChain script.Lands

variable {script : Script} {first offset next last : Nat} {offsets : List Nat}

theorem lands_successor {instruction : Instruction}
    (found : script.get? offset = some instruction) :
    script.Lands offset (instruction.successor (.ofScript script) offset) := by
  intro label target jump resolved
  cases found.symm.trans jump
  rw [Instruction.successor, resolved]
  rfl

theorem lands_of_choice {options : List ChoiceOption}
    (found : script.get? offset = some (.choice options)) : script.Lands offset next := by
  intro label target jump
  cases found.symm.trans jump

theorem Leg.here : script.Leg offset [] offset :=
  ⟨rfl, List.isChain_singleton _⟩

theorem Leg.step (leg : script.Leg first offsets offset) (lands : script.Lands offset next) :
    script.Leg first (offsets ++ [offset]) next := by
  constructor
  · rw [List.head?_append, leg.begins, Option.some_or]
  · rw [List.isChain_append]
    refine ⟨leg.lands, List.isChain_singleton _, fun offset' latest next' head => ?_⟩
    rw [List.getLast?_concat] at latest
    cases latest
    cases head
    exact lands

theorem Leg.after {earlier : List Nat} (leg : script.Leg first offsets last)
    (lands : earlier.IsChain script.Lands)
    (leads : ∀ latest ∈ earlier.getLast?, script.Lands latest first) :
    (earlier ++ offsets ++ [last]).IsChain script.Lands := by
  rw [List.append_assoc, List.isChain_append]
  refine ⟨lands, leg.lands, fun latest member next head => ?_⟩
  rw [leg.begins] at head
  cases head
  exact leads latest member

end Script

namespace Interpreter

section Running

variable {stage : Stage} {script : Script} {before after : Interpreter}

def Passes (script : Script) (offsets : List Nat) (before after : Interpreter) : Prop :=
  (∃ stalls, Executes offsets stalls before after) ∧ script.Leg before.pc offsets after.pc

theorem Passes.execute {offsets : List Nat} {next : Interpreter} {instruction : Instruction}
    {flow : Flow} (performs : Performs script before) (passes : Passes script offsets before next)
    (found : next.script.get? next.pc = some instruction)
    (outcome : (next.fetch instruction).execute stage next.pc instruction = (flow, after)) :
    Passes script (offsets ++ [next.pc]) before after ∧
      script.get? next.pc = some instruction := by
  obtain ⟨⟨stalls, executes⟩, leg⟩ := passes
  have own := executes.performs performs
  rw [own.script] at found
  refine ⟨⟨⟨_, executes.trans (executes_of_eq outcome)⟩, leg.step ?_⟩, found⟩
  rw [executed_pc outcome, own.targets]
  exact Script.lands_successor found

theorem Passes.idle {offsets stalls : List Nat} {next : Interpreter}
    (passes : Passes script offsets before next) (idles : Executes [] stalls next after)
    (pc : after.pc = next.pc) : Passes script offsets before after := by
  obtain ⟨⟨stalls', executes⟩, leg⟩ := passes
  have executes := executes.trans idles
  rw [List.append_nil] at executes
  exact ⟨⟨_, executes⟩, pc ▸ leg⟩

def Asks (script : Script) (offsets : List Nat) (interpreter : Interpreter) : Prop :=
  interpreter.phase = .awaitingChoice → ∃ passed last options, offsets = passed ++ [last] ∧
    script.get? last = some (.choice options)

theorem Asks.choice {offsets : List Nat} {next : Interpreter} (asks : Asks script offsets next)
    (earlier : List Nat) (awaiting : next.phase = .awaitingChoice) :
    ∀ last ∈ (earlier ++ offsets).getLast?,
      ∃ options, script.get? last = some (.choice options) := by
  obtain ⟨passed, offset, options, rfl, found⟩ := asks awaiting
  intro last member
  rw [← List.append_assoc, List.getLast?_concat] at member
  cases member
  exact ⟨options, found⟩

theorem runUntilSuspended_passes (stage : Stage) (performs : Performs script before)
    (running : before.phase = .running) :
    ∃ offsets, Passes script offsets before (before.runUntilSuspended stage).2 ∧
      Asks script offsets (before.runUntilSuspended stage).2 := by
  apply runUntilSuspended_rule
    (fun next => ∃ offsets, Passes script offsets before next ∧ next.phase = .running)
    (fun _ next => ∃ offsets, Passes script offsets before next ∧ Asks script offsets next)
    before ⟨[], ⟨⟨[], Reports.silent (.refl _)⟩, .here⟩, running⟩
  · rintro next instruction flow after ⟨offsets, passes, running⟩ found outcome
    obtain ⟨passes, found⟩ := passes.execute performs found outcome
    have executed := executed_of_eq outcome
    cases flow with
    | onward =>
        cases executed with
        | passed _ passed => exact ⟨_, passes, (phase_of_clock passed.clock).trans running⟩
    | yield step =>
        refine ⟨_, passes, fun awaiting => ?_⟩
        cases executed with
        | @settling _ staged time settles same =>
            have phase : staged.phase = .running := (phase_of_clock same.clock).trans running
            cases phase.symm.trans awaiting
        | revealing => cases running.symm.trans awaiting
        | presenting options nonempty => exact ⟨_, _, options, rfl, found⟩
        | finishing => cases awaiting
  · rintro next ⟨offsets, passes, -⟩ missing
    have ended : Reports (fun _ => False) next
        { next.note (.reachedEnd next.pc) with phase := .ended } :=
      (Cued.note rfl _).updates rfl rfl rfl rfl
    exact ⟨offsets, passes.idle ended.silent rfl, nofun⟩
  · rintro offset next ⟨offsets, passes, -⟩
    have stalled : Executes [] [offset] next
        { next.report (.stalled offset) with phase := .stopped } :=
      ⟨_, (Added.report (.stalled offset) next).trans (.nothing rfl rfl rfl rfl), rfl, rfl⟩
    exact ⟨offsets, passes.idle stalled rfl, nofun⟩

theorem Silent.runs {ready : Interpreter} (silent : Silent before ready) (stage : Stage)
    (performs : Performs script ready) (running : ready.phase = .running) :
    let after := (ready.runUntilSuspended stage).2
    before.history.toList <+: after.history.toList ∧
      script.Leg ready.pc (after.executedSince before) after.pc ∧
      Asks script (after.executedSince before) after := by
  intro after
  obtain ⟨offsets, ⟨⟨stalls, executes⟩, leg⟩, asks⟩ :=
    runUntilSuspended_passes stage performs running
  have all : after.executedSince before = offsets := by
    rw [executedSince_trans silent.history executes.history, silent.executed, List.nil_append,
      executes.executedSince_eq]
  rw [all]
  exact ⟨silent.history.trans executes.history, leg, asks⟩

end Running

/-- Every jump has been followed by its target, and a choice that is waited for was executed last,
if anything was. -/
structure Landed (script : Script) (earlier interpreter : Interpreter) : Prop where
  lands : (interpreter.executedSince earlier ++ [interpreter.pc]).IsChain script.Lands
  choice : interpreter.phase = .awaitingChoice →
    ∀ last ∈ (interpreter.executedSince earlier).getLast?,
      ∃ options, script.get? last = some (.choice options)

namespace Landed

variable {stage : Stage} {script : Script} {earlier before after : Interpreter}
  (landed : Landed script earlier before)
  (begun : earlier.history.toList <+: before.history.toList)
include landed begun

theorem idle (reports : Reports (fun _ => True) before after) (pc : after.pc = before.pc)
    (phase : after.phase = .awaitingChoice → before.phase = .awaitingChoice) :
    Landed script earlier after := by
  have silent := reports.unexecuted
  have same : after.executedSince earlier = before.executedSince earlier := by
    rw [executedSince_trans begun silent.history, silent.executed, List.append_nil]
  constructor
  · rw [same, pc]
    exact landed.lands
  · rw [same]
    exact fun awaiting => landed.choice (phase awaiting)

theorem resumes {move : Move Wake} {ready : Interpreter} (performs : Performs script before)
    (resumes : Resumes before move ready) :
    Landed script earlier (ready.runUntilSuspended stage).2 := by
  have reports : Reports (Announced stage script) before ready := performs.ready resumes
  obtain ⟨history, leg, asks⟩ := reports.unexecuted.runs stage
    (reports.proceeds.performs performs) resumes.running
  obtain ⟨lands, -, leads⟩ := List.isChain_append.mp landed.lands
  have goesOn (last : Nat) (member : last ∈ (before.executedSince earlier).getLast?) :
      script.Lands last ready.pc := by
    -- Only after an option is selected the run may go on elsewhere than where it was.
    cases resumes with
    | select awaiting =>
        obtain ⟨options, found⟩ := landed.choice awaiting last member
        exact Script.lands_of_choice found
    | _ => exact leads last member _ rfl
  constructor
  · rw [executedSince_trans begun history]
    exact leg.after lands goesOn
  · rw [executedSince_trans begun history]
    exact asks.choice _

theorem makeMove (performs : Performs script before) (move : Move Wake) :
    Landed script earlier (before.makeMove stage move).2 := by
  rcases outcome : before.makeMove stage move with ⟨answer, after⟩
  cases moved_of_eq outcome with
  | ignored unchanged =>
      have same := unchanged.toMachine
      refine landed.idle begun (unchanged.cued _).reports (congrArg (·.pc) same) ?_
      rw [congrArg (·.phase) same]
      exact id
  | refused awaiting => exact landed.idle begun (Cued.note rfl _).reports rfl id
  | resumed resumes => exact landed.resumes begun performs resumes
  | revealing running ticked => exact landed.idle begun (tell_reports ..) rfl id
  | revealed running ticked apart unchanged =>
      refine landed.idle begun ?_ (congrArg (·.pc) unchanged.toMachine) nofun
      exact (tell_reports ..).trans ((unchanged.cued _).updates rfl rfl rfl rfl)
  | stopped running =>
      exact landed.idle begun ((Cued.note rfl _).updates rfl rfl rfl rfl) rfl nofun
  | rested resting => exact landed

end Landed

section Runs

variable {stage : Stage} {script : Script} {earlier interpreter : Interpreter}
  {collected : List Diagnostic}

theorem start_landed (stage : Stage) (script : Script) (earlier : Interpreter) :
    Landed script earlier (earlier.start stage script).2 := by
  obtain ⟨-, leg, asks⟩ :=
    (begin_silent script earlier).runs stage (⟨rfl, rfl⟩ : Performs script _) rfl
  exact ⟨leg.lands, asks.choice []⟩

theorem RunOf.landed (run : RunOf stage script earlier collected interpreter) :
    Landed script earlier interpreter := by
  induction run with
  | start => exact start_landed stage script earlier
  | @restore save step restored accepted =>
      obtain ⟨-, rfl⟩ := (restore_ok_iff earlier).mp accepted
      have shows : Reports (fun _ => True) (earlier.reset script)
          ((earlier.putBack script save).replay stage) :=
        (putBack_reports ..).trans ((replay_cued _ stage).reports.mono fun _ _ => trivial)
      have silent := (reset_silent script earlier).trans shows.unexecuted
      constructor
      · rw [silent.executed]
        exact List.isChain_singleton _
      · rw [silent.executed]
        exact fun _ => nofun
  | move move run landed =>
      exact landed.makeMove ⟨_, run.unfolds.history.symm⟩ run.unfolds.performs move
  | collect _ landed => exact ⟨landed.lands, landed.choice⟩

/-- The run goes on at `target` after every jump to the label, and after an option is selected that
leads there. -/
structure Continues (stage : Stage) (script : Script) (label : String) (target : Nat)
    (earlier interpreter : Interpreter) : Prop where
  jumps : ∀ {passed offset rest}, interpreter.executedSince earlier = passed ++ offset :: rest →
    script.get? offset = some (.jump label) → (rest ++ [interpreter.pc]).head? = some target
  options : ∀ {offset options index option}, interpreter.phase = .awaitingChoice →
    interpreter.choiceAt = some offset → script.get? offset = some (.choice options) →
    options[index]? = some option → option.target = some label →
    let after := (interpreter.select stage index).2
    (after.executedSince interpreter ++ [after.pc]).head? = some target

theorem RunOf.continues {label : String} {target : Nat}
    (run : RunOf stage script earlier collected interpreter)
    (resolved : (Targets.ofScript script).resolve label = some target) :
    Continues stage script label target earlier interpreter := by
  constructor
  · intro passed offset rest all found
    have lands := run.landed.lands
    rw [all, List.append_assoc, List.isChain_append] at lands
    obtain ⟨-, lands, -⟩ := lands
    cases rest with
    | nil =>
        rw [(List.isChain_cons_cons.mp lands).1 label target found resolved]
        rfl
    | cons next rest =>
        rw [(List.isChain_cons_cons.mp lands).1 label target found resolved]
        rfl
  · intro offset options index option awaiting asked found selected leads after
    have performs := run.unfolds.performs
    rw [← performs.script] at found
    let chosen := (interpreter.note (.choiceSelected index option.text)).chosen offset option
    have resumes : Resumes interpreter (.select index) chosen :=
      .select awaiting asked found selected
    have reports : Reports (Announced stage script) interpreter chosen := performs.ready resumes
    obtain ⟨-, leg, -⟩ := reports.unexecuted.runs stage (reports.proceeds.performs performs)
      resumes.running
    have pc : chosen.pc = target := by
      rw [chosen_pc, leads]
      show (interpreter.targets.resolve label).getD _ = target
      rw [performs.targets, resolved]
      rfl
    rw [pc] at leg
    simp only [after, select_eq awaiting asked found selected]
    exact leg.begins

end Runs

end Interpreter

namespace Lint

open Interpreter

variable {script : Script} {table : Option AssetTable} {label : String} {offset previous : Nat}

theorem last_redefinition
    (reported : redefinition label offset previous ∈ (report script table).issues) :
    ∃ last, offset ≤ last ∧ script.DefinedLast label last ∧
      ∃ earlier, redefinition label last earlier ∈ (report script table).issues := by
  obtain ⟨here, before⟩ := redefinition_mem_iff.mp reported
  obtain ⟨last, found⟩ :=
    Option.isSome_iff_exists.mp (Script.isSome_definitionBefore? (Script.lt_length here) here)
  have defined := Script.definedLast_iff.mpr found
  have within : offset ≤ last := Nat.not_lt.mp fun beyond => defined.2 offset beyond here
  refine ⟨last, within, defined, ?_⟩
  rcases Nat.eq_or_lt_of_le within with rfl | later
  · exact ⟨previous, reported⟩
  · obtain ⟨earlier, found⟩ :=
      Option.isSome_iff_exists.mp (Script.isSome_definitionBefore? later here)
    exact ⟨earlier, redefinition_mem_iff.mpr ⟨defined.1, found⟩⟩

/-- A redefinition wins, as the linter says, where it is the last. Otherwise the last one does, of
which the linter says the same: all runs go on after it. -/
theorem redefinition_wins
    (reported : redefinition label offset previous ∈ (report script table).issues) :
    ((Targets.ofScript script).resolve label = some (offset + 1) ↔
      ∀ later, offset < later → script.get? later ≠ some (.label label)) ∧
    ∃ last, offset ≤ last ∧ script.DefinedLast label last ∧
      (∃ earlier, redefinition label last earlier ∈ (report script table).issues) ∧
      (Targets.ofScript script).resolve label = some (last + 1) ∧
      ∀ {stage earlier collected interpreter},
        RunOf stage script earlier collected interpreter →
          Continues stage script label (last + 1) earlier interpreter := by
  constructor
  · rw [Targets.resolve_eq_some_iff, Nat.add_sub_cancel]
    have here := (redefinition_mem_iff.mp reported).1
    exact ⟨fun wins => wins.2.2, fun last => ⟨Nat.le_add_left 1 offset, here, last⟩⟩
  · obtain ⟨last, within, defined, told⟩ := last_redefinition reported
    have resolved : (Targets.ofScript script).resolve label = some (last + 1) :=
      Targets.resolve_eq_some_iff.mpr ⟨Nat.le_add_left 1 last, defined⟩
    exact ⟨last, within, defined, told, resolved, fun run => run.continues resolved⟩

theorem redefinition_wins_third :
    let stage : Stage := ⟨{}, .standard, .accepting⟩
    let script : Script := ⟨[.jump "a", .label "a", .unknown, .label "a", .label "a", .ending]⟩
    let interpreter := (fresh.start stage script).2
    redefinition "a" 3 1 ∈ (report script none).issues ∧
      (Targets.ofScript script).resolve "a" ≠ some 4 ∧
      (Targets.ofScript script).resolve "a" = some 5 ∧
      RunOf stage script fresh [] interpreter ∧ interpreter.executedSince fresh = [0, 5] ∧
      Continues stage script "a" 5 fresh interpreter := by
  intro stage script interpreter
  have reported : redefinition "a" 3 1 ∈ (report script none).issues :=
    redefinition_mem_iff.mpr ⟨rfl, by decide⟩
  have run : RunOf stage script fresh [] interpreter := .start
  obtain ⟨wins, last, -, -, -, resolved, continues⟩ := redefinition_wins reported
  have third : (Targets.ofScript script).resolve "a" = some 5 := by decide
  obtain rfl : last = 4 := by simpa [third] using resolved.symm
  refine ⟨reported, fun second => ?_, third, run, by decide, continues run⟩
  exact wins.mp second 4 (by decide) rfl

theorem redefinition_loses :
    let script : Script := ⟨[.label "a", .label "a", .label "a"]⟩
    redefinition "a" 1 0 ∈ (report script none).issues ∧
      (redefinition "a" 1 0).message = "label 'a' already defined at offset 0; this one wins" ∧
      (Targets.ofScript script).resolve "a" = some 3 := by
  intro script
  exact ⟨redefinition_mem_iff.mpr ⟨rfl, by decide⟩, rfl, by decide⟩

end Lint

end VisualNovel
