import VisualNovel.Proofs.Itinerary
import Mathlib.Logic.Relation

namespace VisualNovel

/-! ## Executed instructions and stalls -/

namespace Event

def executed? : Event → Option Nat
  | note (.executing offset _) => some offset
  | _ => none

def stalled? : Event → Option Nat
  | note (.problem (.stalled offset)) => some offset
  | _ => none

theorem mem_stalls_iff {offset : Nat} {events : List Event} :
    offset ∈ events.filterMap stalled? ↔ .note (.problem (.stalled offset)) ∈ events := by
  rw [List.mem_filterMap]
  constructor
  · rintro ⟨event, member, stalled⟩
    unfold stalled? at stalled
    split at stalled
    · cases stalled
      exact member
    · cases stalled
  · exact fun member => ⟨_, member, rfl⟩

theorem Within.executed?_eq_none {allowed : Diagnostic → Prop} {event : Event}
    (within : event.Within allowed) : event.executed? = none := by
  unfold executed?
  split
  · exact within.elim
  · rfl

theorem Within.stalled?_eq_none {allowed : Diagnostic → Prop} {event : Event}
    (within : event.Within allowed) (forbids : ∀ offset, ¬allowed (.stalled offset)) :
    event.stalled? = none := by
  unfold stalled?
  split
  · exact absurd within (forbids _)
  · rfl

end Event

namespace Interpreter

/-- The offsets of the instructions executed since then, the first one first. -/
def executedSince (interpreter earlier : Interpreter) : List Nat :=
  (interpreter.eventsSince earlier).filterMap Event.executed?

/-- What is executed from `before` to `after`, and where the run stalls. -/
def Executes (offsets stalls : List Nat) (before after : Interpreter) : Prop :=
  ∃ events, Added events before after ∧ events.filterMap Event.executed? = offsets ∧
    events.filterMap Event.stalled? = stalls

namespace Executes

variable {script : Script} {offsets stalls : List Nat} {before after : Interpreter}

theorem trans {later latest : List Nat} {first second third : Interpreter}
    (before : Executes offsets stalls first second) (after : Executes later latest second third) :
    Executes (offsets ++ later) (stalls ++ latest) first third := by
  obtain ⟨events, added, rfl, rfl⟩ := before
  obtain ⟨others, added', rfl, rfl⟩ := after
  exact ⟨events ++ others, added.trans added', List.filterMap_append, List.filterMap_append⟩

theorem performs (executes : Executes offsets stalls before after)
    (performs : Performs script before) : Performs script after := by
  obtain ⟨events, added, -, -⟩ := executes
  exact ⟨added.targets.trans performs.targets, added.script.trans performs.script⟩

theorem executedSince_eq (executes : Executes offsets stalls before after) :
    after.executedSince before = offsets := by
  obtain ⟨events, added, same, -⟩ := executes
  rw [executedSince, eventsSince_eq added.history, same]

theorem stalled_mem_iff (executes : Executes offsets stalls before after) {offset : Nat} :
    .stalled offset ∈ after.reportedSince before ↔ offset ∈ stalls := by
  obtain ⟨events, added, -, rfl⟩ := executes
  rw [reportedSince, eventsSince_eq added.history, Event.mem_problems_iff, Event.mem_stalls_iff]

theorem diagnostics (executes : Executes offsets stalls before after) :
    after.diagnostics = before.diagnostics ++ after.reportedSince before := by
  obtain ⟨events, added, -, -⟩ := executes
  rw [reportedSince, eventsSince_eq added.history, added.diagnostics]

end Executes

theorem Reports.executes {allowed : Diagnostic → Prop} {before after : Interpreter}
    (reports : Reports allowed before after) (forbids : ∀ offset, ¬allowed (.stalled offset)) :
    Executes [] [] before after := by
  obtain ⟨events, added, within⟩ := reports
  refine ⟨events, added, List.filterMap_eq_nil_iff.mpr fun event member => ?_,
    List.filterMap_eq_nil_iff.mpr fun event member => ?_⟩
  · exact (within event member).executed?_eq_none
  · exact (within event member).stalled?_eq_none forbids

theorem fetch_executes (instruction : Instruction) (interpreter : Interpreter) :
    Executes [interpreter.pc] [] interpreter (interpreter.fetch instruction) :=
  ⟨[.note (.executing interpreter.pc instruction.kind)],
    ⟨rfl, rfl, Array.toList_push, (List.append_nil _).symm⟩, rfl, rfl⟩

theorem executes_of_eq {stage : Stage} {before after : Interpreter} {instruction : Instruction}
    {flow : Flow}
    (outcome : (before.fetch instruction).execute stage before.pc instruction = (flow, after)) :
    Executes [before.pc] [] before after := by
  have reports := execute_reports stage before.pc (before.fetch instruction) instruction
  rw [outcome] at reports
  refine (fetch_executes instruction before).trans (reports.executes fun offset stalls => ?_)
  cases stalls with
  | fault faulty =>
      unfold Instruction.fault? at faulty
      grind

end Interpreter

/-! ## Going straight on -/

namespace Script

variable {script : Script} {budget offset : Nat} {offsets stalls : List Nat}
  {spot? : Option Spot}

inductive Straight (script : Script) : List Nat → Nat → Nat → Prop where
  | here {offset : Nat} : Straight script [] offset offset
  | onward {passed : List Nat} {offset next last : Nat} : script.onward? offset = some next →
      Straight script passed next last → Straight script (offset :: passed) offset last

/-- What is executed from an offset on, where execution stalls, and where it comes to wait, if it
may go straight on so many times. -/
inductive Stretch (script : Script) (budget offset : Nat) :
    List Nat → List Nat → Option Spot → Prop where
  | yields {passed : List Nat} {halt : Nat} {instruction : Instruction} :
      Straight script passed offset halt → passed.length ≤ budget →
      script.get? halt = some instruction → instruction.passesOn = false →
      Stretch script budget offset (passed ++ [halt]) [] (script.spotAt? halt)
  | ends {passed : List Nat} {halt : Nat} : Straight script passed offset halt →
      passed.length ≤ budget → script.get? halt = none →
      Stretch script budget offset passed [] none
  | stalls {passed : List Nat} {last next : Nat} : Straight script passed offset last →
      passed.length = budget → script.onward? last = some next →
      Stretch script budget offset (passed ++ [last]) [last] none

theorem onward?_of_missing (missing : script.get? offset = none) :
    script.onward? offset = none := by
  simp [onward?, missing]

theorem spotAt?_of_missing (missing : script.get? offset = none) :
    script.spotAt? offset = none := by
  simp [spotAt?, missing]

theorem Stretch.onward {next : Nat} (goesOn : script.onward? offset = some next)
    (stretch : script.Stretch budget next offsets stalls spot?) :
    script.Stretch (budget + 1) offset (offset :: offsets) stalls spot? := by
  cases stretch with
  | yields straight within found halts =>
      exact .yields (.onward goesOn straight) (Nat.succ_le_succ within) found halts
  | ends straight within missing =>
      exact .ends (.onward goesOn straight) (Nat.succ_le_succ within) missing
  | stalls straight all goesOn' =>
      exact .stalls (.onward goesOn straight) (congrArg (· + 1) all) goesOn'

theorem Stretch.length_le (stretch : script.Stretch budget offset offsets stalls spot?) :
    offsets.length ≤ budget + 1 := by
  cases stretch with
  | yields straight within found halts => simpa using within
  | ends straight within missing => omega
  | stalls straight all goesOn => simp [all]

section Straight

variable {passed : List Nat} {last : Nat} (straight : script.Straight passed offset last)
include straight

theorem Straight.rest {places : List Nat} (track : Track script.onward? offset places) :
    ∃ rest, Track script.onward? last rest ∧ places.length = passed.length + rest.length := by
  induction straight generalizing places with
  | here => exact ⟨places, track, (Nat.zero_add _).symm⟩
  | onward goesOn _ ih =>
      cases track with
      | last halts => cases goesOn.symm.trans halts
      | step again track =>
          cases goesOn.symm.trans again
          obtain ⟨rest, track, same⟩ := ih track
          refine ⟨rest, track, ?_⟩
          rw [List.length_cons, List.length_cons, same, Nat.add_right_comm]

theorem Straight.haltWithin_eq (within : passed.length ≤ budget)
    (halts : script.onward? last = none) : script.haltWithin budget offset = some last := by
  induction straight generalizing budget with
  | here => cases budget <;> simp [haltWithin, halts]
  | onward goesOn _ ih =>
      obtain ⟨budget, rfl⟩ := Nat.exists_eq_succ_of_ne_zero (Nat.ne_zero_of_lt within)
      rw [haltWithin, goesOn]
      exact ih (Nat.le_of_succ_le_succ within) halts

theorem Straight.haltWithin_eq_none {next : Nat} (all : passed.length = budget)
    (goesOn : script.onward? last = some next) : script.haltWithin budget offset = none := by
  induction straight generalizing budget with
  | here =>
      subst all
      simp [haltWithin, goesOn]
  | onward goesOn' _ ih =>
      subst all
      rw [List.length_cons, haltWithin, goesOn']
      exact ih rfl goesOn

end Straight

theorem Stretch.spot_eq (stretch : script.Stretch budget offset offsets stalls spot?) :
    spot? = (script.haltWithin budget offset).bind script.spotAt? := by
  cases stretch with
  | yields straight within found halts =>
      rw [straight.haltWithin_eq within (onward?_of_halts found halts)]
      rfl
  | ends straight within missing =>
      rw [straight.haltWithin_eq within (onward?_of_missing missing)]
      exact (spotAt?_of_missing missing).symm
  | stalls straight all goesOn =>
      rw [straight.haltWithin_eq_none all goesOn]
      rfl

end Script

namespace Interpreter

section Running

variable {stage : Stage} {script : Script} {interpreter : Interpreter} {budget : Nat}

def Ran (script : Script) (budget : Nat) (interpreter : Interpreter)
    (outcome : Step × Interpreter) : Prop :=
  ∃ offsets stalls spot?, script.Stretch budget interpreter.pc offsets stalls spot? ∧
    Executes offsets stalls interpreter outcome.2 ∧ (outcome.1 = .stopped ↔ stalls ≠ [])

theorem yields_ne_stopped {offset : Nat} {before after : Interpreter} {instruction : Instruction}
    {step : Step} (executed : Executed offset before instruction (.yield step) after) :
    instruction.passesOn = false ∧ step ≠ .stopped := by
  cases executed with
  | settling time settles same => exact ⟨passesOn_of_settles settles, nofun⟩
  | revealing speaker text name time => exact ⟨rfl, nofun⟩
  | presenting options nonempty =>
      obtain ⟨option, options, rfl⟩ := List.exists_cons_of_ne_nil nonempty
      exact ⟨rfl, nofun⟩
  | finishing endText => exact ⟨rfl, nofun⟩

theorem dispatch_ran {onward : Nat → Interpreter → Step × Interpreter}
    (performs : Performs script interpreter)
    (goesOn : ∀ next, Executes [interpreter.pc] [] interpreter next →
      script.onward? interpreter.pc = some next.pc →
      Ran script budget interpreter (onward interpreter.pc next)) :
    Ran script budget interpreter (interpreter.dispatch stage onward) := by
  cases found : interpreter.script.get? interpreter.pc with
  | none =>
      rw [dispatch_none found]
      rw [performs.script] at found
      have ended : Reports (fun _ => False) interpreter
          { interpreter.note (.reachedEnd interpreter.pc) with phase := .ended } :=
        (Cued.note rfl _).updates rfl rfl rfl rfl
      exact ⟨[], [], none, .ends .here (Nat.zero_le _) found, ended.executes fun _ => id, by simp⟩
  | some instruction =>
      rw [dispatch_some found]
      rw [performs.script] at found
      rcases outcome : (interpreter.fetch instruction).execute stage interpreter.pc instruction
        with ⟨flow, next⟩
      have executes := executes_of_eq outcome
      have executed := executed_of_eq outcome
      cases flow with
      | onward =>
          cases executed with
          | passed passes =>
              refine goesOn next executes ?_
              rw [Script.onward?_of_passesOn found passes, execute_pc passes outcome,
                performs.targets]
      | yield step =>
          obtain ⟨halts, unstopped⟩ := yields_ne_stopped executed
          exact ⟨[interpreter.pc], [], _, .yields .here (Nat.zero_le _) found halts, executes,
            by simpa using unstopped⟩

theorem runWithin_ran (stage : Stage) (budget : Nat) (performs : Performs script interpreter) :
    Ran script budget interpreter (interpreter.runWithin stage budget) := by
  induction budget generalizing interpreter with
  | zero =>
      refine dispatch_ran performs fun next executes goesOn => ?_
      have stalls : Executes [] [interpreter.pc] next
          { next.report (.stalled interpreter.pc) with phase := .stopped } := by
        refine ⟨_, (Added.report (.stalled interpreter.pc) next).trans
          (.nothing rfl rfl rfl rfl), rfl, rfl⟩
      exact ⟨_, _, _, .stalls .here rfl goesOn, executes.trans stalls, by simp [stall]⟩
  | succ budget ih =>
      refine dispatch_ran performs fun next executes goesOn => ?_
      obtain ⟨offsets, stalls, spot?, stretch, later, stopped⟩ := ih (executes.performs performs)
      exact ⟨_, _, _, stretch.onward goesOn, executes.trans later, stopped⟩

theorem runUntilSuspended_stretch (stage : Stage) (performs : Performs script interpreter) :
    ∃ offsets stalls,
      script.Stretch script.length interpreter.pc offsets stalls
        (script.waitFrom? interpreter.pc) ∧
      Executes offsets stalls interpreter (interpreter.runUntilSuspended stage).2 ∧
      ((interpreter.runUntilSuspended stage).1 = .stopped ↔ stalls ≠ []) := by
  obtain ⟨offsets, stalls, spot?, stretch, ran⟩ := runWithin_ran stage script.length performs
  rw [runUntilSuspended, performs.script]
  refine ⟨offsets, stalls, ?_, ran⟩
  rw [Script.waitFrom?, ← stretch.spot_eq]
  exact stretch

end Running

end Interpreter

/-! ## Stalls -/

def Instruction.suspends : Instruction → Bool
  | .say .. | .background .. | .character .. | .wait _ | .music .. | .ending => true
  | .choice options => !options.isEmpty
  | .label _ | .jump _ | .unknown => false

theorem Instruction.suspends_eq (instruction : Instruction) :
    instruction.suspends = !instruction.passesOn := by
  cases instruction with
  | choice options => cases options <;> rfl
  | _ => rfl

namespace Script

/-- Where execution goes on after an instruction that does not suspend the run. -/
inductive Onward (script : Script) (offset : Nat) : Nat → Prop where
  | label {id : String} : script.get? offset = some (.label id) →
      Onward script offset (offset + 1)
  | unknown : script.get? offset = some .unknown → Onward script offset (offset + 1)
  | noOptions : script.get? offset = some (.choice []) → Onward script offset (offset + 1)
  | undefined {label : String} : script.get? offset = some (.jump label) →
      script.past? label = none → Onward script offset (offset + 1)
  | jump {label : String} {target : Nat} : script.get? offset = some (.jump label) →
      script.past? label = some target → Onward script offset target

def Halts (script : Script) (offset : Nat) : Prop :=
  ∀ instruction ∈ script.get? offset, instruction.suspends

def ComesToHalt (script : Script) (offset : Nat) : Prop :=
  ∃ halt, Relation.ReflTransGen script.Onward offset halt ∧ script.Halts halt

variable {script : Script} {offset : Nat}

theorem onward_iff {next : Nat} :
    script.Onward offset next ↔ script.onward? offset = some next := by
  constructor
  · intro onward
    cases onward with
    | label found => exact onward?_of_passesOn found rfl
    | unknown found => exact onward?_of_passesOn found rfl
    | noOptions found => exact onward?_of_passesOn found rfl
    | undefined found none =>
        rw [onward?_of_passesOn found rfl, Instruction.successor, Targets.resolve_ofScript, none]
        rfl
    | jump found some =>
        rw [onward?_of_passesOn found rfl, Instruction.successor, Targets.resolve_ofScript, some]
        rfl
  · intro goesOn
    obtain ⟨instruction, passed, same⟩ := Option.map_eq_some_iff.mp goesOn
    obtain ⟨found, passes⟩ := Option.filter_eq_some_iff.mp passed
    subst same
    cases instruction with
    | label id => exact .label found
    | unknown => exact .unknown found
    | choice options =>
        cases options with
        | nil => exact .noOptions found
        | cons option options => cases passes
    | jump label =>
        rw [Instruction.successor, Targets.resolve_ofScript]
        cases past : script.past? label with
        | none => exact .undefined found past
        | some target => exact .jump found past
    | _ => cases passes

theorem halts_iff : script.Halts offset ↔ script.onward? offset = none := by
  unfold Halts
  cases found : script.get? offset with
  | none => simp [onward?_of_missing found]
  | some instruction => simp [onward?, found, Instruction.suspends_eq]

theorem Straight.onward_path {passed : List Nat} {last : Nat}
    (straight : script.Straight passed offset last) :
    Relation.ReflTransGen script.Onward offset last := by
  induction straight with
  | here => exact .refl
  | onward goesOn _ path => exact path.head (onward_iff.mpr goesOn)

theorem ComesToHalt.track (comes : script.ComesToHalt offset) :
    ∃ rest, Track script.onward? offset rest := by
  obtain ⟨halt, path, halts⟩ := comes
  induction path using Relation.ReflTransGen.head_induction_on with
  | refl => exact ⟨[], .last (halts_iff.mp halts)⟩
  | head onward _ ih =>
      obtain ⟨rest, track⟩ := ih
      exact ⟨_ :: rest, .step (onward_iff.mp onward) track⟩

theorem onward?_le {next : Nat} (goesOn : script.onward? offset = some next) :
    offset < script.length ∧ next ≤ script.length := by
  have past {label : String} {target : Nat} (found : script.past? label = some target) :
      target ≤ script.length := by
    rw [← Targets.resolve_ofScript] at found
    exact Targets.resolve_ofScript_le found
  cases onward_iff.mpr goesOn with
  | label found => exact ⟨lt_length found, lt_length found⟩
  | unknown found => exact ⟨lt_length found, lt_length found⟩
  | noOptions found => exact ⟨lt_length found, lt_length found⟩
  | undefined found none => exact ⟨lt_length found, lt_length found⟩
  | jump found some => exact ⟨lt_length found, past some⟩

theorem length_le_of_track {rest : List Nat} (track : Track script.onward? offset rest) :
    rest.length ≤ script.length := by
  cases track with
  | last none => exact Nat.zero_le _
  | step some later =>
      obtain ⟨inside, -⟩ := onward?_le some
      have begins : offset ∈ List.range (script.length + 1) :=
        List.mem_range.mpr (Nat.lt_succ_of_lt inside)
      have fewer := (Track.step some later).lt_length begins
        fun _ goesOn => List.mem_range.mpr (Nat.lt_succ_of_le (onward?_le goesOn).2)
      rw [List.length_range] at fewer
      exact Nat.le_of_lt_succ fewer

theorem Stretch.not_comesToHalt {budget : Nat} {offsets stalls : List Nat} {spot? : Option Spot}
    (stretch : script.Stretch budget offset offsets stalls spot?) (enough : script.length ≤ budget)
    {stalled : Nat} (member : stalled ∈ stalls) :
    ¬script.ComesToHalt offset ∧ ¬script.ComesToHalt stalled := by
  cases stretch with
  | yields => cases member
  | ends => cases member
  | @stalls passed last next straight all goesOn =>
      obtain rfl := List.mem_singleton.mp member
      have circles : ¬script.ComesToHalt offset := fun comes => by
        obtain ⟨places, track⟩ := comes.track
        obtain ⟨rest, track', same⟩ := straight.rest track
        have more : 0 < rest.length := by
          cases track' with
          | last none => cases goesOn.symm.trans none
          | step => exact Nat.succ_pos _
        -- So many instructions cannot all be different ones.
        have fewer := length_le_of_track track
        omega
      refine ⟨circles, fun ⟨halt, path, halts⟩ => circles ?_⟩
      exact ⟨halt, straight.onward_path.trans path, halts⟩

theorem Stretch.comesToHalt {budget : Nat} {offsets : List Nat} {spot? : Option Spot}
    (stretch : script.Stretch budget offset offsets [] spot?) : script.ComesToHalt offset := by
  have halted {passed : List Nat} {halt : Nat} (straight : script.Straight passed offset halt)
      (halts : script.onward? halt = none) : script.ComesToHalt offset :=
    ⟨halt, straight.onward_path, halts_iff.mpr halts⟩
  cases stretch with
  | yields straight within found halts => exact halted straight (onward?_of_halts found halts)
  | ends straight within missing => exact halted straight (onward?_of_missing missing)

end Script

namespace Interpreter

/-- A run that goes straight on executes no more instructions than its script has, and one; it
stops as stalled just if it would never come to a halt, and would not from where it stalled. -/
theorem stalls_iff_no_halt (stage : Stage) {script : Script} {interpreter : Interpreter}
    (performs : Performs script interpreter) :
    let (step, after) := interpreter.runUntilSuspended stage
    (after.executedSince interpreter).length ≤ script.length + 1 ∧
    after.diagnostics = interpreter.diagnostics ++ after.reportedSince interpreter ∧
    (step = .stopped ∧ (∃ offset, .stalled offset ∈ after.reportedSince interpreter) ↔
      ¬script.ComesToHalt interpreter.pc) ∧
    ∀ offset, .stalled offset ∈ after.reportedSince interpreter → ¬script.ComesToHalt offset := by
  obtain ⟨offsets, stalls, stretch, executes, stopped⟩ := runUntilSuspended_stretch stage performs
  rcases outcome : interpreter.runUntilSuspended stage with ⟨step, after⟩
  rw [outcome] at executes stopped
  simp only [executes.executedSince_eq, executes.stalled_mem_iff]
  have circles {stalled : Nat} (member : stalled ∈ stalls) :=
    stretch.not_comesToHalt (Nat.le_refl _) member
  refine ⟨stretch.length_le, executes.diagnostics, ?_, fun _ member => (circles member).2⟩
  constructor
  · rintro ⟨-, stalled, member⟩
    exact (circles member).1
  · intro endless
    cases stalls with
    | nil => exact absurd stretch.comesToHalt endless
    | cons stalled stalls => exact ⟨stopped.mpr (List.cons_ne_nil _ _), stalled, .head _⟩

theorem stalls_iff_no_halt_in_a_circle :
    let stage : Stage := ⟨{}, .standard, .accepting⟩
    let script : Script := ⟨[.label "top", .unknown, .choice [], .jump "top", .ending]⟩
    let begun := fresh.begin script
    let after := (begun.runUntilSuspended stage).2
    Performs script begun ∧ after.executedSince begun = [0, 1, 2, 3, 1, 2] ∧
      .stalled 2 ∈ after.reportedSince begun ∧ ¬script.ComesToHalt 0 ∧ ¬script.ComesToHalt 2 := by
  intro stage script begun after
  have performs : Performs script begun := ⟨rfl, rfl⟩
  have stalled : (begun.runUntilSuspended stage).1 = .stopped ∧
      .stalled 2 ∈ after.reportedSince begun := by decide
  have exact := stalls_iff_no_halt stage performs
  exact ⟨performs, by decide, stalled.2, exact.2.2.1.mp ⟨stalled.1, 2, stalled.2⟩,
    exact.2.2.2 2 stalled.2⟩

end Interpreter

end VisualNovel
