import VisualNovel.Proofs.Course
import VisualNovel.Proofs.Forecast

/-!
Itineraries: the way a run takes through its script. Each instruction that is executed is where the
one before leads, so none is lost or executed twice, whatever comes in between.

Main statement: `route_followed`, for runs that are started and go on by any moves.
-/

namespace VisualNovel

/-! ## Routes -/

structure Visit where
  offset : Nat
  selected : Option Nat
  deriving DecidableEq

/-- What an event adds to the visits so far, of which the last one is the first. -/
def Event.visit (visits : List Visit) : Event → List Visit
  | .note (.executing offset _) => ⟨offset, none⟩ :: visits
  | .note (.choiceSelected index _) =>
      match visits with
      | visit :: earlier => { visit with selected := some index } :: earlier
      | [] => []
  | _ => visits

def Move.mark : Move Wake → List Visit → List Visit
  | .select index, visit :: earlier => { visit with selected := some index } :: earlier
  | _, visits => visits

namespace Script

/-- Just past the last definition of a label. -/
def past? (script : Script) (label : String) : Option Nat :=
  (script.instructions.reverse.findIdx? (· = .label label)).map (script.length - ·)

/-- Where a jump or an option leads, if the label is defined. -/
def leap? (script : Script) (visit : Visit) : Option Nat :=
  match script.get? visit.offset with
  | some (.jump label) => script.past? label
  | some (.choice options) => do
      let option ← options[← visit.selected]?
      script.past? (← option.target)
  | _ => none

def after (script : Script) (visit : Visit) : Nat :=
  (script.leap? visit).getD (visit.offset + 1)

def next (script : Script) : List Visit → Nat
  | [] => 0
  | visit :: _ => script.after visit

def Ended (script : Script) (visits : List Visit) : Prop :=
  ∃ visit ∈ visits.head?, script.get? visit.offset = some .ending

/-- Each visit is where the one before leads, and nothing follows an end. -/
inductive Route (script : Script) : List Visit → Prop where
  | start : Route script []
  | visit {visits : List Visit} (selected : Option Nat) : Route script visits →
      ¬script.Ended visits → script.next visits < script.length →
      Route script (⟨script.next visits, selected⟩ :: visits)

end Script

namespace Targets

theorem resolve_enter (instructions : List Instruction) (targets : Targets) (offset : Nat)
    (label : String) : (enter targets offset instructions).1.resolve label =
      ((instructions.reverse.findIdx? (· = .label label)).map
        (offset + instructions.length - ·)).or (targets.resolve label) := by
  induction instructions generalizing targets offset with
  | nil => rfl
  | cons instruction instructions ih =>
      have length : offset + 1 + instructions.length = offset + (instructions.length + 1) := by
        omega
      have entered : (enter targets offset (instruction :: instructions)).1.resolve label =
          ((instructions.reverse.findIdx? (· = .label label)).map
            (offset + (instructions.length + 1) - ·)).or
            (if instruction = .label label then some (offset + 1)
              else targets.resolve label) := by
        rw [← length]
        cases instruction with
        | label id =>
            rw [enter_label, ih, resolve, Dict.get?_insert]
            simp only [Instruction.label.injEq, eq_comm]
            rfl
        | _ => exact ih targets (offset + 1)
      rw [entered, List.reverse_cons, List.findIdx?_append, List.length_reverse, List.length_cons]
      by_cases here : instruction = .label label
      · cases found : instructions.reverse.findIdx? (· = .label label) with
        | none => simp [here, List.findIdx?_cons]; omega
        | some index => simp
      · simp [here, List.findIdx?_cons]

theorem resolve_ofScript (script : Script) (label : String) :
    (ofScript script).resolve label = script.past? label := by
  have resolved := resolve_enter script.instructions .empty 0 label
  have empty : resolve .empty label = none := rfl
  rw [empty, Option.or_none, Nat.zero_add] at resolved
  exact resolved

end Targets

namespace Script

variable {script : Script} {visits : List Visit}

theorem after_unselected {offset : Nat} {instruction : Instruction}
    (found : script.get? offset = some instruction) :
    script.after ⟨offset, none⟩ = instruction.successor (.ofScript script) offset := by
  unfold after leap?
  rw [found]
  cases instruction with
  | jump label => exact congrArg (·.getD (offset + 1)) (Targets.resolve_ofScript script label).symm
  | _ => rfl

theorem after_selected {offset index : Nat} {options : List ChoiceOption} {option : ChoiceOption}
    (found : script.get? offset = some (.choice options))
    (selected : options[index]? = some option) :
    script.after ⟨offset, some index⟩ =
      (option.target.bind (Targets.resolve (.ofScript script))).getD (offset + 1) := by
  have targets : Targets.resolve (.ofScript script) = script.past? :=
    funext (Targets.resolve_ofScript script)
  simp only [after, leap?, found, targets, Option.bind_eq_bind, Option.bind_some, selected]

theorem not_ended_cons {visit : Visit} {instruction : Instruction}
    (found : script.get? visit.offset = some instruction) (goesOn : instruction ≠ .ending) :
    ¬script.Ended (visit :: visits) := by
  rintro ⟨_, ⟨⟩, ended⟩
  exact goesOn (Option.some.inj (found.symm.trans ended))

theorem Route.select {visit : Visit} (route : script.Route (visit :: visits)) (index : Nat) :
    script.Route ({ visit with selected := some index } :: visits) := by
  cases route with
  | visit selected route unended inside => exact .visit _ route unended inside

theorem Route.first (route : script.Route visits) (visited : visits ≠ []) :
    (visits.map (·.offset)).getLast? = some 0 := by
  induction route with
  | start => exact absurd rfl visited
  | @visit visits selected route unended inside ih =>
      cases visits with
      | nil => rfl
      | cons visit visits =>
          rw [List.map_cons, List.map_cons, List.getLast?_cons_cons]
          exact ih (List.cons_ne_nil _ _)

/-- Without a jump the instructions are visited in the order of the script. -/
theorem Route.straight (route : script.Route visits)
    (straight : ∀ visit ∈ visits, script.leap? visit = none) :
    script.next visits = visits.length ∧
      visits.reverse.map (·.offset) = List.range visits.length := by
  induction route with
  | start => exact ⟨rfl, rfl⟩
  | @visit visits selected route unended inside ih =>
      obtain ⟨next, offsets⟩ := ih fun visit member => straight visit (.tail _ member)
      have leaps := straight _ List.mem_cons_self
      rw [next] at leaps ⊢
      constructor
      · simp only [Script.next, after, leaps, Option.getD_none, List.length_cons]
      · rw [List.reverse_cons, List.map_append, offsets, List.length_cons, List.range_succ]
        rfl

def Grows (script : Script) (visits later : List Visit) : Prop :=
  visits.length ≤ later.length ∧
    ∀ visit ∈ visits, script.leap? visit ≠ none → ∃ other ∈ later, script.leap? other ≠ none

theorem Grows.refl (visits : List Visit) : script.Grows visits visits :=
  ⟨Nat.le_refl _, fun visit member leaps => ⟨visit, member, leaps⟩⟩

theorem Grows.trans {first second third : List Visit} (before : script.Grows first second)
    (after : script.Grows second third) : script.Grows first third := by
  refine ⟨Nat.le_trans before.1 after.1, fun visit member leaps => ?_⟩
  obtain ⟨other, member, leaps⟩ := before.2 visit member leaps
  exact after.2 other member leaps

theorem Grows.of_suffix {later : List Visit} (suffix : visits <:+ later) :
    script.Grows visits later :=
  ⟨suffix.length_le, fun visit member leaps => ⟨visit, suffix.subset member, leaps⟩⟩

theorem Grows.straight {later : List Visit} (grows : script.Grows visits later)
    (straight : ∀ visit ∈ later, script.leap? visit = none) :
    ∀ visit ∈ visits, script.leap? visit = none := by
  intro visit member
  by_contra leaps
  obtain ⟨other, member, leaps⟩ := grows.2 visit member leaps
  exact leaps (straight other member)

end Script

namespace Interpreter

/-! ## Visits -/

def visitsSince (interpreter earlier : Interpreter) : List Visit :=
  (interpreter.eventsSince earlier).foldl Event.visit []

theorem visitsSince_of_history {earlier before after : Interpreter} {events : List Event}
    (begun : earlier.history.toList <+: before.history.toList)
    (history : after.history.toList = before.history.toList ++ events) :
    after.visitsSince earlier = events.foldl Event.visit (before.visitsSince earlier) := by
  obtain ⟨since, same⟩ := begun
  have all : after.history.toList = earlier.history.toList ++ (since ++ events) := by
    rw [history, ← same, List.append_assoc]
  rw [visitsSince, visitsSince, eventsSince_eq same.symm, eventsSince_eq all, List.foldl_append]

structure Idles (before after : Interpreter) : Prop where
  script : after.script = before.script
  targets : after.targets = before.targets
  history : ∃ events, after.history.toList = before.history.toList ++ events ∧
    ∀ visits, events.foldl Event.visit visits = visits

namespace Idles

theorem nothing {before after : Interpreter} (script : after.script = before.script)
    (targets : after.targets = before.targets) (history : after.history = before.history) :
    Idles before after :=
  ⟨script, targets, [], by simp [history], fun _ => rfl⟩

theorem trans {first second third : Interpreter} (before : Idles first second)
    (after : Idles second third) : Idles first third := by
  obtain ⟨script, targets, earlier, history, idle⟩ := before
  obtain ⟨script', targets', later, history', idle'⟩ := after
  refine ⟨script'.trans script, targets'.trans targets, earlier ++ later, ?_, fun visits => ?_⟩
  · rw [history', history, List.append_assoc]
  · rw [List.foldl_append, idle, idle']

theorem performs {script : Script} {before after : Interpreter} (idles : Idles before after)
    (performs : Performs script before) : Performs script after :=
  ⟨idles.targets.trans performs.targets, idles.script.trans performs.script⟩

theorem give (cue : Cue) (interpreter : Interpreter) : Idles interpreter (interpreter.give cue) :=
  ⟨rfl, rfl, [.cue cue], Array.toList_push, fun _ => rfl⟩

theorem note {noted : Note} (idle : ∀ visits, (Event.note noted).visit visits = visits)
    (interpreter : Interpreter) : Idles interpreter (interpreter.note noted) :=
  ⟨rfl, rfl, [.note noted], Array.toList_push, idle⟩

theorem report (diagnostic : Diagnostic) (interpreter : Interpreter) :
    Idles interpreter (interpreter.report diagnostic) :=
  ⟨rfl, rfl, [.note (.problem diagnostic)], Array.toList_push, fun _ => rfl⟩

theorem jump (offset : Nat) (label : String) (interpreter : Interpreter) :
    Idles interpreter (interpreter.jump offset label) := by
  unfold Interpreter.jump
  split
  · exact (note (fun _ => rfl) _).trans (.nothing rfl rfl rfl)
  · exact .report _ _

end Idles

section Effects

variable {allowed : Diagnostic → Prop} {before after : Interpreter}

theorem visit_of_isQuiet {noted : Note} (quiet : noted.isQuiet) (visits : List Visit) :
    (Event.note noted).visit visits = visits := by
  cases noted with
  | executing offset kind => cases quiet
  | choiceSelected index text => cases quiet
  | _ => rfl

theorem Cued.idles (cued : Cued allowed before after) : Idles before after := by
  induction cued with
  | refl interpreter => exact .nothing rfl rfl rfl
  | trans _ _ first second => exact first.trans second
  | give cue interpreter => exact .give _ _
  | note quiet interpreter => exact .note (visit_of_isQuiet quiet) _
  | report _ interpreter => exact .report _ _

theorem Effects.idles (effects : Effects allowed before after) : Idles before after := by
  induction effects with
  | cued cued => exact cued.idles
  | scene scene interpreter => exact .nothing rfl rfl rfl
  | trans _ _ first second => exact first.trans second

theorem Unchanged.idles (unchanged : Unchanged before after) : Idles before after :=
  (unchanged.cued fun _ => True).idles

end Effects

theorem execute_idles (stage : Stage) (offset : Nat) (instruction : Instruction)
    (interpreter : Interpreter) :
    Idles interpreter (interpreter.execute stage offset instruction).2 := by
  have settled (settles : instruction.settles) :
      Idles interpreter (interpreter.execute stage offset instruction).2 := by
    obtain ⟨staged, time, outcome, effects⟩ :=
      settles_effects interpreter stage interpreter.targets offset settles
    rw [outcome]
    exact effects.idles.trans (.nothing rfl rfl rfl)
  cases instruction with
  | label id => exact .note (fun _ => rfl) _
  | say speaker text => exact (Idles.give _ _).trans (.nothing rfl rfl rfl)
  | choice options =>
      cases options with
      | nil => exact .report _ _
      | cons option options =>
          exact (Idles.note (fun _ => rfl) _).trans ((Idles.give _ _).trans (.nothing rfl rfl rfl))
  | jump label => exact .jump _ _ _
  | ending =>
      exact (Idles.note (fun _ => rfl) _).trans <| (Idles.give _ _).trans <|
        (Idles.give _ _).trans <| (Idles.give _ _).trans (.nothing rfl rfl rfl)
  | unknown => exact .report _ _
  | _ => exact settled rfl

theorem executed_pc {stage : Stage} {before after : Interpreter} {instruction : Instruction}
    {flow : Flow}
    (outcome : (before.fetch instruction).execute stage before.pc instruction = (flow, after)) :
    after.pc = instruction.successor before.targets before.pc := by
  cases executed_of_eq outcome with
  | passed passes passed => exact execute_pc passes outcome
  | @settling _ staged time settles same =>
      have successor : instruction.successor before.targets before.pc = before.pc + 1 := by
        cases instruction <;> first | rfl | cases settles
      rw [successor]
      exact same.pc
  | revealing speaker text name time => rfl
  | presenting options nonempty => rfl
  | finishing endText => rfl

/-! ## On the route -/

structure OnRoute (script : Script) (earlier interpreter : Interpreter) : Prop where
  performs : Performs script interpreter
  begun : earlier.history.toList <+: interpreter.history.toList
  pc : interpreter.pc = script.next (interpreter.visitsSince earlier)
  route : script.Route (interpreter.visitsSince earlier)

structure Tracked (script : Script) (earlier interpreter : Interpreter) : Prop
    extends OnRoute script earlier interpreter where
  ended : script.Ended (interpreter.visitsSince earlier) → interpreter.phase = .ended
  past : interpreter.phase = .ended →
    script.Ended (interpreter.visitsSince earlier) ∨ script.length ≤ interpreter.pc
  choice : interpreter.phase = .awaitingChoice → ∃ offset visits,
    interpreter.visitsSince earlier = ⟨offset, none⟩ :: visits ∧ interpreter.choiceAt = some offset

section Since

variable {script : Script} {earlier before after : Interpreter}

theorem visitsSince_of_idles (begun : earlier.history.toList <+: before.history.toList)
    (idles : Idles before after) :
    earlier.history.toList <+: after.history.toList ∧
      after.visitsSince earlier = before.visitsSince earlier := by
  obtain ⟨events, history, idle⟩ := idles.history
  refine ⟨begun.trans ⟨events, history.symm⟩, ?_⟩
  rw [visitsSince_of_history begun history, idle]

namespace OnRoute

variable (onRoute : OnRoute script earlier before)
include onRoute

theorem idles (idles : Idles before after) (pc : after.pc = before.pc) :
    OnRoute script earlier after := by
  obtain ⟨begun, visits⟩ := visitsSince_of_idles onRoute.begun idles
  refine ⟨idles.performs onRoute.performs, begun, ?_, ?_⟩
  · rw [pc, visits, onRoute.pc]
  · rw [visits]
    exact onRoute.route

theorem execute {stage : Stage} {instruction : Instruction} {flow : Flow}
    (unended : ¬script.Ended (before.visitsSince earlier))
    (found : before.script.get? before.pc = some instruction)
    (outcome : (before.fetch instruction).execute stage before.pc instruction = (flow, after)) :
    after.visitsSince earlier = ⟨before.pc, none⟩ :: before.visitsSince earlier ∧
      OnRoute script earlier after := by
  have fetches : (before.fetch instruction).history.toList =
      before.history.toList ++ [.note (.executing before.pc instruction.kind)] :=
    Array.toList_push
  have begun : earlier.history.toList <+: (before.fetch instruction).history.toList :=
    onRoute.begun.trans ⟨_, fetches.symm⟩
  have executes : Idles (before.fetch instruction) after := by
    have idles := execute_idles stage before.pc instruction (before.fetch instruction)
    rwa [outcome] at idles
  obtain ⟨begun, same⟩ := visitsSince_of_idles begun executes
  have visits : after.visitsSince earlier = ⟨before.pc, none⟩ :: before.visitsSince earlier :=
    same.trans (visitsSince_of_history onRoute.begun fetches)
  have performs : Performs script (before.fetch instruction) :=
    ⟨onRoute.performs.targets, onRoute.performs.script⟩
  rw [onRoute.performs.script] at found
  have inside : before.pc < script.length := Script.lt_length found
  refine ⟨visits, executes.performs performs, begun, ?_, ?_⟩
  · rw [visits, executed_pc outcome, onRoute.performs.targets]
    exact (Script.after_unselected found).symm
  · rw [visits]
    rw [onRoute.pc] at inside ⊢
    exact .visit none onRoute.route unended inside

theorem tracked {phase : Phase} (same : before.phase = phase)
    (apart : phase ≠ .ended ∧ phase ≠ .awaitingChoice)
    (unended : ¬script.Ended (before.visitsSince earlier)) : Tracked script earlier before :=
  ⟨onRoute, fun ended => absurd ended unended, fun ended => absurd (same.symm.trans ended) apart.1,
    fun awaiting => absurd (same.symm.trans awaiting) apart.2⟩

theorem yields {stage : Stage} {instruction : Instruction} {step : Step}
    (running : before.phase = .running) (unended : ¬script.Ended (before.visitsSince earlier))
    (found : before.script.get? before.pc = some instruction)
    (outcome : (before.fetch instruction).execute stage before.pc instruction =
      (.yield step, after)) : Tracked script earlier after := by
  obtain ⟨visits, onRoute'⟩ := onRoute.execute unended found outcome
  rw [onRoute.performs.script] at found
  have goesOn (goesOn : instruction ≠ .ending) : ¬script.Ended (after.visitsSince earlier) := by
    rw [visits]
    exact Script.not_ended_cons found goesOn
  cases executed_of_eq outcome with
  | @settling _ staged time settles same =>
      have phase : staged.phase = .running := (phase_of_clock same.clock).trans running
      exact onRoute'.tracked phase (by decide) (goesOn (by rintro rfl; cases settles))
  | revealing speaker text name time => exact onRoute'.tracked running (by decide) (goesOn nofun)
  | presenting options nonempty =>
      exact ⟨onRoute', fun ended => absurd ended (goesOn nofun), nofun,
        fun _ => ⟨before.pc, before.visitsSince earlier, visits, rfl⟩⟩
  | finishing endText =>
      have ended : script.Ended (⟨before.pc, none⟩ :: before.visitsSince earlier) :=
        ⟨_, rfl, found⟩
      rw [← visits] at ended
      exact ⟨onRoute', fun _ => rfl, fun _ => .inl ended, nofun⟩

end OnRoute

end Since

/-! ## Running -/

structure Traverses (script : Script) (earlier : Interpreter) (visits : List Visit)
    (interpreter : Interpreter) : Prop extends OnRoute script earlier interpreter where
  running : interpreter.phase = .running
  unended : ¬script.Ended (interpreter.visitsSince earlier)
  since : visits <:+ interpreter.visitsSince earlier

section Running

variable {script : Script} {earlier interpreter : Interpreter} {visits : List Visit}

theorem Traverses.passes {stage : Stage} {instruction : Instruction} {after : Interpreter}
    (traverses : Traverses script earlier visits interpreter)
    (found : interpreter.script.get? interpreter.pc = some instruction)
    (outcome : (interpreter.fetch instruction).execute stage interpreter.pc instruction =
      (.onward, after)) :
    Traverses script earlier (⟨interpreter.pc, none⟩ :: interpreter.visitsSince earlier) after := by
  obtain ⟨visited, onRoute⟩ := traverses.execute traverses.unended found outcome
  rw [traverses.performs.script] at found
  cases executed_of_eq outcome with
  | passed passes passed =>
      refine ⟨onRoute, (phase_of_clock passed.clock).trans traverses.running, ?_, ?_⟩
      · rw [visited]
        exact Script.not_ended_cons found (by rintro rfl; cases passes)
      · exact ⟨[], visited.symm⟩

theorem Traverses.weaken {fewer : List Visit}
    (traverses : Traverses script earlier visits interpreter) (since : fewer <:+ visits) :
    Traverses script earlier fewer interpreter :=
  { traverses with since := since.trans traverses.since }

theorem Traverses.ends (traverses : Traverses script earlier visits interpreter)
    (missing : interpreter.script.get? interpreter.pc = none) :
    let after := { interpreter.note (.reachedEnd interpreter.pc) with phase := .ended }
    Tracked script earlier after ∧ after.visitsSince earlier = interpreter.visitsSince earlier := by
  intro after
  have idles : Idles interpreter after :=
    (Idles.note (fun _ => rfl) _).trans (.nothing rfl rfl rfl)
  have beyond : script.length ≤ interpreter.pc := by
    rw [traverses.performs.script] at missing
    exact List.getElem?_eq_none_iff.mp missing
  exact ⟨⟨traverses.idles idles rfl, fun _ => rfl, fun _ => .inr beyond, nofun⟩,
    (visitsSince_of_idles traverses.begun idles).2⟩

theorem Traverses.stalls (traverses : Traverses script earlier visits interpreter)
    (offset : Nat) :
    let after := { interpreter.report (.stalled offset) with phase := .stopped }
    Tracked script earlier after ∧ after.visitsSince earlier = interpreter.visitsSince earlier := by
  intro after
  have idles : Idles interpreter after := (Idles.report _ _).trans (.nothing rfl rfl rfl)
  have same := (visitsSince_of_idles traverses.begun idles).2
  have unended : ¬script.Ended (after.visitsSince earlier) := by
    rw [same]
    exact traverses.unended
  exact ⟨(traverses.idles idles rfl).tracked (rfl : _ = Phase.stopped) (by decide) unended, same⟩

theorem Traverses.yields {stage : Stage} {instruction : Instruction} {step : Step}
    {after : Interpreter} (traverses : Traverses script earlier visits interpreter)
    (found : interpreter.script.get? interpreter.pc = some instruction)
    (outcome : (interpreter.fetch instruction).execute stage interpreter.pc instruction =
      (.yield step, after)) :
    Tracked script earlier after ∧
      ⟨interpreter.pc, none⟩ :: interpreter.visitsSince earlier <:+ after.visitsSince earlier := by
  obtain ⟨visited, -⟩ := traverses.execute traverses.unended found outcome
  exact ⟨traverses.toOnRoute.yields traverses.running traverses.unended found outcome, [],
    visited.symm⟩

theorem Traverses.runWithin (stage : Stage) (budget : Nat)
    (traverses : Traverses script earlier visits interpreter) :
    Tracked script earlier (interpreter.runWithin stage budget).2 ∧
      visits <:+ (interpreter.runWithin stage budget).2.visitsSince earlier := by
  apply runWithin_rule (Traverses script earlier visits)
    (fun _ next => Tracked script earlier next ∧ visits <:+ next.visitsSince earlier) budget
    interpreter traverses
  · intro next instruction flow after traverses found outcome
    have since := traverses.since.trans (List.suffix_cons ⟨next.pc, none⟩ _)
    cases flow with
    | onward => exact (traverses.passes found outcome).weaken since
    | yield step =>
        obtain ⟨tracked, visited⟩ := traverses.yields found outcome
        exact ⟨tracked, since.trans visited⟩
  · intro next traverses missing
    obtain ⟨tracked, same⟩ := traverses.ends missing
    exact ⟨tracked, same.symm ▸ traverses.since⟩
  · intro offset next traverses
    obtain ⟨tracked, same⟩ := traverses.stalls offset
    exact ⟨tracked, same.symm ▸ traverses.since⟩

theorem runUntilSuspended_none (stage : Stage)
    (missing : interpreter.script.get? interpreter.pc = none) :
    interpreter.runUntilSuspended stage =
      (.ended, { interpreter.note (.reachedEnd interpreter.pc) with phase := .ended }) := by
  unfold runUntilSuspended
  cases interpreter.script.length <;> exact dispatch_none missing

/-- The run goes on right where its visits lead, or ends there. -/
structure GoesOn (stage : Stage) (script : Script) (earlier interpreter : Interpreter) : Prop where
  tracked : Tracked script earlier (interpreter.runUntilSuspended stage).2
  inside : interpreter.pc < script.length →
    ⟨interpreter.pc, none⟩ :: interpreter.visitsSince earlier <:+
      (interpreter.runUntilSuspended stage).2.visitsSince earlier
  beyond : script.length ≤ interpreter.pc → (interpreter.runUntilSuspended stage).1 = .ended ∧
    (interpreter.runUntilSuspended stage).2.phase = .ended ∧
    (interpreter.runUntilSuspended stage).2.visitsSince earlier = interpreter.visitsSince earlier

theorem Traverses.goesOn (stage : Stage)
    (traverses : Traverses script earlier visits interpreter) :
    GoesOn stage script earlier interpreter := by
  cases found : interpreter.script.get? interpreter.pc with
  | none =>
      obtain ⟨tracked, same⟩ := traverses.ends found
      have ended := runUntilSuspended_none stage found
      rw [traverses.performs.script] at found
      have beyond := List.getElem?_eq_none_iff.mp found
      constructor
      · rwa [ended]
      · exact fun inside => absurd inside (Nat.not_lt.mpr beyond)
      · intro _
        rw [ended]
        exact ⟨rfl, rfl, same⟩
  | some instruction =>
      have reaches : Tracked script earlier (interpreter.runUntilSuspended stage).2 ∧
          ⟨interpreter.pc, none⟩ :: interpreter.visitsSince earlier <:+
            (interpreter.runUntilSuspended stage).2.visitsSince earlier := by
        unfold runUntilSuspended
        generalize interpreter.script.length = budget
        rcases outcome : (interpreter.fetch instruction).execute stage interpreter.pc instruction
          with ⟨flow, next⟩
        cases flow with
        | yield step =>
            cases budget <;> simp only [Interpreter.runWithin, dispatch_some found, outcome] <;>
              exact traverses.yields found outcome
        | onward =>
            have passes := traverses.passes found outcome
            cases budget with
            | zero =>
                simp only [Interpreter.runWithin, dispatch_some found, outcome]
                obtain ⟨tracked, same⟩ := passes.stalls interpreter.pc
                exact ⟨tracked, same.symm ▸ passes.since⟩
            | succ budget =>
                simp only [Interpreter.runWithin, dispatch_some found, outcome]
                exact passes.runWithin stage budget
      rw [traverses.performs.script] at found
      have inside := Script.lt_length found
      exact ⟨reaches.1, fun _ => reaches.2, fun beyond => absurd inside (Nat.not_lt.mpr beyond)⟩

end Running

/-! ## Moves -/

section Moves

variable {stage : Stage} {script : Script} {earlier before after ready : Interpreter}
  {move : Move Wake} {answer : Answer}

theorem chosen_idles (offset : Nat) (option : ChoiceOption) (interpreter : Interpreter) :
    Idles interpreter (interpreter.chosen offset option) := by
  have signals : Idles interpreter (interpreter.passSignal option) :=
    (passSignal_cued option interpreter : Cued (fun _ => True) _ _).idles
  have leads : Idles (interpreter.passSignal option)
      ((interpreter.passSignal option).goWhereItLeads offset option) := by
    unfold goWhereItLeads
    split
    · exact .jump _ _ _
    · exact .nothing rfl rfl rfl
  exact signals.trans (leads.trans ((Idles.give _ _).trans (.nothing rfl rfl rfl)))

theorem tell_idles (text : String) (reveal : Reveal Nat) (interpreter : Interpreter) :
    Idles interpreter (interpreter.tell text reveal) :=
  (Idles.give _ _).trans (.nothing rfl rfl rfl)

theorem chosen_pc (offset : Nat) (option : ChoiceOption) (interpreter : Interpreter) :
    (interpreter.chosen offset option).pc =
      (option.target.bind interpreter.targets.resolve).getD interpreter.pc := by
  have staged := passSignal_staged option interpreter
  have leads : (interpreter.chosen offset option).pc =
      ((interpreter.passSignal option).goWhereItLeads offset option).pc := rfl
  rw [leads, goWhereItLeads, ← staged.targets, ← staged.pc]
  cases option.target with
  | none => rfl
  | some label => exact jump_pc ..

theorem Resumes.makeMove_eq (resumes : Resumes before move ready) :
    before.makeMove stage move =
      (.step (ready.runUntilSuspended stage).1, (ready.runUntilSuspended stage).2) := by
  cases resumes with
  | advance awaiting =>
      simp only [makeMove, Interpreter.advance, awaiting, ↓reduceIte]
      rfl
  | select awaiting asked found selected =>
      simp only [makeMove, select_eq awaiting asked found selected]
      rfl
  | settle running settling =>
      simp only [makeMove, Interpreter.wake, running, settling, ne_eq, not_true_eq_false, or_self,
        ↓reduceIte]
      rfl
  | @complete ticket text offset reveal options running ticked choice =>
      have found : (before.tell text reveal).script.get? (before.tell text reveal).pc =
          some (.choice options) := choice
      have shows : before.wake stage ⟨before.run, .reveal ticket⟩ =
          (before.tell text reveal).afterReveal stage offset := by
        simp [Interpreter.wake, running, tick, ticked, tell]
      simp only [makeMove, shows, afterReveal, found]
      rfl

theorem Tracked.traverses (tracked : Tracked script earlier before)
    (resumes : Resumes before move ready) :
    Traverses script earlier [] ready ∧
      ready.visitsSince earlier = move.mark (before.visitsSince earlier) := by
  have unended (goesOn : before.phase ≠ .ended) : ¬script.Ended (before.visitsSince earlier) :=
    fun ended => goesOn (tracked.ended ended)
  cases resumes with
  | advance awaiting =>
      have idles : Idles before { before with phase := .running } := .nothing rfl rfl rfl
      have same := (visitsSince_of_idles tracked.begun idles).2
      have unended := unended (by simp [awaiting])
      exact ⟨⟨tracked.idles idles rfl, rfl, same ▸ unended, List.nil_suffix⟩, same⟩
  | @select index offset options option awaiting asked found selected =>
      obtain ⟨offset', visits, visited, asked'⟩ := tracked.choice awaiting
      cases asked.symm.trans asked'
      rw [tracked.performs.script] at found
      let noted := before.note (.choiceSelected index option.text)
      have notes : noted.history.toList =
          before.history.toList ++ [.note (.choiceSelected index option.text)] := Array.toList_push
      have begun : earlier.history.toList <+: noted.history.toList :=
        tracked.begun.trans ⟨_, notes.symm⟩
      have marked : noted.visitsSince earlier = ⟨offset, some index⟩ :: visits := by
        rw [visitsSince_of_history tracked.begun notes, visited]
        rfl
      have takes : Idles noted (noted.chosen offset option) := chosen_idles ..
      obtain ⟨begun, same⟩ := visitsSince_of_idles begun takes
      have performs : Performs script noted := ⟨tracked.performs.targets, tracked.performs.script⟩
      have route : script.Route (⟨offset, some index⟩ :: visits) :=
        (visited ▸ tracked.route).select index
      have pc : (noted.chosen offset option).pc = script.after ⟨offset, some index⟩ := by
        have behind : noted.pc = offset + 1 := by
          refine tracked.pc.trans ?_
          rw [visited]
          exact Script.after_unselected found
        rw [chosen_pc, Script.after_selected found selected, performs.targets, behind]
      refine ⟨⟨⟨takes.performs performs, begun, ?_, ?_⟩, rfl, ?_, List.nil_suffix⟩, ?_⟩
      · rw [pc, same, marked]
        rfl
      · rwa [same, marked]
      · rw [same, marked]
        exact Script.not_ended_cons found nofun
      · rw [same, marked, visited]
        rfl
  | @settle sequence running settling =>
      have idles : Idles before { before with settling := none } := .nothing rfl rfl rfl
      have same := (visitsSince_of_idles tracked.begun idles).2
      have unended := unended (by simp [running])
      exact ⟨⟨tracked.idles idles rfl, running, same ▸ unended, List.nil_suffix⟩, same⟩
  | @complete ticket text offset reveal options running ticked choice =>
      have idles : Idles before ((before.tell text reveal).note (.leadsIntoChoice offset)) :=
        (tell_idles text reveal before).trans (.note (fun _ => rfl) _)
      have same := (visitsSince_of_idles tracked.begun idles).2
      have unended := unended (by simp [running])
      exact ⟨⟨tracked.idles idles rfl, running, same ▸ unended, List.nil_suffix⟩, same⟩

theorem Tracked.idles (tracked : Tracked script earlier before) (idles : Idles before after)
    (pc : after.pc = before.pc) (phase : after.phase = before.phase)
    (choiceAt : after.choiceAt = before.choiceAt) : Tracked script earlier after := by
  have same := (visitsSince_of_idles tracked.begun idles).2
  refine ⟨tracked.toOnRoute.idles idles pc, ?_, ?_, ?_⟩
  · rw [same, phase]
    exact tracked.ended
  · rw [same, phase, pc]
    exact tracked.past
  · rw [same, phase, choiceAt]
    exact tracked.choice

theorem Tracked.makeMove (stage : Stage) (tracked : Tracked script earlier before)
    (move : Move Wake) :
    Tracked script earlier (before.makeMove stage move).2 ∧
      ((∃ ready, Resumes before move ready) ∨
        (before.makeMove stage move).2.visitsSince earlier = before.visitsSince earlier) := by
  have still {after : Interpreter} (idles : Idles before after) :
      after.visitsSince earlier = before.visitsSince earlier :=
    (visitsSince_of_idles tracked.begun idles).2
  rcases outcome : before.makeMove stage move with ⟨answer, after⟩
  cases moved_of_eq outcome with
  | ignored unchanged =>
      have same := unchanged.toMachine
      exact ⟨tracked.idles unchanged.idles (congrArg (·.pc) same) (congrArg (·.phase) same)
        (congrArg (·.choiceAt) same), .inr (still unchanged.idles)⟩
  | @refused index offset options awaiting asked found missing =>
      have idles : Idles before (before.note (.choiceOutOfRange index offset options.length)) :=
        .note (fun _ => rfl) _
      exact ⟨tracked.idles idles rfl rfl rfl, .inr (still idles)⟩
  | resumed resumes =>
      have traverses := (tracked.traverses resumes).1
      exact ⟨(traverses.goesOn stage).tracked, .inl ⟨_, resumes⟩⟩
  | @revealing ticket next text reveal running ticked =>
      have idles := tell_idles text reveal before
      exact ⟨tracked.idles idles rfl rfl rfl, .inr (still idles)⟩
  | @revealed ticket text offset reveal after running ticked apart unchanged =>
      have idles : Idles before { after with phase := .awaitingAdvance } :=
        (tell_idles text reveal before).trans (unchanged.idles.trans (.nothing rfl rfl rfl))
      have pc : after.pc = before.pc := congrArg (·.pc) unchanged.toMachine
      have unended : ¬script.Ended (before.visitsSince earlier) := fun ended => by
        cases running.symm.trans (tracked.ended ended)
      refine ⟨(tracked.toOnRoute.idles idles pc).tracked (rfl : _ = Phase.awaitingAdvance)
        (by decide) ?_, .inr (still idles)⟩
      rwa [still idles]
  | stopped running =>
      have idles : Idles before { before.note (.stopped before.pc) with
          phase := .stopped
          reveal := before.reveal.cancel
          settling := none } :=
        (Idles.note (fun _ => rfl) before).trans (.nothing rfl rfl rfl)
      have unended : ¬script.Ended (before.visitsSince earlier) := fun ended => by
        simp [tracked.ended ended, Phase.isRunning, Phase.isSuspended] at running
      refine ⟨(tracked.toOnRoute.idles idles rfl).tracked (rfl : _ = Phase.stopped)
        (by decide) ?_, .inr (still idles)⟩
      rwa [still idles]
  | rested resting => exact ⟨tracked, .inr rfl⟩

theorem Tracked.mark_grows (tracked : Tracked script earlier before)
    (resumes : Resumes before move ready) :
    script.Grows (before.visitsSince earlier) (move.mark (before.visitsSince earlier)) := by
  cases resumes with
  | @select index offset options option awaiting asked found selected =>
      obtain ⟨offset', visits, visited, asked'⟩ := tracked.choice awaiting
      cases asked.symm.trans asked'
      rw [tracked.performs.script] at found
      -- Before an option was selected, its choice did not lead anywhere else.
      have straight : script.leap? ⟨offset, none⟩ = none := by
        simp only [Script.leap?, found]
        rfl
      rw [visited]
      refine ⟨Nat.le_refl _, fun visit member leaps => ?_⟩
      rcases List.mem_cons.mp member with rfl | member
      · exact absurd straight leaps
      · exact ⟨visit, .tail _ member, leaps⟩
  | _ => exact .refl _

theorem Tracked.makeMove_grows (stage : Stage) (tracked : Tracked script earlier before)
    (move : Move Wake) :
    script.Grows (before.visitsSince earlier)
      ((before.makeMove stage move).2.visitsSince earlier) := by
  rcases (tracked.makeMove stage move).2 with ⟨ready, resumes⟩ | same
  · obtain ⟨traverses, marked⟩ := tracked.traverses resumes
    have goesOn := traverses.goesOn stage
    have grows := tracked.mark_grows resumes
    rw [resumes.makeMove_eq]
    rw [← marked] at grows
    rcases Nat.lt_or_ge ready.pc script.length with inside | beyond
    · exact grows.trans (.of_suffix ((List.suffix_cons _ _).trans (goesOn.inside inside)))
    · rwa [(goesOn.beyond beyond).2.2]
  · rw [same]
    exact .refl _

theorem Tracked.afterMoves (stage : Stage) (tracked : Tracked script earlier before)
    (moves : List (Move Wake)) :
    Tracked script earlier (before.afterMoves stage moves) ∧
      script.Grows (before.visitsSince earlier)
        ((before.afterMoves stage moves).visitsSince earlier) := by
  induction moves generalizing before with
  | nil => exact ⟨tracked, .refl _⟩
  | cons move moves ih =>
      obtain ⟨after, grows⟩ := ih (tracked.makeMove stage move).1
      exact ⟨after, (tracked.makeMove_grows stage move).trans grows⟩

end Moves

/-! ## Whole runs -/

/-- The way a run has taken, and how it goes on. -/
structure Itinerary (stage : Stage) (script : Script) (earlier interpreter : Interpreter) :
    Prop where
  route : script.Route (interpreter.visitsSince earlier)
  pc : interpreter.pc = script.next (interpreter.visitsSince earlier)
  begins : ((interpreter.visitsSince earlier).map (·.offset)).getLast? =
    if script.length = 0 then none else some 0
  ended : interpreter.phase = .ended →
    script.Ended (interpreter.visitsSince earlier) ∨ script.length ≤ interpreter.pc
  rests : ∀ move, (∀ ready, ¬Resumes interpreter move ready) →
    (interpreter.makeMove stage move).2.visitsSince earlier = interpreter.visitsSince earlier
  resumes : ∀ {move ready}, Resumes interpreter move ready →
    let marked := move.mark (interpreter.visitsSince earlier)
    let (answer, after) := interpreter.makeMove stage move
    if script.next marked < script.length then
      ⟨script.next marked, none⟩ :: marked <:+ after.visitsSince earlier
    else answer = .step .ended ∧ after.phase = .ended ∧ after.visitsSince earlier = marked
  straight : (∀ visit ∈ interpreter.visitsSince earlier, script.leap? visit = none) →
    (interpreter.visitsSince earlier).reverse.map (·.offset) = List.range interpreter.pc

theorem Tracked.itinerary (stage : Stage) {script : Script} {earlier interpreter : Interpreter}
    (tracked : Tracked script earlier interpreter)
    (begins : script.length = 0 ∨ interpreter.visitsSince earlier ≠ []) :
    Itinerary stage script earlier interpreter where
  route := tracked.route
  pc := tracked.pc
  begins := by
    split
    · next empty =>
        have route := tracked.route
        generalize interpreter.visitsSince earlier = visits at route ⊢
        cases route with
        | start => rfl
        | visit selected route unended inside => rw [empty] at inside; cases inside
    · next nonempty => exact tracked.route.first (begins.resolve_left nonempty)
  ended := tracked.past
  rests move rests := (tracked.makeMove stage move).2.resolve_left fun ⟨ready, resumes⟩ =>
    rests ready resumes
  resumes {move ready} resumes := by
    obtain ⟨traverses, marked⟩ := tracked.traverses resumes
    have goesOn := traverses.goesOn stage
    have pc := traverses.pc
    rw [marked] at pc
    simp only [resumes.makeMove_eq]
    rw [← pc, ← marked]
    split
    · next inside => exact goesOn.inside inside
    · next outside =>
        obtain ⟨step, phase, visits⟩ := goesOn.beyond (Nat.not_lt.mp outside)
        exact ⟨congrArg Answer.step step, phase, visits⟩
  straight straight := by
    obtain ⟨next, offsets⟩ := tracked.route.straight straight
    rw [tracked.pc, next]
    exact offsets

theorem begin_traverses (script : Script) (earlier : Interpreter) :
    Traverses script earlier [] (earlier.begin script) ∧
      (earlier.begin script).visitsSince earlier = [] := by
  let redefinitions := (Targets.redefinitions script).map fun redefinition =>
    Event.note (.redefined redefinition)
  let started := Event.note
    (.started (earlier.run + 1) script.length (Targets.ofScript script).size)
  have history : (earlier.begin script).history.toList =
      earlier.history.toList ++ (redefinitions ++ [started]) := by
    simp [begin, reset, note, redefinitions, started]
  have redefines : redefinitions.foldl Event.visit [] = [] := by
    rw [List.foldl_map]
    exact List.foldl_fixed' (fun _ => rfl) _
  have visits : (earlier.begin script).visitsSince earlier = [] := by
    rw [visitsSince, eventsSince_eq history, List.foldl_append, redefines]
    rfl
  refine ⟨⟨⟨⟨rfl, rfl⟩, ⟨_, history.symm⟩, ?_, ?_⟩, rfl, ?_, List.nil_suffix⟩, visits⟩
  · rw [visits]
    rfl
  · rw [visits]
    exact .start
  · rw [visits]
    rintro ⟨visit, none, -⟩
    cases none

theorem start_tracked (stage : Stage) (script : Script) (earlier : Interpreter) :
    Tracked script earlier (earlier.start stage script).2 ∧
      (script.length = 0 ∨ (earlier.start stage script).2.visitsSince earlier ≠ []) := by
  obtain ⟨traverses, none⟩ := begin_traverses script earlier
  have goesOn := traverses.goesOn stage
  refine ⟨goesOn.tracked, (Nat.eq_zero_or_pos script.length).imp_right fun nonempty visits => ?_⟩
  have visited := goesOn.inside nonempty
  rw [← start_eq, visits] at visited
  exact absurd (List.suffix_nil.mp visited) (List.cons_ne_nil _ _)

/-- Whatever comes after the start, a run follows its script: it begins with the first instruction
and goes on where the last one leads. As long as none leads elsewhere, all instructions are executed
in order, and the run never goes back. -/
theorem route_followed (stage : Stage) (script : Script) (earlier : Interpreter)
    (moves more : List (Move Wake)) :
    let interpreter := (earlier.start stage script).2.afterMoves stage moves
    let later := interpreter.afterMoves stage more
    Itinerary stage script earlier interpreter ∧
      ((∀ visit ∈ later.visitsSince earlier, script.leap? visit = none) →
        interpreter.pc ≤ later.pc) := by
  intro interpreter later
  obtain ⟨started, begins⟩ := start_tracked stage script earlier
  obtain ⟨tracked, grown⟩ := started.afterMoves stage moves
  obtain ⟨tracked', grows⟩ := tracked.afterMoves stage more
  refine ⟨tracked.itinerary stage (begins.imp_right fun visited none => ?_), fun straight => ?_⟩
  · have length := grown.1
    rw [none] at length
    exact visited (List.eq_nil_of_length_eq_zero (Nat.le_zero.mp length))
  · have now := (tracked.route.straight (grows.straight straight)).1
    have then' := (tracked'.route.straight straight).1
    rw [tracked.pc, tracked'.pc, now, then']
    exact grows.1

-- The option leads just past the second of two labels, and selecting it once more changes nothing.
example :
    let stage : Stage := ⟨{}, .standard, .accepting⟩
    let script : Script := ⟨[.choice [⟨"Leave", some "out", none⟩], .label "out", .unknown,
      .label "out", .ending]⟩
    ((fresh.start stage script).2.afterMoves stage [.select 0, .select 0]).visitsSince fresh =
      [⟨4, none⟩, ⟨0, some 0⟩] := by
  decide +kernel

end Interpreter

end VisualNovel
