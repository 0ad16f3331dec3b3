import VisualNovel.Proofs.Effects

/-!
What executing instructions can do to an interpreter.

* `executed`: one instruction passes on, has the stage settle, begins a reveal, presents a choice or
  ends the run, and touches nothing else.
* `runUntilSuspended_rule`: what every instruction that passes on preserves holds when the run is
  suspended, ends or stalls.
-/

namespace VisualNovel

def Instruction.passesOn : Instruction → Bool
  | .label _ | .jump _ | .choice [] | .unknown => true
  | _ => false

namespace Interpreter

/-! ## Cues, notes and diagnostics -/

variable (cue : Cue) (noted : Note) (interpreter : Interpreter)

@[simp] theorem note_toMachine : (interpreter.note noted).toMachine = interpreter.toMachine := rfl

@[simp] theorem note_history :
    (interpreter.note noted).history = interpreter.history.push (.note noted) := rfl

@[simp] theorem give_history :
    (interpreter.give cue).history = interpreter.history.push (.cue cue) := rfl

/-! ## What timers are about -/

structure Clock where
  phase : Phase
  run : Nat
  timers : Nat
  settling : Option Nat
  reveal : Reveal Nat
  begun : Nat

def clock (interpreter : Interpreter) : Clock :=
  ⟨interpreter.phase, interpreter.run, interpreter.timers, interpreter.settling,
    interpreter.reveal, interpreter.timersBegun⟩

theorem clock_eq_of_history {before after : Interpreter} {event : Event}
    (machine : after.toMachine = { before.toMachine with
      pc := after.pc, scene := after.scene, choiceAt := after.choiceAt,
      diagnostics := after.diagnostics, script := after.script, targets := after.targets })
    (history : after.history = before.history.push event) (silent : event.beginsTimer = false) :
    after.clock = before.clock := by
  unfold clock timersBegun
  rw [machine, history]
  simp [silent]

section SameClock

variable {before after : Interpreter} (same : after.clock = before.clock)
include same

theorem phase_of_clock : after.phase = before.phase :=
  congrArg Clock.phase same

theorem settling_of_clock : after.settling = before.settling :=
  congrArg Clock.settling same

theorem active_of_clock : after.reveal.active = before.reveal.active :=
  congrArg (fun clock => clock.reveal.active) same

end SameClock

/-! ## What effects on the stage leave alone -/

/-- Only the scene, the history and the diagnostics differ, and no timer has begun. -/
structure Staged (before after : Interpreter) : Prop where
  clock : after.clock = before.clock
  script : after.script = before.script
  targets : after.targets = before.targets
  pc : after.pc = before.pc
  choiceAt : after.choiceAt = before.choiceAt

namespace Staged

theorem refl (interpreter : Interpreter) : Staged interpreter interpreter :=
  ⟨rfl, rfl, rfl, rfl, rfl⟩

theorem trans {first second third : Interpreter} (before : Staged first second)
    (after : Staged second third) : Staged first third :=
  ⟨after.clock.trans before.clock, after.script.trans before.script,
    after.targets.trans before.targets, after.pc.trans before.pc,
    after.choiceAt.trans before.choiceAt⟩

theorem give (cue : Cue) (interpreter : Interpreter) : Staged interpreter (interpreter.give cue) :=
  ⟨clock_eq_of_history rfl rfl rfl, rfl, rfl, rfl, rfl⟩

theorem report (diagnostic : Diagnostic) (interpreter : Interpreter) :
    Staged interpreter (interpreter.report diagnostic) :=
  ⟨clock_eq_of_history rfl rfl rfl, rfl, rfl, rfl, rfl⟩

theorem note {noted : Note} (silent : (Event.note noted).beginsTimer = false)
    (interpreter : Interpreter) : Staged interpreter (interpreter.note noted) :=
  ⟨clock_eq_of_history rfl rfl silent, rfl, rfl, rfl, rfl⟩

theorem scene (scene : Scene) (interpreter : Interpreter) :
    Staged interpreter { interpreter with scene := scene } :=
  ⟨rfl, rfl, rfl, rfl, rfl⟩

end Staged

theorem beginsTimer_of_isQuiet {noted : Note} (quiet : noted.isQuiet) :
    (Event.note noted).beginsTimer = false := by
  cases noted with
  | executing offset kind => cases quiet
  | _ => rfl

section Effects

variable {allowed : Diagnostic → Prop} {before after : Interpreter}

theorem Cued.staged (cued : Cued allowed before after) : Staged before after := by
  induction cued with
  | refl interpreter => exact .refl _
  | trans _ _ first second => exact first.trans second
  | give cue interpreter => exact .give _ _
  | note quiet interpreter => exact .note (beginsTimer_of_isQuiet quiet) _
  | report _ interpreter => exact .report _ _

theorem Cued.scene (cued : Cued allowed before after) : after.scene = before.scene := by
  induction cued with
  | trans _ _ first second => exact second.trans first
  | _ => rfl

theorem requestMusic_scene (stage : Stage) (interpreter : Interpreter) (asset : String)
    (looping : Bool) :
    (interpreter.requestMusic stage asset looping).scene = interpreter.scene := by
  have cued : Cued (fun _ => True) interpreter (interpreter.requestMusic stage asset looping) :=
    requestMusic_cued _ _ _ _ fun _ => trivial
  exact cued.scene

theorem Effects.staged (effects : Effects allowed before after) : Staged before after := by
  induction effects with
  | cued cued => exact cued.staged
  | scene scene interpreter => exact .scene _ _
  | trans _ _ first second => exact first.trans second

end Effects

/-! ## What one instruction comes to -/

structure Passed (before after : Interpreter) : Prop where
  clock : after.clock = before.clock
  script : after.script = before.script
  targets : after.targets = before.targets
  scene : after.scene = before.scene
  choiceAt : after.choiceAt = before.choiceAt
  cues : after.cues = before.cues
  pc : after.pc = before.pc ∨ ∃ label, before.targets.resolve label = some after.pc

theorem cues_eq_of_history {before after : Interpreter} {noted : Note}
    (history : after.history = before.history.push (.note noted)) : after.cues = before.cues := by
  simp [cues, history, Event.cue?]

theorem cues_give (cue : Cue) (interpreter : Interpreter) :
    (interpreter.give cue).cues = interpreter.cues ++ [cue] := by
  simp [cues, Event.cue?]

namespace Passed

theorem refl (interpreter : Interpreter) : Passed interpreter interpreter :=
  ⟨rfl, rfl, rfl, rfl, rfl, rfl, .inl rfl⟩

theorem note {noted : Note} (silent : (Event.note noted).beginsTimer = false)
    (interpreter : Interpreter) : Passed interpreter (interpreter.note noted) :=
  ⟨clock_eq_of_history rfl rfl silent, rfl, rfl, rfl, rfl, cues_eq_of_history rfl, .inl rfl⟩

theorem report (diagnostic : Diagnostic) (interpreter : Interpreter) :
    Passed interpreter (interpreter.report diagnostic) :=
  ⟨clock_eq_of_history rfl rfl rfl, rfl, rfl, rfl, rfl, cues_eq_of_history rfl, .inl rfl⟩

theorem jump (offset : Nat) (label : String) (interpreter : Interpreter) :
    Passed interpreter (interpreter.jump offset label) := by
  unfold Interpreter.jump
  split
  · next target found =>
      exact ⟨clock_eq_of_history rfl rfl rfl, rfl, rfl, rfl, rfl, cues_eq_of_history rfl,
        .inr ⟨label, found⟩⟩
  · exact .report _ _

end Passed

inductive Executed (offset : Nat) (before : Interpreter) :
    Instruction → Flow → Interpreter → Prop where
  | passed {instruction : Instruction} {after : Interpreter} :
      instruction.passesOn → Passed before after →
      Executed offset before instruction .onward after
  | settling {instruction : Instruction} {staged : Interpreter} (time : Nat) :
      instruction.settles → Staged before staged →
      Executed offset before instruction
        (.yield (.resume time ⟨before.run, .settle (before.timers + 1)⟩))
        { staged with timers := before.timers + 1, settling := some (before.timers + 1) }
  | revealing (speaker : Option String) (text : String) (name : Option String) (time : Nat) :
      Executed offset before (.say speaker text)
        (.yield (.resume time ⟨before.run, .reveal ⟨before.reveal.generation + 1⟩⟩))
        { before.give (.showDialogue name) with
          scene.dialogue := some ⟨name, text⟩
          reveal := ⟨before.reveal.generation + 1, some ⟨text.toList, 0, offset⟩⟩ }
  | presenting (options : List ChoiceOption) : options ≠ [] →
      Executed offset before (.choice options) (.yield .awaitChoice)
        { before.note (.presentingChoices options.length offset)
            |>.give (.renderChoices (options.map (·.text))) with
          choiceAt := some offset
          phase := .awaitingChoice }
  | finishing (endText : String) :
      Executed offset before .ending (.yield .ended)
        { before.note (.finished offset)
            |>.give .clearChoices
            |>.give .clearDialogue
            |>.give (.showEnd endText) with
          phase := .ended
          reveal := before.reveal.cancel
          settling := none
          choiceAt := none
          scene.dialogue := none }

theorem settle_executed {offset : Nat} {before staged : Interpreter} {instruction : Instruction}
    (time : Nat) (settles : instruction.settles) (same : Staged before staged) :
    Executed offset before instruction (staged.settle time).1 (staged.settle time).2 := by
  have run : staged.run = before.run := congrArg Clock.run same.clock
  have timers : staged.timers = before.timers := congrArg Clock.timers same.clock
  have comes : Executed offset before instruction _ _ := .settling time settles same
  simpa only [settle, run, timers] using comes

theorem presentChoices_executed (offset : Nat) (options : List ChoiceOption)
    (interpreter : Interpreter) :
    let outcome := interpreter.presentChoices offset options
    Executed offset interpreter (.choice options) outcome.1 outcome.2 := by
  cases options with
  | nil => exact .passed rfl (.report _ _)
  | cons option options => exact .presenting _ (List.cons_ne_nil _ _)

theorem executed (stage : Stage) (offset : Nat) (instruction : Instruction)
    (interpreter : Interpreter) :
    Executed offset interpreter instruction (interpreter.execute stage offset instruction).1
      (interpreter.execute stage offset instruction).2 := by
  have settled (settles : instruction.settles) :
      Executed offset interpreter instruction (interpreter.execute stage offset instruction).1
        (interpreter.execute stage offset instruction).2 := by
    obtain ⟨staged, time, outcome, effects⟩ :=
      settles_effects interpreter stage interpreter.targets offset settles
    rw [outcome]
    exact settle_executed time settles effects.staged
  cases instruction with
  | label id => exact .passed rfl (.note rfl _)
  | say speaker text => exact .revealing ..
  | choice options => exact presentChoices_executed ..
  | jump target => exact .passed rfl (.jump _ _ _)
  | ending => exact .finishing _
  | unknown => exact .passed rfl (.report _ _)
  | _ => exact settled rfl

theorem executed_of_eq {stage : Stage} {offset : Nat} {instruction : Instruction}
    {before after : Interpreter} {flow : Flow}
    (outcome : before.execute stage offset instruction = (flow, after)) :
    Executed offset before instruction flow after := by
  have comes := executed stage offset instruction before
  rwa [outcome] at comes

/-! ## Running -/

def fetch (instruction : Instruction) (interpreter : Interpreter) : Interpreter :=
  { interpreter.note (.executing interpreter.pc instruction.kind) with pc := interpreter.pc + 1 }

theorem dispatch_none {stage : Stage} {onward : Nat → Interpreter → Step × Interpreter}
    {interpreter : Interpreter} (found : interpreter.script.get? interpreter.pc = none) :
    interpreter.dispatch stage onward =
      (.ended, { interpreter.note (.reachedEnd interpreter.pc) with phase := .ended }) := by
  simp only [dispatch, found]

theorem dispatch_some {stage : Stage} {onward : Nat → Interpreter → Step × Interpreter}
    {interpreter : Interpreter} {instruction : Instruction}
    (found : interpreter.script.get? interpreter.pc = some instruction) :
    interpreter.dispatch stage onward =
      match (interpreter.fetch instruction).execute stage interpreter.pc instruction with
      | (.yield step, next) => (step, next)
      | (.onward, next) => onward interpreter.pc next := by
  simp only [dispatch, found]
  rfl

section Rule

variable {stage : Stage} (before : Interpreter → Prop) (after : Step → Interpreter → Prop)

theorem dispatch_rule {onward : Nat → Interpreter → Step × Interpreter}
    (interpreter : Interpreter) (holds : before interpreter)
    (executes : ∀ interpreter instruction flow next, before interpreter →
      interpreter.script.get? interpreter.pc = some instruction →
      (interpreter.fetch instruction).execute stage interpreter.pc instruction = (flow, next) →
      match flow with
      | .onward => before next
      | .yield step => after step next)
    (ends : ∀ interpreter, before interpreter →
      interpreter.script.get? interpreter.pc = none →
      after .ended { interpreter.note (.reachedEnd interpreter.pc) with phase := .ended })
    (goesOn : ∀ offset interpreter, before interpreter →
      after (onward offset interpreter).1 (onward offset interpreter).2) :
    after (interpreter.dispatch stage onward).1 (interpreter.dispatch stage onward).2 := by
  cases found : interpreter.script.get? interpreter.pc with
  | none =>
      rw [dispatch_none found]
      exact ends interpreter holds found
  | some instruction =>
      rw [dispatch_some found]
      rcases outcome : (interpreter.fetch instruction).execute stage interpreter.pc instruction
        with ⟨flow, next⟩
      have kept := executes interpreter instruction flow next holds found outcome
      cases flow with
      | onward => exact goesOn _ next kept
      | yield step => exact kept

theorem runWithin_rule (budget : Nat) (interpreter : Interpreter) (holds : before interpreter)
    (executes : ∀ interpreter instruction flow next, before interpreter →
      interpreter.script.get? interpreter.pc = some instruction →
      (interpreter.fetch instruction).execute stage interpreter.pc instruction = (flow, next) →
      match flow with
      | .onward => before next
      | .yield step => after step next)
    (ends : ∀ interpreter, before interpreter →
      interpreter.script.get? interpreter.pc = none →
      after .ended { interpreter.note (.reachedEnd interpreter.pc) with phase := .ended })
    (stalls : ∀ offset interpreter, before interpreter →
      after .stopped { interpreter.report (.stalled offset) with phase := .stopped }) :
    after (interpreter.runWithin stage budget).1 (interpreter.runWithin stage budget).2 := by
  -- By induction on how often the run may still go straight on.
  induction budget generalizing interpreter with
  | zero => exact dispatch_rule before after interpreter holds executes ends stalls
  | succ budget ih =>
      exact dispatch_rule before after interpreter holds executes ends
        fun _ next holds => ih next holds

theorem runUntilSuspended_rule (interpreter : Interpreter) (holds : before interpreter)
    (executes : ∀ interpreter instruction flow next, before interpreter →
      interpreter.script.get? interpreter.pc = some instruction →
      (interpreter.fetch instruction).execute stage interpreter.pc instruction = (flow, next) →
      match flow with
      | .onward => before next
      | .yield step => after step next)
    (ends : ∀ interpreter, before interpreter →
      interpreter.script.get? interpreter.pc = none →
      after .ended { interpreter.note (.reachedEnd interpreter.pc) with phase := .ended })
    (stalls : ∀ offset interpreter, before interpreter →
      after .stopped { interpreter.report (.stalled offset) with phase := .stopped }) :
    after (interpreter.runUntilSuspended stage).1 (interpreter.runUntilSuspended stage).2 :=
  runWithin_rule before after interpreter.script.length interpreter holds executes ends stalls

end Rule

/-! ## Beginning a run -/

def begin (script : Script) (interpreter : Interpreter) : Interpreter :=
  let reset := interpreter.reset script
  { reset.note (.started reset.run script.length reset.targets.size) with phase := .running }

theorem start_eq (stage : Stage) (script : Script) (interpreter : Interpreter) :
    interpreter.start stage script = (interpreter.begin script).runUntilSuspended stage := rfl

/-! ## Taking an option -/

def passSignal (option : ChoiceOption) (interpreter : Interpreter) : Interpreter :=
  match option.signal with
  | some signal => interpreter.give (.signal signal)
  | none => interpreter

def goWhereItLeads (offset : Nat) (option : ChoiceOption) (interpreter : Interpreter) :
    Interpreter :=
  match option.target with
  | some label => interpreter.jump offset label
  | none => interpreter

def chosen (offset : Nat) (option : ChoiceOption) (interpreter : Interpreter) : Interpreter :=
  { ((interpreter.passSignal option).goWhereItLeads offset option).give .clearChoices with
    choiceAt := none
    phase := .running }

theorem takeOption_eq (stage : Stage) (offset : Nat) (option : ChoiceOption)
    (interpreter : Interpreter) :
    interpreter.takeOption stage offset option =
      (interpreter.chosen offset option).runUntilSuspended stage := rfl

theorem select_eq {interpreter : Interpreter} {offset index : Nat} {options : List ChoiceOption}
    {option : ChoiceOption} (awaiting : interpreter.phase = .awaitingChoice)
    (asked : interpreter.choiceAt = some offset)
    (found : interpreter.script.get? offset = some (.choice options))
    (selected : options[index]? = some option) (stage : Stage) :
    let chosen := (interpreter.note (.choiceSelected index option.text)).chosen offset option
    interpreter.select stage index =
      (.ok (chosen.runUntilSuspended stage).1, (chosen.runUntilSuspended stage).2) := by
  simp only [select, awaiting, asked, found, selected, ↓reduceIte]
  rfl

theorem passSignal_cued {allowed : Diagnostic → Prop} (option : ChoiceOption)
    (interpreter : Interpreter) : Cued allowed interpreter (interpreter.passSignal option) := by
  unfold passSignal
  split
  · exact .give _ _
  · exact .refl _

theorem passSignal_staged (option : ChoiceOption) (interpreter : Interpreter) :
    Staged interpreter (interpreter.passSignal option) :=
  (passSignal_cued option interpreter : Cued (fun _ => False) _ _).staged

theorem goWhereItLeads_passed (offset : Nat) (option : ChoiceOption) (interpreter : Interpreter) :
    Passed interpreter (interpreter.goWhereItLeads offset option) := by
  unfold goWhereItLeads
  split
  · exact .jump _ _ _
  · exact .refl _

end Interpreter

end VisualNovel
