import VisualNovel.Proofs.Restoring
import VisualNovel.Proofs.Moves

/-!
Runs side by side. Where two stages differ, runs on them still go the same way through their
scripts, as long as no instruction tells them apart by more than the scene, the journal and the
times that are waited.

Main statement: `Lockstep.perform`, for all operations; what has to be shown of two stages for it
is `Lockstep`.
-/

namespace VisualNovel

/-! ## Scripts apart from times -/

def Instruction.untimed : Instruction → Instruction
  | .background visible image _ => .background visible image none
  | .character id action state side _ => .character id action state side none
  | .wait _ => .wait none
  | instruction => instruction

def Script.untimed (script : Script) : Script :=
  ⟨script.instructions.map Instruction.untimed⟩

theorem Instruction.eq_of_untimed {instruction other : Instruction}
    (settles : instruction.settles = false) (untimed : instruction.untimed = other.untimed) :
    instruction = other := by
  cases instruction <;> cases other <;> simp_all [Instruction.untimed, Instruction.settles]

theorem Script.get?_untimed (script : Script) (offset : Nat) :
    script.untimed.get? offset = (script.get? offset).map Instruction.untimed :=
  List.getElem?_map ..

theorem Script.length_untimed (script : Script) : script.untimed.length = script.length :=
  List.length_map _

theorem Instruction.kind_untimed (instruction : Instruction) :
    instruction.untimed.kind = instruction.kind := by
  cases instruction <;> rfl

namespace Interpreter

/-! ## Interpreters in the same place -/

/-- What a run goes by and what it has brought about, apart from where it is. -/
structure Content where
  script : Script
  scene : Scene
  diagnostics : List Diagnostic
  history : Array Event

def content (interpreter : Interpreter) : Content :=
  ⟨interpreter.script, interpreter.scene, interpreter.diagnostics, interpreter.history⟩

structure Abreast (same : Content → Content → Prop) (here there : Interpreter) : Prop where
  script : here.script.untimed = there.script.untimed
  targets : here.targets = there.targets
  pc : here.pc = there.pc
  phase : here.phase = there.phase
  run : here.run = there.run
  timers : here.timers = there.timers
  settling : here.settling = there.settling
  reveal : here.reveal = there.reveal
  choiceAt : here.choiceAt = there.choiceAt
  content : same here.content there.content

inductive FlowsAlike (steps : Step → Step → Prop) (same : Content → Content → Prop) :
    Flow × Interpreter → Flow × Interpreter → Prop where
  | onward {here there : Interpreter} : Abreast same here there →
      FlowsAlike steps same (.onward, here) (.onward, there)
  | yield {step other : Step} {here there : Interpreter} : steps step other →
      Abreast same here there → FlowsAlike steps same (.yield step, here) (.yield other, there)

inductive AnswersAlike (steps : Step → Step → Prop) : Answer → Answer → Prop where
  | step {step other : Step} : steps step other → AnswersAlike steps (.step step) (.step other)
  | refusal (refusal : Refusal) : AnswersAlike steps (.refusal refusal) (.refusal refusal)
  | nothing : AnswersAlike steps .nothing .nothing

theorem AnswersAlike.eq {answer other : Answer} (alike : AnswersAlike Eq answer other) :
    answer = other := by
  cases alike with
  | step same => exact congrArg Answer.step same
  | refusal refusal => rfl
  | nothing => rfl

/-- What is done alike on both sides keeps contents the same. -/
structure Parallel (same : Content → Content → Prop) : Prop where
  give {here there : Interpreter} (cue : Cue) : same here.content there.content →
    same (here.give cue).content (there.give cue).content
  note {here there : Interpreter} (noted : Note) : same here.content there.content →
    same (here.note noted).content (there.note noted).content
  report {here there : Interpreter} (diagnostic : Diagnostic) : same here.content there.content →
    same (here.report diagnostic).content (there.report diagnostic).content
  reset {here there : Interpreter} (script : Script) : same here.content there.content →
    same (here.reset script).content (there.reset script).content
  scene {here there : Content} (scene : Scene) : same here there →
    same { here with scene := scene } { there with scene := scene }

/-- Runs on the two stages cannot be told apart but by what these relations leave open. -/
structure Lockstep (first second : Stage) (steps : Step → Step → Prop)
    (same : Content → Content → Prop) : Prop extends Parallel same where
  step (step : Step) : steps step step
  glyph (wake : Wake) :
    steps (.resume first.settings.glyphTime wake) (.resume second.settings.glyphTime wake)
  say {here there : Interpreter} (offset : Nat) (speaker : Option String) (text : String) :
    Abreast same here there →
    FlowsAlike steps same (here.say first offset speaker text)
      (there.say second offset speaker text)
  settles {here there : Interpreter} {instruction other : Instruction} {offset : Nat} :
    instruction.settles → here.script.get? offset = some instruction →
    there.script.get? offset = some other → instruction.untimed = other.untimed →
    Abreast same here there →
    FlowsAlike steps same (here.execute first offset instruction)
      (there.execute second offset other)
  finish {here there : Interpreter} (offset : Nat) : Abreast same here there →
    FlowsAlike steps same (here.finish first offset) (there.finish second offset)
  sprite {here there : Interpreter} (entry : String × Sprite) : Abreast same here there →
    Abreast same (here.replaySprite first.table entry) (there.replaySprite second.table entry)
  music {here there : Interpreter} (music : Music) : Abreast same here there →
    Abreast same (here.replayMusic first music) (there.replayMusic second music)

def StepsAlike (steps : Step → Step → Prop) (same : Content → Content → Prop)
    (here there : Step × Interpreter) : Prop :=
  steps here.1 there.1 ∧ Abreast same here.2 there.2

namespace Abreast

variable {same : Content → Content → Prop} {here there : Interpreter}

theorem of_staged {here' there' : Interpreter} (abreast : Abreast same here there)
    (staged : Staged here here') (staged' : Staged there there')
    (content : same here'.content there'.content) : Abreast same here' there' where
  script := by rw [staged.script, staged'.script, abreast.script]
  targets := by rw [staged.targets, staged'.targets, abreast.targets]
  pc := by rw [staged.pc, staged'.pc, abreast.pc]
  phase := (phase_of_clock staged.clock).trans
    (abreast.phase.trans (phase_of_clock staged'.clock).symm)
  run := (congrArg Clock.run staged.clock).trans
    (abreast.run.trans (congrArg Clock.run staged'.clock).symm)
  timers := (congrArg Clock.timers staged.clock).trans
    (abreast.timers.trans (congrArg Clock.timers staged'.clock).symm)
  settling := (settling_of_clock staged.clock).trans
    (abreast.settling.trans (settling_of_clock staged'.clock).symm)
  reveal := (congrArg Clock.reveal staged.clock).trans
    (abreast.reveal.trans (congrArg Clock.reveal staged'.clock).symm)
  choiceAt := by rw [staged.choiceAt, staged'.choiceAt, abreast.choiceAt]
  content := content

theorem settle {steps : Step → Step → Prop} (abreast : Abreast same here there) {time time' : Nat}
    (alike : ∀ wake, steps (.resume time wake) (.resume time' wake)) :
    FlowsAlike steps same (here.settle time) (there.settle time') := by
  unfold Interpreter.settle
  rw [← abreast.timers, ← abreast.run]
  exact .yield (alike _) { abreast with timers := rfl, settling := rfl, run := rfl }

theorem found (abreast : Abreast same here there) (offset : Nat) :
    (here.script.get? offset).map Instruction.untimed =
      (there.script.get? offset).map Instruction.untimed := by
  rw [← Script.get?_untimed, ← Script.get?_untimed, abreast.script]

theorem found_iff (abreast : Abreast same here there) {offset : Nat} {instruction : Instruction}
    (settles : instruction.settles = false) :
    here.script.get? offset = some instruction ↔ there.script.get? offset = some instruction := by
  have iff (script : Script) : script.get? offset = some instruction ↔
      (script.get? offset).map Instruction.untimed = some instruction.untimed := by
    rw [Option.map_eq_some_iff]
    refine ⟨fun found => ⟨instruction, found, rfl⟩, fun ⟨other, found, untimed⟩ => ?_⟩
    rwa [Instruction.eq_of_untimed settles untimed.symm]
  rw [iff, iff, abreast.found]

theorem found_none (abreast : Abreast same here there) {offset : Nat}
    (found : here.script.get? offset = none) : there.script.get? offset = none := by
  have same := abreast.found offset
  rwa [found, Option.map_none, eq_comm, Option.map_eq_none_iff] at same

theorem found_some (abreast : Abreast same here there) {offset : Nat} {instruction : Instruction}
    (found : here.script.get? offset = some instruction) :
    ∃ other, there.script.get? offset = some other ∧ instruction.untimed = other.untimed := by
  have same := abreast.found offset
  rw [found, Option.map_some, eq_comm, Option.map_eq_some_iff] at same
  obtain ⟨other, found, same⟩ := same
  exact ⟨other, found, same.symm⟩

theorem pendingChoices (abreast : Abreast same here there) :
    here.pendingChoices = there.pendingChoices := by
  unfold Machine.pendingChoices
  rw [← abreast.choiceAt, ← abreast.phase]
  cases here.choiceAt with
  | none => rfl
  | some offset =>
      simp only [Option.bind_some]
      split
      · next options found => rw [(abreast.found_iff rfl).mp found]
      · next apart =>
          split
          · next options found => exact absurd ((abreast.found_iff rfl).mpr found) (apart options)
          · rfl

end Abreast

namespace Parallel

variable {same : Content → Content → Prop} {here there : Interpreter} (parallel : Parallel same)
include parallel

theorem gives (abreast : Abreast same here there) (cue : Cue) :
    Abreast same (here.give cue) (there.give cue) :=
  { abreast with content := parallel.give cue abreast.content }

theorem notes (abreast : Abreast same here there) (noted : Note) :
    Abreast same (here.note noted) (there.note noted) :=
  { abreast with content := parallel.note noted abreast.content }

theorem reports (abreast : Abreast same here there) (diagnostic : Diagnostic) :
    Abreast same (here.report diagnostic) (there.report diagnostic) :=
  { abreast with content := parallel.report diagnostic abreast.content }

theorem resets (abreast : Abreast same here there) (script : Script) :
    Abreast same (here.reset script) (there.reset script) where
  script := rfl
  targets := rfl
  pc := rfl
  phase := abreast.phase
  run := congrArg (· + 1) abreast.run
  timers := abreast.timers
  settling := rfl
  reveal := congrArg Reveal.cancel abreast.reveal
  choiceAt := rfl
  content := parallel.reset script abreast.content

theorem begin (abreast : Abreast same here there) (script : Script) :
    Abreast same (here.begin script) (there.begin script) := by
  have reset := parallel.resets abreast script
  unfold Interpreter.begin
  simp only [← reset.run]
  exact { parallel.notes reset _ with phase := rfl }

theorem putBack (abreast : Abreast same here there) (script : Script) (save : SavePoint) :
    Abreast same (here.putBack script save) (there.putBack script save) := by
  have reset := parallel.resets abreast script
  unfold Interpreter.putBack
  simp only [← reset.run]
  apply parallel.notes
  exact {
    reset with
    pc := rfl
    phase := rfl
    choiceAt := rfl
    run := rfl
    content := parallel.scene save.scene reset.content }

theorem replayBackdrop (abreast : Abreast same here there) (backdrop : Backdrop) :
    Abreast same (here.replayBackdrop backdrop) (there.replayBackdrop backdrop) := by
  unfold Interpreter.replayBackdrop
  cases backdrop.image with
  | some image => exact parallel.gives (parallel.gives abreast _) _
  | none => exact parallel.gives abreast _

theorem replaySprite (abreast : Abreast same here there) (table : AssetTable)
    (entry : String × Sprite) :
    Abreast same (here.replaySprite table entry) (there.replaySprite table entry) := by
  obtain ⟨id, sprite⟩ := entry
  dsimp only [Interpreter.replaySprite]
  by_cases visible : sprite.visible
  · rw [if_pos visible, if_pos visible]
    exact parallel.gives abreast _
  · rw [if_neg visible, if_neg visible]
    exact abreast

theorem replayDialogue (abreast : Abreast same here there) (dialogue : Option Dialogue) :
    Abreast same (here.replayDialogue dialogue) (there.replayDialogue dialogue) := by
  cases dialogue with
  | some dialogue => exact parallel.gives (parallel.gives abreast _) _
  | none => exact abreast

theorem replayChoices (abreast : Abreast same here there) :
    Abreast same here.replayChoices there.replayChoices := by
  unfold Interpreter.replayChoices
  rw [abreast.pendingChoices]
  cases there.pendingChoices with
  | some options => exact parallel.gives abreast _
  | none => exact abreast

end Parallel

namespace Lockstep

variable {first second : Stage} {steps : Step → Step → Prop} {same : Content → Content → Prop}
  {here there : Interpreter} (lockstep : Lockstep first second steps same)
include lockstep

/-! ## Executing instructions -/

theorem jump (abreast : Abreast same here there) (offset : Nat) (label : String) :
    Abreast same (here.jump offset label) (there.jump offset label) := by
  unfold Interpreter.jump
  rw [← abreast.targets]
  cases here.targets.resolve label with
  | some target => exact { lockstep.notes abreast _ with pc := rfl }
  | none => exact lockstep.reports abreast _

theorem presentChoices (abreast : Abreast same here there) (offset : Nat)
    (options : List ChoiceOption) :
    FlowsAlike steps same (here.presentChoices offset options)
      (there.presentChoices offset options) := by
  cases options with
  | nil => exact .onward (lockstep.reports abreast _)
  | cons option options =>
      exact .yield (lockstep.step _)
        { lockstep.gives (lockstep.notes abreast _) _ with choiceAt := rfl, phase := rfl }

theorem execute (abreast : Abreast same here there) {offset : Nat}
    {instruction other : Instruction} (found : here.script.get? offset = some instruction)
    (found' : there.script.get? offset = some other)
    (untimed : instruction.untimed = other.untimed) :
    FlowsAlike steps same (here.execute first offset instruction)
      (there.execute second offset other) := by
  cases settles : instruction.settles with
  | true => exact lockstep.settles settles found found' untimed abreast
  | false => ?_
  obtain rfl := Instruction.eq_of_untimed settles untimed
  cases instruction with
  | label id => exact .onward (lockstep.notes abreast _)
  | say speaker text => exact lockstep.say offset speaker text abreast
  | choice options => exact lockstep.presentChoices abreast offset options
  | jump label => exact .onward (lockstep.jump abreast offset label)
  | ending => exact lockstep.finish offset abreast
  | unknown => exact .onward (lockstep.reports abreast _)
  | _ => cases settles

theorem fetch (abreast : Abreast same here there) {instruction other : Instruction}
    (untimed : instruction.untimed = other.untimed) :
    Abreast same (here.fetch instruction) (there.fetch other) := by
  have kind : instruction.kind = other.kind := by
    rw [← instruction.kind_untimed, untimed, other.kind_untimed]
  unfold Interpreter.fetch
  rw [← abreast.pc, ← kind]
  exact { lockstep.notes abreast _ with pc := rfl }

/-! ## Running -/

theorem dispatch {onward onward' : Nat → Interpreter → Step × Interpreter}
    (abreast : Abreast same here there)
    (goesOn : ∀ offset {here there}, Abreast same here there →
      StepsAlike steps same (onward offset here) (onward' offset there)) :
    StepsAlike steps same (here.dispatch first onward) (there.dispatch second onward') := by
  cases found : here.script.get? here.pc with
  | none =>
      have found' := abreast.found_none found
      rw [abreast.pc] at found'
      rw [dispatch_none found, dispatch_none found', ← abreast.pc]
      exact ⟨lockstep.step _, { lockstep.notes abreast _ with phase := rfl }⟩
  | some instruction =>
      obtain ⟨other, found', untimed⟩ := abreast.found_some found
      have alike := lockstep.execute (lockstep.fetch abreast untimed) found found' untimed
      rw [abreast.pc] at found'
      rw [dispatch_some found, dispatch_some found', ← abreast.pc]
      generalize (here.fetch instruction).execute first here.pc instruction = outcome at alike ⊢
      generalize (there.fetch other).execute second here.pc other = outcome' at alike ⊢
      cases alike with
      | onward abreast => exact goesOn _ abreast
      | yield same abreast => exact ⟨same, abreast⟩

theorem runWithin (abreast : Abreast same here there) (budget : Nat) :
    StepsAlike steps same (here.runWithin first budget) (there.runWithin second budget) := by
  induction budget generalizing here there with
  | zero =>
      refine lockstep.dispatch abreast fun offset _ _ abreast => ?_
      exact ⟨lockstep.step _, { lockstep.reports abreast _ with phase := rfl }⟩
  | succ budget ih => exact lockstep.dispatch abreast fun _ _ _ abreast => ih abreast

theorem runUntilSuspended (abreast : Abreast same here there) :
    StepsAlike steps same (here.runUntilSuspended first) (there.runUntilSuspended second) := by
  have length : here.script.length = there.script.length := by
    rw [← Script.length_untimed, abreast.script, Script.length_untimed]
  unfold Interpreter.runUntilSuspended
  rw [← length]
  exact lockstep.runWithin abreast _

/-! ## Moves -/

theorem advance (abreast : Abreast same here there) :
    StepsAlike steps same (here.advance first) (there.advance second) := by
  unfold Interpreter.advance
  rw [← abreast.phase]
  by_cases awaiting : here.phase = .awaitingAdvance
  · rw [if_pos awaiting, if_pos awaiting]
    exact lockstep.runUntilSuspended { abreast with phase := rfl }
  · rw [if_neg awaiting, if_neg awaiting]
    exact ⟨lockstep.step _, lockstep.notes abreast _⟩

theorem takeOption (abreast : Abreast same here there) (offset : Nat) (option : ChoiceOption) :
    StepsAlike steps same (here.takeOption first offset option)
      (there.takeOption second offset option) := by
  have signalled : Abreast same (here.passSignal option) (there.passSignal option) := by
    unfold passSignal
    cases option.signal with
    | some signal => exact lockstep.gives abreast _
    | none => exact abreast
  have led : Abreast same ((here.passSignal option).goWhereItLeads offset option)
      ((there.passSignal option).goWhereItLeads offset option) := by
    unfold goWhereItLeads
    cases option.target with
    | some label => exact lockstep.jump signalled offset label
    | none => exact signalled
  rw [takeOption_eq, takeOption_eq]
  exact lockstep.runUntilSuspended
    { lockstep.gives led .clearChoices with choiceAt := rfl, phase := rfl }

theorem select (abreast : Abreast same here there) (index : Nat) :
    AnswersAlike steps (.ofResult (here.select first index).1)
        (.ofResult (there.select second index).1) ∧
      Abreast same (here.select first index).2 (there.select second index).2 := by
  unfold Interpreter.select
  rw [← abreast.phase, ← abreast.choiceAt]
  by_cases awaiting : here.phase = .awaitingChoice
  · rw [if_pos awaiting, if_pos awaiting]
    cases here.choiceAt with
    | none => exact ⟨.step (lockstep.step _), abreast⟩
    | some offset =>
        dsimp only
        split
        · next options found =>
            rw [(abreast.found_iff rfl).mp found]
            dsimp only
            cases options[index]? with
            | some option =>
                obtain ⟨steps, abreast⟩ :=
                  lockstep.takeOption (lockstep.notes abreast _) offset option
                exact ⟨.step steps, abreast⟩
            | none => exact ⟨.refusal _, lockstep.notes abreast _⟩
        · next apart =>
            split
            · next options found => exact absurd ((abreast.found_iff rfl).mpr found) (apart options)
            · exact ⟨.step (lockstep.step _), abreast⟩
  · rw [if_neg awaiting, if_neg awaiting]
    exact ⟨.step (lockstep.step _), lockstep.notes abreast _⟩

theorem afterReveal (abreast : Abreast same here there) (offset : Nat) :
    StepsAlike steps same (here.afterReveal first offset) (there.afterReveal second offset) := by
  have waits {here there : Interpreter} (abreast : Abreast same here there) :
      StepsAlike steps same (.awaitAdvance, { here with phase := .awaitingAdvance })
        (.awaitAdvance, { there with phase := .awaitingAdvance }) :=
    ⟨lockstep.step _, { abreast with phase := rfl }⟩
  have next (instruction : Instruction) (settles : instruction.settles = false) :
      here.script.get? here.pc = some instruction ↔
        there.script.get? there.pc = some instruction := by
    rw [← abreast.pc]
    exact abreast.found_iff settles
  unfold Interpreter.afterReveal
  split
  · next options found =>
      rw [(next _ rfl).mp found]
      exact lockstep.runUntilSuspended (lockstep.notes abreast _)
  · next found =>
      rw [(next _ rfl).mp found]
      exact waits (lockstep.notes abreast _)
  · next apart unended =>
      split
      · next options found => exact absurd ((next _ rfl).mpr found) (apart options)
      · next found => exact absurd ((next _ rfl).mpr found) unended
      · exact waits abreast

theorem tick (abreast : Abreast same here there) (ticket : Ticket) :
    StepsAlike steps same (here.tick first ticket) (there.tick second ticket) := by
  unfold Interpreter.tick
  rw [← abreast.reveal]
  rcases here.reveal.tick ticket with ⟨outcome, reveal⟩
  cases outcome with
  | stale => exact ⟨lockstep.step _, abreast⟩
  | partly shown next =>
      rw [← abreast.run]
      exact ⟨lockstep.glyph _, { lockstep.gives abreast _ with reveal := rfl }⟩
  | complete shown offset =>
      have told : Abreast same (here.tell shown reveal) (there.tell shown reveal) :=
        { lockstep.gives abreast (.dialogueText shown) with reveal := rfl }
      exact lockstep.afterReveal told offset

theorem wake (abreast : Abreast same here there) (wake : Wake) :
    StepsAlike steps same (here.wake first wake) (there.wake second wake) := by
  unfold Interpreter.wake
  by_cases late : wake.run ≠ here.run ∨ here.phase ≠ .running
  · have late' : wake.run ≠ there.run ∨ there.phase ≠ .running := by
      rwa [← abreast.run, ← abreast.phase]
    rw [if_pos late, if_pos late', ← abreast.phase]
    exact ⟨lockstep.step _, lockstep.notes abreast _⟩
  · have late' : ¬(wake.run ≠ there.run ∨ there.phase ≠ .running) := by
      rwa [← abreast.run, ← abreast.phase]
    rw [if_neg late, if_neg late']
    cases wake.timer with
    | reveal ticket => exact lockstep.tick abreast ticket
    | settle sequence =>
        dsimp only
        by_cases settling : here.settling = some sequence
        · rw [if_pos settling, if_pos (abreast.settling ▸ settling)]
          exact lockstep.runUntilSuspended { abreast with settling := rfl }
        · rw [if_neg settling, if_neg (abreast.settling ▸ settling)]
          exact ⟨lockstep.step _, abreast⟩

theorem stop (abreast : Abreast same here there) : Abreast same here.stop there.stop := by
  unfold Interpreter.stop
  rw [← abreast.phase, ← abreast.pc, ← abreast.reveal]
  split
  · exact { lockstep.notes abreast _ with phase := rfl, reveal := rfl, settling := rfl }
  · exact abreast

theorem makeMove (abreast : Abreast same here there) (move : Move Wake) :
    AnswersAlike steps (here.makeMove first move).1 (there.makeMove second move).1 ∧
      Abreast same (here.makeMove first move).2 (there.makeMove second move).2 := by
  cases move with
  | advance =>
      obtain ⟨steps, abreast⟩ := lockstep.advance abreast
      exact ⟨.step steps, abreast⟩
  | select index => exact lockstep.select abreast index
  | wake wake =>
      obtain ⟨steps, abreast⟩ := lockstep.wake abreast wake
      exact ⟨.step steps, abreast⟩
  | stop => exact ⟨.nothing, lockstep.stop abreast⟩

/-! ## Operations -/

theorem replay (abreast : Abreast same here there) (scene : here.scene = there.scene) :
    Abreast same (here.replay first) (there.replay second) := by
  have sprites (entries : List (String × Sprite)) {here there : Interpreter}
      (abreast : Abreast same here there) :
      Abreast same (entries.foldl (replaySprite first.table) here)
        (entries.foldl (replaySprite second.table) there) := by
    induction entries generalizing here there with
    | nil => exact abreast
    | cons entry entries ih => exact ih (lockstep.sprite entry abreast)
  unfold Interpreter.replay
  rw [scene]
  apply lockstep.replayChoices
  apply lockstep.replayDialogue
  apply lockstep.music
  apply sprites
  exact lockstep.replayBackdrop abreast _

theorem restore (abreast : Abreast same here there) (script : Script) (save : SavePoint) :
    AnswersAlike steps (.ofResult (here.restore first script save).1)
        (.ofResult (there.restore second script save).1) ∧
      Abreast same (here.restore first script save).2 (there.restore second script save).2 := by
  cases outcome : save.step? script with
  | error refusal =>
      rw [restore_refused here outcome, restore_refused there outcome]
      exact ⟨.refusal refusal, abreast⟩
  | ok step =>
      rw [restore_eq here outcome, restore_eq there outcome]
      exact ⟨.step (lockstep.step step),
        lockstep.replay (lockstep.putBack abreast script save) rfl⟩

theorem perform (abreast : Abreast same here there) (operation : Operation) :
    AnswersAlike steps (here.perform first operation).1 (there.perform second operation).1 ∧
      Abreast same (here.perform first operation).2 (there.perform second operation).2 := by
  cases operation with
  | start script =>
      obtain ⟨steps, started⟩ := lockstep.runUntilSuspended (lockstep.begin abreast script)
      exact ⟨.step steps, started⟩
  | restore script save =>
      have restored := lockstep.restore abreast script save
      simpa only [Interpreter.perform, Prod.map_fst, Prod.map_snd, id_eq] using restored
  | move move => exact lockstep.makeMove abreast move

end Lockstep

end Interpreter

end VisualNovel
