import VisualNovel.Proofs.Firing
import VisualNovel.Proofs.Lockstep
import VisualNovel.Proofs.Refusals

/-!
Timing: how long things take has no influence on what happens. With other durations in the settings
and in the script, a rehearsal blocks where it did, hands back and shows the same, and only its
clock tells the difference.

Main statement: `timing_unnoticed`.
-/

namespace VisualNovel

/-! ## Scripts that take other times -/

theorem Targets.enter_untimed (instructions : List Instruction) (targets : Targets)
    (offset : Nat) :
    targets.enter offset (instructions.map Instruction.untimed) =
      targets.enter offset instructions := by
  induction instructions generalizing targets offset with
  | nil => rfl
  | cons instruction instructions ih =>
      cases instruction <;> simp only [List.map_cons, Instruction.untimed, enter, ih]

theorem Instruction.fires_untimed (instruction : Instruction) :
    instruction.untimed.fires = instruction.fires := by
  cases instruction <;> rfl

theorem Instruction.settles_untimed (instruction : Instruction) :
    instruction.untimed.settles = instruction.settles := by
  cases instruction <;> rfl

theorem Script.fires_untimed (script : Script) : script.untimed.fires = script.fires := by
  simp only [fires, untimed, List.foldr_map, Instruction.fires_untimed]

namespace Interpreter

/-! ## Changes of the stage take no notice of times -/

def retold (script : Script) (interpreter : Interpreter) : Interpreter :=
  { interpreter with script := script }

def changeStage (stage : Stage) (offset : Nat) (instruction : Instruction)
    (interpreter : Interpreter) : Interpreter :=
  match instruction with
  | .background visible image _ => (interpreter.showBackdrop visible).changeBackdrop stage image
  | .character id .shown state side _ => interpreter.showCharacter stage offset id state side
  | .character id .hidden _ _ _ => interpreter.hideCharacter offset id
  | .character id .setState state _ _ => interpreter.changeCharacter stage offset id state
  | .music .play track looping => interpreter.playMusic stage offset track looping
  | .music .stop _ _ =>
      { interpreter.give .stopAudio with scene.audio := interpreter.scene.audio.stop }
  | .music .pause _ _ =>
      { interpreter.give .pauseAudio with scene.audio := interpreter.scene.audio.pause }
  | _ => interpreter

section Stages

variable (stage : Stage) (offset : Nat) (instruction : Instruction)

theorem execute_settles (interpreter : Interpreter) (settles : instruction.settles) :
    ∃ time, interpreter.execute stage offset instruction =
      (interpreter.changeStage stage offset instruction).settle time := by
  cases instruction with
  | character id action state side delay => cases action <;> exact ⟨_, rfl⟩
  | music action track looping => cases action <;> exact ⟨_, rfl⟩
  | background visible image delay => exact ⟨_, rfl⟩
  | wait duration => exact ⟨_, rfl⟩
  | _ => cases settles

theorem changeStage_untimed (interpreter : Interpreter) :
    interpreter.changeStage stage offset instruction.untimed =
      interpreter.changeStage stage offset instruction := by
  cases instruction with
  | character id action state side delay => cases action <;> rfl
  | _ => rfl

theorem changeStage_settings {settings : Settings}
    (loops : settings.loopByDefault = stage.settings.loopByDefault) (interpreter : Interpreter) :
    interpreter.changeStage { stage with settings } offset instruction =
      interpreter.changeStage stage offset instruction := by
  cases instruction with
  | character id action state side delay => cases action <;> rfl
  | music action track looping =>
      cases action with
      | play => simp only [changeStage, playMusic, loops]; rfl
      | _ => rfl
  | _ => rfl

end Stages

section Retold

variable (script : Script) (stage : Stage) (offset : Nat) (interpreter : Interpreter)

theorem retold_scene : (interpreter.retold script).scene = interpreter.scene := rfl

theorem retold_report (diagnostic : Diagnostic) :
    (interpreter.retold script).report diagnostic =
      (interpreter.report diagnostic).retold script := rfl

theorem assetOrLiteral_retold (kind name : String) (asset : Option String) :
    (interpreter.retold script).assetOrLiteral kind name asset =
      (interpreter.assetOrLiteral kind name asset).map id (retold script) := by
  cases asset <;> rfl

theorem spriteAsset_retold (name : String) (state : Option String) :
    (interpreter.retold script).spriteAsset stage name state =
      (interpreter.spriteAsset stage name state).map id (retold script) := by
  cases state with
  | none => rfl
  | some state => simp only [spriteAsset, stateAsset, assetOrLiteral_retold, Prod.map]; rfl

theorem showBackdrop_retold (visible : Option Bool) :
    (interpreter.retold script).showBackdrop visible =
      (interpreter.showBackdrop visible).retold script := by
  cases visible <;> rfl

theorem changeBackdrop_retold (image : Option String) :
    (interpreter.retold script).changeBackdrop stage image =
      (interpreter.changeBackdrop stage image).retold script := by
  cases image with
  | none => rfl
  | some name => simp only [changeBackdrop, assetOrLiteral_retold]; rfl

theorem showCharacter_retold (name : String) (state : Option String) (side : Option Side) :
    (interpreter.retold script).showCharacter stage offset name state side =
      (interpreter.showCharacter stage offset name state side).retold script := by
  unfold showCharacter
  cases stage.table.hasCharacter name <;>
    simp only [Bool.false_eq_true, reduceIte, retold_report, spriteAsset_retold] <;> rfl

theorem hideCharacter_retold (name : String) :
    (interpreter.retold script).hideCharacter offset name =
      (interpreter.hideCharacter offset name).retold script := by
  simp only [hideCharacter, retold_scene]
  cases interpreter.scene.characters.get? name <;> rfl

theorem changeCharacter_retold (name : String) (state : Option String) :
    (interpreter.retold script).changeCharacter stage offset name state =
      (interpreter.changeCharacter stage offset name state).retold script := by
  cases state with
  | none => rfl
  | some state =>
      simp only [changeCharacter, stateAsset, retold_scene, assetOrLiteral_retold]
      cases interpreter.scene.characters.get? name <;> rfl

theorem requestMusic_retold (asset : String) (looping : Bool) :
    (interpreter.retold script).requestMusic stage asset looping =
      (interpreter.requestMusic stage asset looping).retold script := by
  have cues : (interpreter.retold script).cues = interpreter.cues := rfl
  simp only [requestMusic, cues]
  cases stage.playback interpreter.cues asset looping <;> rfl

theorem playMusic_retold (track : Option String) (looping : Option Bool) :
    (interpreter.retold script).playMusic stage offset track looping =
      (interpreter.playMusic stage offset track looping).retold script := by
  have plays (interpreter : Interpreter) (asset : String) (looping : Bool) :
      ((interpreter.retold script).note (.playing asset looping)).requestMusic stage asset looping =
        ((interpreter.note (.playing asset looping)).requestMusic stage asset looping).retold
          script := requestMusic_retold script stage (interpreter.note _) asset looping
  cases track with
  | none => rfl
  | some track =>
      simp only [playMusic, assetOrLiteral_retold, Prod.map_fst, Prod.map_snd, plays]
      rfl

theorem replayMusic_retold (music : Music) :
    (interpreter.retold script).replayMusic stage music =
      (interpreter.replayMusic stage music).retold script := by
  obtain ⟨track, looping, status⟩ := music
  cases track with
  | none => rfl
  | some track =>
      cases status with
      | stopped => rfl
      | playing => exact requestMusic_retold ..
      | paused => exact congrArg (give .pauseAudio) (requestMusic_retold script stage ..)

theorem changeStage_retold (instruction : Instruction) :
    (interpreter.retold script).changeStage stage offset instruction =
      (interpreter.changeStage stage offset instruction).retold script := by
  cases instruction with
  | background visible image delay =>
      simp only [changeStage, showBackdrop_retold, changeBackdrop_retold]
  | character name action state side delay =>
      cases action with
      | shown => exact showCharacter_retold ..
      | hidden => exact hideCharacter_retold ..
      | setState => exact changeCharacter_retold ..
  | music action track looping =>
      cases action with
      | play => exact playMusic_retold ..
      | _ => rfl
  | _ => rfl

end Retold

/-! ## Runs that differ in times -/

/-- The same is handed back, except for how long a timer takes. -/
inductive SameTelling : Step → Step → Prop where
  | resume (time time' : Nat) (wake : Wake) :
      SameTelling (.resume time wake) (.resume time' wake)
  | same (step : Step) : SameTelling step step

structure SameRecords (here there : Content) : Prop where
  scene : here.scene = there.scene
  diagnostics : here.diagnostics = there.diagnostics
  history : here.history = there.history

theorem parallel_records : Parallel SameRecords where
  give cue same := { same with history := congrArg (·.push (.cue cue)) same.history }
  note noted same := { same with history := congrArg (·.push (.note noted)) same.history }
  report diagnostic same :=
    ⟨same.scene, congrArg (· ++ [diagnostic]) same.diagnostics,
      congrArg (·.push (.note (.problem diagnostic))) same.history⟩
  reset _ same := ⟨rfl, rfl, congrArg (· ++ _) same.history⟩
  scene _ same := { same with scene := rfl }

section Lockstep

variable {table : AssetTable} {settings other : Settings} {playback : Playback}
  {here there : Interpreter}

theorem retold_of_abreast (abreast : Abreast SameRecords here there) :
    here.retold there.script = there := by
  obtain ⟨-, targets, pc, phase, run, timers, settling, reveal, choiceAt, scene, diagnostics,
    history⟩ := abreast
  simp only [content] at scene diagnostics history
  simp only [retold, targets, pc, phase, run, timers, settling, reveal, choiceAt, scene,
    diagnostics, history]

theorem abreast_retold {script : Script} (same : here.script.untimed = script.untimed) :
    Abreast SameRecords here (here.retold script) :=
  ⟨same, rfl, rfl, rfl, rfl, rfl, rfl, rfl, rfl, rfl, rfl, rfl⟩

theorem acts_abreast (abreast : Abreast SameRecords here there)
    {act : Interpreter → Interpreter}
    (blind : ∀ script interpreter,
      act (interpreter.retold script) = (act interpreter).retold script) :
    Abreast SameRecords (act here) (act there) := by
  have kept : (act here).script = here.script := congrArg (·.script) (blind here.script here)
  rw [← retold_of_abreast abreast, blind]
  exact abreast_retold ((congrArg Script.untimed kept).trans abreast.script)

theorem execute_abreast_of_settles (loops : settings.loopByDefault = other.loopByDefault)
    (abreast : Abreast SameRecords here there) {instruction instruction' : Instruction}
    (settles : instruction.settles) (untimed : instruction.untimed = instruction'.untimed)
    (offset : Nat) :
    FlowsAlike SameTelling SameRecords
      (here.execute ⟨table, settings, playback⟩ offset instruction)
      (there.execute ⟨table, other, playback⟩ offset instruction') := by
  have settles' : instruction'.settles := by
    rw [← Instruction.settles_untimed, ← untimed, Instruction.settles_untimed]
    exact settles
  obtain ⟨time, executed⟩ := execute_settles ⟨table, settings, playback⟩ offset instruction here
    settles
  obtain ⟨time', executed'⟩ := execute_settles ⟨table, other, playback⟩ offset instruction' there
    settles'
  rw [executed, executed', ← changeStage_untimed _ _ instruction, untimed, changeStage_untimed,
    ← changeStage_settings ⟨table, other, playback⟩ offset instruction' loops]
  have changed : Abreast SameRecords
      (here.changeStage ⟨table, settings, playback⟩ offset instruction')
      (there.changeStage ⟨table, settings, playback⟩ offset instruction') :=
    acts_abreast abreast fun script interpreter => changeStage_retold script _ _ interpreter _
  exact changed.settle (.resume _ _)

theorem lockstep_timing (table : AssetTable) (playback : Playback)
    (ends : settings.endText = other.endText)
    (loops : settings.loopByDefault = other.loopByDefault) :
    Lockstep ⟨table, settings, playback⟩ ⟨table, other, playback⟩ SameTelling SameRecords where
  toParallel := parallel_records
  step := .same
  glyph := .resume _ _
  say {here there} offset speaker text abreast := by
    rw [← retold_of_abreast abreast]
    exact .yield (.resume ..) (abreast_retold abreast.script)
  settles settles _ _ untimed abreast :=
    execute_abreast_of_settles loops abreast settles untimed _
  finish {here there} offset abreast := by
    rw [← retold_of_abreast abreast]
    simp only [finish, ends]
    exact .yield (.same _) (abreast_retold abreast.script)
  sprite entry abreast := parallel_records.replaySprite abreast table entry
  music music abreast :=
    acts_abreast abreast fun script interpreter => replayMusic_retold script _ interpreter music

end Lockstep

theorem begin_abreast {script other : Script} (untimed : script.untimed = other.untimed)
    {here there : Interpreter} (abreast : Abreast SameRecords here there) :
    Abreast SameRecords (here.begin script) (there.begin other) := by
  have entered : Targets.enter .empty 0 script.instructions =
      Targets.enter .empty 0 other.instructions := by
    rw [← Targets.enter_untimed, ← Targets.enter_untimed other.instructions]
    exact congrArg (fun script => Targets.enter .empty 0 script.instructions) untimed
  have targets : Targets.ofScript script = Targets.ofScript other := congrArg Prod.fst entered
  have redefined : Targets.redefinitions script = Targets.redefinitions other :=
    congrArg Prod.snd entered
  have length : script.length = other.length := by
    rw [← Script.length_untimed, untimed, Script.length_untimed]
  have same : here.begin script = (here.begin other).retold script := by
    simp only [begin, reset, note, retold, targets, redefined, length]
  rw [same]
  have begun := parallel_records.begin abreast other
  have retold : Abreast SameRecords ((here.begin other).retold script) (here.begin other) :=
    ⟨untimed, rfl, rfl, rfl, rfl, rfl, rfl, rfl, rfl, rfl, rfl, rfl⟩
  exact ⟨retold.script, begun.targets, begun.pc, begun.phase, begun.run, begun.timers,
    begun.settling, begun.reveal, begun.choiceAt, begun.content.scene, begun.content.diagnostics,
    begun.content.history⟩

theorem SameTelling.declines_iff {answer other : Answer}
    (alike : AnswersAlike SameTelling answer other) : answer.Declines ↔ other.Declines := by
  cases alike with
  | step same =>
      cases same with
      | resume time time' wake => exact iff_of_false nofun nofun
      | same step => rfl
  | refusal refusal => rfl
  | nothing => rfl

theorem SameTelling.eq_of_declines {answer other : Answer}
    (alike : AnswersAlike SameTelling answer other) (declines : answer.Declines) :
    answer = other := by
  cases alike with
  | step same =>
      cases same with
      | resume time time' wake => cases declines
      | same step => rfl
  | _ => rfl

end Interpreter

theorem Answer.ofResult_injective : Function.Injective Answer.ofResult := by
  intro result other same
  cases result <;> cases other <;> cases same <;> rfl

namespace Rehearsal

open Interpreter

/-! ## Rehearsals that differ in times -/

structure InTune (here there : Rehearsal) : Prop where
  interpreter : Abreast SameRecords here.interpreter there.interpreter
  pending : here.pending.map (·.wake) = there.pending.map (·.wake)
  last : SameTelling here.last there.last

/-- All that can be seen of a rehearsal but its clock; the history has the cues and the notes. -/
structure Observation where
  pc : Nat
  phase : Phase
  scene : Scene
  pendingChoices : Option (List ChoiceOption)
  diagnostics : List Diagnostic
  history : Array Event

def observation (rehearsal : Rehearsal) : Observation where
  pc := rehearsal.interpreter.pc
  phase := rehearsal.interpreter.phase
  scene := rehearsal.interpreter.scene
  pendingChoices := rehearsal.interpreter.pendingChoices
  diagnostics := rehearsal.interpreter.diagnostics
  history := rehearsal.interpreter.history

theorem Coherent.blocked_ne_resume {stage : Stage} {before after : Rehearsal} {step : Step}
    (coherent : before.Coherent) (blocked : before.runUntilBlocked stage = some (step, after))
    (time : Nat) (wake : Wake) : step ≠ .resume time wake := by
  obtain ⟨fires, rfl⟩ := fires_of_runUntilBlocked blocked
  have spent : after.pending = none := by
    cases pending : after.pending with
    | none => rfl
    | some timer => cases fires.later timer pending
  exact (coherent.operate (.runUntilBlocked fires)).ne_resume spent time wake

section InTune

variable {here there : Rehearsal} (inTune : InTune here there)
include inTune

theorem take_inTune {outcome outcome' : Step × Interpreter}
    (alike : StepsAlike SameTelling SameRecords outcome outcome') :
    InTune (here.take outcome).2 (there.take outcome').2 := by
  obtain ⟨step, after⟩ := outcome
  obtain ⟨other, after'⟩ := outcome'
  obtain ⟨same, abreast⟩ : SameTelling step other ∧ Abreast SameRecords after after' := alike
  cases same with
  | resume time time' wake => exact ⟨abreast, rfl, .resume ..⟩
  | same step =>
      cases step with
      | ignored =>
          simp only [take, accept_ignored]
          refine ⟨abreast, inTune.pending, ?_⟩
          rw [abreast.phase]
          cases after'.phase with
          | stopped | ended => exact .same _
          | _ => exact inTune.last
      | _ => exact ⟨abreast, rfl, .same _⟩

theorem pending_inTune : here.pending = none ∧ there.pending = none ∨
    ∃ timer timer', here.pending = some timer ∧ there.pending = some timer' ∧
      timer.wake = timer'.wake := by
  have wakes := inTune.pending
  cases pending : here.pending <;> cases pending' : there.pending <;>
    rw [pending, pending'] at wakes
  case none.none => exact .inl ⟨rfl, rfl⟩
  case some.some timer timer' => exact .inr ⟨timer, timer', rfl, rfl, Option.some.inj wakes⟩
  all_goals cases wakes

theorem enoughFires_inTune : here.enoughFires = there.enoughFires := by
  have fires : here.interpreter.script.fires = there.interpreter.script.fires := by
    rw [← Script.fires_untimed, inTune.interpreter.script, Script.fires_untimed]
  exact congrArg (· + 1) fires

theorem observation_inTune : here.observation = there.observation := by
  have content := inTune.interpreter.content
  simp only [observation, Observation.mk.injEq]
  exact ⟨inTune.interpreter.pc, inTune.interpreter.phase, content.scene,
    inTune.interpreter.pendingChoices, content.diagnostics, content.history⟩

variable {first second : Stage} (lockstep : Lockstep first second SameTelling SameRecords)
include lockstep

theorem start_inTune {script other : Script} (untimed : script.untimed = other.untimed) :
    SameTelling (here.start first script).1 (there.start second other).1 ∧
      InTune (here.start first script).2 (there.start second other).2 := by
  have started := lockstep.runUntilSuspended (begin_abreast untimed inTune.interpreter)
  exact ⟨started.1, take_inTune inTune started⟩

theorem advance_inTune : SameTelling (here.advance first).1 (there.advance second).1 ∧
    InTune (here.advance first).2 (there.advance second).2 := by
  have advanced := lockstep.advance inTune.interpreter
  exact ⟨advanced.1, take_inTune inTune advanced⟩

theorem select_inTune (index : Nat) :
    AnswersAlike SameTelling (.ofResult (here.select first index).1)
        (.ofResult (there.select second index).1) ∧
      InTune (here.select first index).2 (there.select second index).2 := by
  obtain ⟨answers, selected⟩ := lockstep.select inTune.interpreter index
  unfold Rehearsal.select
  generalize here.interpreter.select first index = outcome at answers selected ⊢
  generalize there.interpreter.select second index = outcome' at answers selected ⊢
  obtain ⟨result, after⟩ := outcome
  obtain ⟨result', after'⟩ := outcome'
  cases result with
  | ok step =>
      cases result' with
      | ok other =>
          cases answers with
          | step same =>
              have outcomes : StepsAlike SameTelling SameRecords (step, after) (other, after') :=
                ⟨same, selected⟩
              exact ⟨.step same, take_inTune inTune outcomes⟩
      | error refusal => cases answers
  | error refusal =>
      cases result' with
      | ok other => cases answers
      | error refusal' =>
          cases answers
          exact ⟨.refusal _, { inTune with interpreter := selected }⟩

theorem fire_inTune {timer timer' : DueTimer} (same : timer.wake = timer'.wake) :
    InTune (here.fire first timer).2 (there.fire second timer').2 := by
  have ready : InTune { here with now := max here.now timer.due, pending := none }
      { there with now := max there.now timer'.due, pending := none } :=
    ⟨inTune.interpreter, rfl, inTune.last⟩
  unfold fire
  rw [same]
  exact take_inTune ready (lockstep.wake inTune.interpreter timer'.wake)

omit inTune in
theorem fireWithin_inTune (fuel : Nat) {here there : Rehearsal} (inTune : InTune here there) :
    Option.Rel InTune (fireWithin first none fuel here) (fireWithin second none fuel there) := by
  induction fuel generalizing here there with
  | zero =>
      rcases pending_inTune inTune with ⟨none, none'⟩ | ⟨timer, timer', pending, pending', same⟩
      · rw [fireWithin_of_later 0 (rests_of_pending none),
          fireWithin_of_later 0 (rests_of_pending none')]
        exact .some inTune
      · rw [(fireWithin_of_due pending rfl).1, (fireWithin_of_due pending' rfl).1]
        exact .none
  | succ fuel ih =>
      rcases pending_inTune inTune with ⟨none, none'⟩ | ⟨timer, timer', pending, pending', same⟩
      · rw [fireWithin_of_later _ (rests_of_pending none),
          fireWithin_of_later _ (rests_of_pending none')]
        exact .some inTune
      · rw [(fireWithin_of_due pending rfl).2, (fireWithin_of_due pending' rfl).2]
        exact ih (fire_inTune inTune lockstep same)

theorem runUntilBlocked_inTune (coherent : here.Coherent) :
    Option.Rel (fun outcome other => outcome.1 = other.1 ∧ InTune outcome.2 other.2)
      (here.runUntilBlocked first) (there.runUntilBlocked second) := by
  have fired := fireWithin_inTune lockstep here.enoughFires inTune
  have returned {stage : Stage} {before after : Rehearsal}
      (ended : fireWithin stage none before.enoughFires before = some after) :
      before.runUntilBlocked stage = some (after.last, after) := by
    rw [runUntilBlocked, ended]
    rfl
  cases ended : fireWithin first none here.enoughFires here <;>
    cases ended' : fireWithin second none here.enoughFires there <;> rw [ended, ended'] at fired
  case none.none =>
    rw [enoughFires_inTune inTune] at ended'
    rw [runUntilBlocked, runUntilBlocked, ended, ended']
    exact .none
  case some.some after after' =>
    rw [enoughFires_inTune inTune] at ended'
    cases fired with
    | some inTune =>
        have last : after.last = after'.last := by
          have same := inTune.last
          generalize kept : after.last = step at same ⊢
          generalize after'.last = other at same ⊢
          cases same with
          | same => rfl
          | resume time time' wake =>
              -- No timer is waited for any more, so this is not the last step.
              exact absurd kept (coherent.blocked_ne_resume (returned ended) time wake)
        rw [returned ended, returned ended']
        exact .some ⟨last, inTune⟩
  all_goals cases fired

end InTune

/-! ## Calls -/

inductive Call where
  | play (script : Script)
  | advanceAndRun
  | chooseAndRun (index : Nat)

def Call.untimed : Call → Call
  | play script => play script.untimed
  | call => call

def call (stage : Stage) (rehearsal : Rehearsal) :
    Call → Option (Except Refusal Step × Rehearsal)
  | .play script => (rehearsal.play stage script).map (Prod.map .ok id)
  | .advanceAndRun => (rehearsal.advanceAndRun stage).map (Prod.map .ok id)
  | .chooseAndRun index => rehearsal.chooseAndRun stage index

def enter (stage : Stage) (rehearsal : Rehearsal) : Call → Except Refusal Step × Rehearsal
  | .play script => (rehearsal.start stage script).map .ok id
  | .advanceAndRun => (rehearsal.advance stage).map .ok id
  | .chooseAndRun index => rehearsal.select stage index

def Declined (stage : Stage) (rehearsal : Rehearsal) (call : Call) : Prop :=
  (Answer.ofResult (rehearsal.enter stage call).1).Declines

/-- What each call hands back, and what is seen after it, up to a call after which the rehearsal
never blocks. -/
def calls (stage : Stage) :
    List Call → Rehearsal → List (Option (Except Refusal Step × Observation))
  | [], _ => []
  | call :: calls, rehearsal =>
      match rehearsal.call stage call with
      | none => [none]
      | some (result, rehearsal) =>
          some (result, rehearsal.observation) :: rehearsal.calls stage calls

section Calls

variable {stage : Stage} {before after : Rehearsal} {result : Except Refusal Step}

theorem operates_of_call {call : Call} (returned : before.call stage call = some (result, after)) :
    Operates stage before after := by
  cases call with
  | play script =>
      obtain ⟨⟨step, last⟩, played, same⟩ := Option.map_eq_some_iff.mp returned
      cases same
      exact operates_of_play played
  | advanceAndRun =>
      obtain ⟨⟨step, last⟩, advanced, same⟩ := Option.map_eq_some_iff.mp returned
      cases same
      exact operates_of_advanceAndRun advanced
  | chooseAndRun index => exact operates_of_chooseAndRun returned

theorem call_of_declined {call : Call} (declined : before.Declined stage call) :
    before.call stage call = some (before.enter stage call) := by
  cases call with
  | play script => exact absurd declined (start_answered stage script before.interpreter)
  | advanceAndRun =>
      rcases outcome : before.advance stage with ⟨step, advanced⟩
      simp only [Declined, enter, outcome, Prod.map_fst] at declined
      obtain rfl : step = .ignored := declined
      simp only [call, advanceAndRun, enter, outcome]
      rfl
  | chooseAndRun index =>
      rcases outcome : before.select stage index with ⟨result, selected⟩
      simp only [Declined, enter, outcome] at declined
      cases result with
      | error refusal => simp only [call, chooseAndRun, enter, outcome]
      | ok step =>
          obtain rfl : step = .ignored := declined
          simp only [call, chooseAndRun, enter, outcome]

theorem call_of_answered {call : Call} (answered : ¬before.Declined stage call) :
    before.call stage call =
      ((before.enter stage call).2.runUntilBlocked stage).map (Prod.map .ok id) := by
  cases call with
  | play script => rfl
  | advanceAndRun =>
      rcases outcome : before.advance stage with ⟨step, advanced⟩
      simp only [Declined, enter, outcome, Prod.map_fst] at answered
      simp only [call, advanceAndRun, enter, outcome]
      cases step with
      | ignored => exact absurd rfl answered
      | _ => rfl
  | chooseAndRun index =>
      rcases outcome : before.select stage index with ⟨result, selected⟩
      simp only [Declined, enter, outcome] at answered
      simp only [call, chooseAndRun, enter, outcome]
      cases result with
      | error refusal => exact absurd trivial answered
      | ok step =>
          cases step with
          | ignored => exact absurd rfl answered
          | _ => rfl

theorem enter_operates (call : Call) : Operates stage before (before.enter stage call).2 := by
  cases call with
  | play script => exact .start script
  | advanceAndRun => exact .advance
  | chooseAndRun index => exact .select index

theorem call_eq_none_iff (disturbed : Disturbed stage before) (call : Call) :
    before.call stage call = none ↔ ¬before.Declined stage call ∧
      ∀ after, ¬Fires stage none (before.enter stage call).2 after := by
  by_cases declined : before.Declined stage call
  · rw [call_of_declined declined]
    exact iff_of_false nofun fun ⟨answered, _⟩ => answered declined
  · have entered : Disturbed stage (before.enter stage call).2 :=
      .operate disturbed (enter_operates call)
    rw [call_of_answered declined, Option.map_eq_none_iff]
    constructor
    · intro none
      refine ⟨declined, fun after fires => ?_⟩
      have blocked := (runUntilBlocked_eq_some_iff entered).mpr ⟨fires, rfl⟩
      cases none.symm.trans blocked
    · rintro ⟨-, never⟩
      cases blocked : (before.enter stage call).2.runUntilBlocked stage with
      | none => rfl
      | some outcome => exact absurd (fires_of_runUntilBlocked blocked).1 (never _)

end Calls

section Together

variable {first second : Stage} {here there : Rehearsal}
  (lockstep : Lockstep first second SameTelling SameRecords) (inTune : InTune here there)
include lockstep inTune

theorem enter_inTune {call other : Call} (same : call.untimed = other.untimed) :
    AnswersAlike SameTelling (.ofResult (here.enter first call).1)
        (.ofResult (there.enter second other).1) ∧
      InTune (here.enter first call).2 (there.enter second other).2 := by
  cases call with
  | play script =>
      cases other with
      | play other =>
          obtain ⟨steps, started⟩ := start_inTune inTune lockstep (Call.play.inj same)
          exact ⟨.step steps, started⟩
      | _ => cases same
  | advanceAndRun =>
      cases other with
      | advanceAndRun =>
          obtain ⟨steps, advanced⟩ := advance_inTune inTune lockstep
          exact ⟨.step steps, advanced⟩
      | _ => cases same
  | chooseAndRun index =>
      cases other with
      | chooseAndRun other =>
          cases same
          exact select_inTune inTune lockstep index
      | _ => cases same

theorem call_inTune {call other : Call} (same : call.untimed = other.untimed)
    (coherent : here.Coherent) :
    Option.Rel (fun outcome other => outcome.1 = other.1 ∧ InTune outcome.2 other.2)
      (here.call first call) (there.call second other) := by
  obtain ⟨answers, entered⟩ := enter_inTune lockstep inTune same
  by_cases declined : here.Declined first call
  · have results : (here.enter first call).1 = (there.enter second other).1 :=
      Answer.ofResult_injective (SameTelling.eq_of_declines answers declined)
    have declined' := (SameTelling.declines_iff answers).mp declined
    rw [call_of_declined declined, call_of_declined declined']
    exact .some ⟨results, entered⟩
  · have answered : ¬there.Declined second other := fun declined' =>
      declined ((SameTelling.declines_iff answers).mpr declined')
    have blocked := runUntilBlocked_inTune entered lockstep (coherent.operate (enter_operates call))
    rw [call_of_answered declined, call_of_answered answered]
    generalize (here.enter first call).2.runUntilBlocked first = outcome at blocked ⊢
    generalize (there.enter second other).2.runUntilBlocked second = outcome' at blocked ⊢
    cases blocked with
    | none => exact .none
    | some alike => exact .some ⟨congrArg Except.ok alike.1, alike.2⟩

theorem calls_inTune {calls others : List Call}
    (same : calls.map Call.untimed = others.map Call.untimed) (coherent : here.Coherent) :
    here.calls first calls = there.calls second others := by
  induction calls generalizing others here there with
  | nil =>
      cases others with
      | nil => rfl
      | cons other others => cases same
  | cons call calls ih =>
      cases others with
      | nil => cases same
      | cons other others =>
          obtain ⟨head, tail⟩ := List.cons.inj same
          have called := call_inTune lockstep inTune head coherent
          have goesOn {result : Except Refusal Step} {after : Rehearsal}
              (returned : here.call first call = some (result, after)) : after.Coherent :=
            coherent.operate (operates_of_call returned)
          simp only [Rehearsal.calls]
          generalize here.call first call = outcome at called goesOn ⊢
          generalize there.call second other = outcome' at called ⊢
          cases called with
          | none => rfl
          | @some outcome outcome' alike =>
              obtain ⟨result, after⟩ := outcome
              obtain ⟨result', after'⟩ := outcome'
              obtain ⟨rfl, inTune⟩ : result = result' ∧ InTune after after' := alike
              simp only [observation_inTune inTune, ih inTune tail (goesOn rfl)]

end Together

/-- Whatever the times in the settings and in the scripts, the same calls block, and hand back and
show the same. Nothing is handed back just where a call would fire timers for ever. -/
theorem timing_unnoticed (stage : Stage) (settings : Settings)
    (ends : settings.endText = stage.settings.endText)
    (loops : settings.loopByDefault = stage.settings.loopByDefault) {calls others : List Call}
    (same : calls.map Call.untimed = others.map Call.untimed) :
    (ofInterpreter .fresh).calls stage calls =
        (ofInterpreter .fresh).calls { stage with settings } others ∧
      ∀ rehearsal, Disturbed stage rehearsal → ∀ call, rehearsal.call stage call = none ↔
        ¬rehearsal.Declined stage call ∧
          ∀ after, ¬Fires stage none (rehearsal.enter stage call).2 after := by
  obtain ⟨table, own, playback⟩ := stage
  have lockstep := lockstep_timing table playback ends.symm loops.symm
  have begins : InTune (ofInterpreter .fresh) (ofInterpreter .fresh) :=
    ⟨⟨rfl, rfl, rfl, rfl, rfl, rfl, rfl, rfl, rfl, rfl, rfl, rfl⟩, rfl, .same _⟩
  exact ⟨calls_inTune lockstep begins same coherent_fresh,
    fun rehearsal disturbed call => call_eq_none_iff disturbed call⟩

theorem timing_unnoticed_hasty :
    let stage : Stage := ⟨{}, .standard, .accepting⟩
    let settings : Settings := { textInterval := 0, defaultWait := 7 }
    let rehearsal := ofInterpreter .fresh
    let script (wait : Option UInt64) : Script := ⟨[.wait wait, .say none "Hi"]⟩
    let calls (wait : Option UInt64) : List Call := [.play (script wait), .advanceAndRun]
    settings.endText = stage.settings.endText ∧
    settings.loopByDefault = stage.settings.loopByDefault ∧
    (calls (some 200)).map Call.untimed = (calls none).map Call.untimed ∧
    rehearsal.calls stage (calls (some 200)) =
      rehearsal.calls { stage with settings } (calls none) ∧
    (rehearsal.play stage (script (some 200))).map (·.2.now) = some 260 ∧
    (rehearsal.play { stage with settings } (script none)).map (·.2.now) = some 7 := by
  intro stage settings rehearsal script calls
  have same : (calls (some 200)).map Call.untimed = (calls none).map Call.untimed := rfl
  exact ⟨rfl, rfl, same, (timing_unnoticed stage settings rfl rfl same).1, by decide +kernel,
    by decide +kernel⟩

end Rehearsal

end VisualNovel
