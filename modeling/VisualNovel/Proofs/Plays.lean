import VisualNovel.Player
import VisualNovel.Proofs.Course

/-!
Plays apart from the player that carries them out: timers fire without a line, each prompt takes
exactly one line, and the end of the lines quits. The player gives up on no play that ends, since a
run that waits for more timers than fit into its script never comes to a prompt.

Main statement: `playOn_eq_some_iff`.
-/

namespace VisualNovel.Player

open Interpreter

/-! ## Players -/

section Output

variable (debug : Bool) (player : Player)

@[simp] theorem print_interpreter (text : String) :
    (player.print text).interpreter = player.interpreter := rfl

@[simp] theorem print_awaited (text : String) : (player.print text).awaited = player.awaited := rfl

@[simp] theorem follow_interpreter (interpreter : Interpreter) :
    (player.follow interpreter).interpreter = interpreter := rfl

@[simp] theorem follow_awaited (interpreter : Interpreter) :
    (player.follow interpreter).awaited = player.awaited := rfl

@[simp] theorem ask_interpreter : (player.ask debug).interpreter = player.interpreter := by
  unfold ask
  cases debug <;> cases player.awaited <;> rfl

@[simp] theorem ask_awaited : (player.ask debug).awaited = player.awaited := by
  unfold ask
  cases debug <;> cases awaited : player.awaited <;> simp [awaited]

@[simp] theorem take_interpreter (outcome : Step × Interpreter) :
    (player.take debug outcome).interpreter = outcome.2 := by
  simp [take]

@[simp] theorem take_awaited (outcome : Step × Interpreter) :
    (player.take debug outcome).awaited = .ofStep outcome.2.phase outcome.1 := by
  simp [take]

end Output

def Prompts (player : Player) : Prop :=
  player.awaited = .advance ∨ player.awaited = .choice

theorem Prompts.not_timer {player : Player} (prompts : player.Prompts) {after : Nat} {wake : Wake} :
    player.awaited ≠ .timer after wake := by
  obtain awaited | awaited := prompts <;> simp [awaited]

theorem Prompts.not_nothing {player : Player} (prompts : player.Prompts) :
    player.awaited ≠ .nothing := by
  obtain awaited | awaited := prompts <;> simp [awaited]

/-! ## Plays -/

section Plays

variable (stage : Stage) (debug : Bool)

inductive Plays : Player → List Line → Ending → Player → Prop where
  | fires {player final : Player} {lines : List Line} {ending : Ending} {after : Nat}
      {wake : Wake} : player.awaited = .timer after wake →
      Plays (player.fire stage debug wake) lines ending final → Plays player lines ending final
  | halts {player : Player} (lines : List Line) : player.awaited = .nothing →
      Plays player lines .finished player.finish
  | inputEnds {player : Player} : player.Prompts → Plays player [] .finished player.finish
  | enters {player final : Player} {content : String} {lines : List Line} {ending : Ending} :
      player.Prompts → Plays (player.enter stage debug (.ofLine content)) lines ending final →
      Plays player (.text content :: lines) ending final
  | unreadable {player : Player} (fault : Text.EncodingFault) (lines : List Line) :
      player.Prompts → Plays player (.unreadable fault :: lines) (.unreadable fault) player

/-- The players that plays of a script come to, whatever is entered. -/
inductive InPlay (script : Script) : Player → Prop where
  | start : InPlay script (start stage debug script)
  | fire {player : Player} {after : Nat} {wake : Wake} : InPlay script player →
      player.awaited = .timer after wake → InPlay script (player.fire stage debug wake)
  | enter {player : Player} (reply : Reply) : InPlay script player → player.Prompts →
      InPlay script (player.enter stage debug reply)

inductive Settles : Player → Player → Prop where
  | rests {player : Player} : (∀ after wake, player.awaited ≠ .timer after wake) →
      Settles player player
  | fires {player rested : Player} {after : Nat} {wake : Wake} :
      player.awaited = .timer after wake → Settles (player.fire stage debug wake) rested →
      Settles player rested

end Plays

/-! ## What is waited for -/

structure Tuned (stage : Stage) (player : Player) : Prop where
  reachable : Reachable stage player.interpreter
  timer : ∀ {after wake}, player.awaited = .timer after wake →
    player.interpreter.clock.live = some wake
  advance : player.awaited = .advance → player.interpreter.phase = .awaitingAdvance
  choice : player.awaited = .choice → player.interpreter.phase = .awaitingChoice

section Tuned

variable {stage : Stage} {debug : Bool} {player : Player}

theorem Tuned.of_same {other : Player} (tuned : Tuned stage player)
    (reachable : Reachable stage other.interpreter)
    (machine : other.interpreter.toMachine = player.interpreter.toMachine)
    (awaited : other.awaited = player.awaited) : Tuned stage other where
  reachable := reachable
  timer := by
    intro after wake waits
    rw [live_of_toMachine machine]
    exact tuned.timer (awaited ▸ waits)
  advance := by
    rw [awaited, machine]
    exact tuned.advance
  choice := by
    rw [awaited, machine]
    exact tuned.choice

theorem Tuned.tell (tuned : Tuned stage player) (text : String) :
    Tuned stage ((player.print text).ask debug) :=
  tuned.of_same (by simpa using tuned.reachable) (by simp) (by simp)

theorem ofStep_timer {phase : Phase} {step : Step} {time : Nat} {wake : Wake}
    (awaited : Awaited.ofStep phase step = .timer time wake) : step = .resume time wake := by
  cases step with
  | resume => cases awaited; rfl
  | ignored => cases phase <;> cases awaited
  | _ => cases awaited

theorem phase_of_awaited {before after : Interpreter} {step : Step}
    (replies : Replies before step after) :
    (Awaited.ofStep after.phase step = .advance → after.phase = .awaitingAdvance) ∧
      (Awaited.ofStep after.phase step = .choice → after.phase = .awaitingChoice) := by
  cases replies with
  | ignored => cases phase : after.phase <;> simp [Awaited.ofStep]
  | tells timely phase waits => cases step <;> simp_all [Awaited.ofStep, Step.phase?]

theorem take_tuned {before after : Interpreter} {step : Step} (reachable : Reachable stage after)
    (replies : Replies before step after) : Tuned stage (player.take debug (step, after)) where
  reachable := by simpa using reachable
  timer := by
    intro time wake awaited
    rw [take_awaited] at awaited
    obtain rfl := ofStep_timer awaited
    cases replies with
    | tells timely phase waits =>
        rw [take_interpreter]
        exact waits.symm
  advance := by simpa using (phase_of_awaited replies).1
  choice := by simpa using (phase_of_awaited replies).2

theorem start_tuned (stage : Stage) (debug : Bool) (script : Script) :
    Tuned stage (start stage debug script) := by
  have tells := start_tells stage script .fresh
  have serves := perform_serves stage (.start script) Clock.timely_fresh
  have replies : Replies .fresh (fresh.start stage script).1 (fresh.start stage script).2 :=
    .tells (serves.timely Clock.timely_fresh) tells (serves.wake?_eq_live tells)
  exact take_tuned (.perform (.start script) .fresh) replies

theorem fire_tuned (tuned : Tuned stage player) (wake : Wake) :
    Tuned stage (player.fire stage debug wake) :=
  take_tuned (tuned.reachable.perform (.move (.wake wake)))
    (replies_of_move (.wake wake) tuned.reachable.timely rfl)

theorem choose_tuned (tuned : Tuned stage player) (text : String) :
    Tuned stage (player.choose stage debug text) := by
  unfold choose
  split
  · exact tuned.tell _
  · next index _ =>
      have reachable := tuned.reachable.perform (.move (.select index))
      split
      · next step interpreter selected =>
          have outcome : player.interpreter.makeMove stage (.select index) =
              (.step step, interpreter) := by simp [makeMove, selected, Answer.ofResult]
          rw [perform, outcome] at reachable
          exact take_tuned reachable
            (replies_of_move (.select index) tuned.reachable.timely outcome)
      · next refusal interpreter refused =>
          have outcome : player.interpreter.makeMove stage (.select index) =
              (.refusal refusal, interpreter) := by simp [makeMove, refused, Answer.ofResult]
          have same := (moved_of_eq outcome).toMachine_of_refused
          rw [perform, outcome] at reachable
          exact tuned.of_same (by simpa using reachable) (by simpa using same) (by simp)

theorem enter_tuned (tuned : Tuned stage player) (reply : Reply) :
    Tuned stage (player.enter stage debug reply) := by
  unfold enter
  split
  · exact take_tuned (tuned.reachable.perform (.move .advance))
      (replies_of_move .advance tuned.reachable.timely rfl)
  · exact tuned.tell _
  · exact tuned.of_same (by simpa using tuned.reachable) (by simp) (by simp)
  · exact choose_tuned tuned _
  · exact ⟨tuned.reachable, nofun, nofun, nofun⟩
  · exact tuned

theorem InPlay.tuned {script : Script} (inPlay : InPlay stage debug script player) :
    Tuned stage player := by
  induction inPlay with
  | start => exact start_tuned ..
  | fire _ awaited tuned => exact fire_tuned tuned _
  | enter reply _ prompts tuned => exact enter_tuned tuned reply

end Tuned

/-! ## How often timers fire -/

section Fuel

variable {stage : Stage} {debug : Bool} {player rested : Player}

theorem settleWithin_of_timer {after : Nat} {wake : Wake}
    (awaited : player.awaited = .timer after wake) (fuel : Nat) :
    settleWithin stage debug (fuel + 1) player =
      settleWithin stage debug fuel (player.fire stage debug wake) := by
  rw [settleWithin, awaited]

theorem settleWithin_of_rest (rests : ∀ after wake, player.awaited ≠ .timer after wake)
    (fuel : Nat) : settleWithin stage debug fuel player = some player := by
  cases awaited : player.awaited with
  | timer after wake => exact absurd awaited (rests after wake)
  | _ => cases fuel <;> simp [settleWithin, awaited]

theorem timer_or_rest (player : Player) : (∃ after wake, player.awaited = .timer after wake) ∨
    ∀ after wake, player.awaited ≠ .timer after wake := by
  cases player.awaited with
  | timer after wake => exact .inl ⟨after, wake, rfl⟩
  | _ => exact .inr nofun

theorem settles_of_settleWithin {fuel : Nat}
    (settled : settleWithin stage debug fuel player = some rested) :
    Settles stage debug player rested := by
  induction fuel generalizing player with
  | zero =>
      obtain ⟨after, wake, awaited⟩ | rests := timer_or_rest player
      · simp [settleWithin, awaited] at settled
      · rw [settleWithin_of_rest rests] at settled
        cases settled
        exact .rests rests
  | succ fuel ih =>
      obtain ⟨after, wake, awaited⟩ | rests := timer_or_rest player
      · rw [settleWithin_of_timer awaited] at settled
        exact .fires awaited (ih settled)
      · rw [settleWithin_of_rest rests] at settled
        cases settled
        exact .rests rests

theorem settleWithin_mono {fuel more : Nat}
    (settled : settleWithin stage debug fuel player = some rested) (less : fuel ≤ more) :
    settleWithin stage debug more player = some rested := by
  induction fuel generalizing player more with
  | zero =>
      obtain ⟨after, wake, awaited⟩ | rests := timer_or_rest player
      · simp [settleWithin, awaited] at settled
      · rwa [settleWithin_of_rest rests] at settled ⊢
  | succ fuel ih =>
      obtain ⟨after, wake, awaited⟩ | rests := timer_or_rest player
      · obtain ⟨more, rfl⟩ := Nat.exists_eq_add_of_le' (Nat.lt_of_lt_of_le fuel.succ_pos less)
        rw [settleWithin_of_timer awaited] at settled ⊢
        exact ih settled (Nat.le_of_succ_le_succ less)
      · rwa [settleWithin_of_rest rests] at settled ⊢

theorem Settles.track (settles : Settles stage debug player rested) {spot : Spot} {after : Nat}
    {wake : Wake} (tuned : Tuned stage player) (waitsAt : WaitsAt player.interpreter spot)
    (awaited : player.awaited = .timer after wake) :
    ∃ rest, Track player.interpreter.script.next? spot rest ∧
      settleWithin stage debug (rest.length + 1) player = some rested := by
  induction settles generalizing spot after wake with
  | rests rests => exact absurd awaited (rests after wake)
  | @fires player rested after' wake' awaited' settles ih =>
      obtain ⟨rfl, rfl⟩ := Awaited.timer.inj (awaited.symm.trans awaited')
      have live := tuned.timer awaited
      have tuned' : Tuned stage (player.fire stage debug wake) := fire_tuned tuned wake
      have comes := wake_comes stage tuned.reachable.timely waitsAt live
      have first (fuel : Nat) : settleWithin stage debug (fuel + 1) player =
          settleWithin stage debug fuel (player.fire stage debug wake) :=
        settleWithin_of_timer awaited fuel
      rcases outcome : player.interpreter.wake stage wake with ⟨step, interpreter⟩
      have fired : player.fire stage debug wake = player.take debug (step, interpreter) := by
        rw [fire, outcome]
      rw [outcome] at comes
      generalize leads : player.interpreter.script.next? spot = next? at comes
      cases comes with
      | @waits next _ later same waitsAt' =>
          have script : (player.fire stage debug wake).interpreter.script =
              player.interpreter.script := by simpa [fired] using same
          have awaited' : (player.fire stage debug wake).awaited =
              .timer (player.interpreter.script.delayAt stage.settings next.offset) later := by
            rw [fired, take_awaited]
            rfl
          obtain ⟨rest, track, settled⟩ := ih tuned' (by simpa [fired] using waitsAt') awaited'
          rw [script] at track
          exact ⟨next :: rest, .step leads track, (first _).trans settled⟩
      | halts halted =>
          have rests (time : Nat) (later : Wake) :
              (player.fire stage debug wake).awaited ≠ .timer time later := by
            intro waits
            have live' := tuned'.timer waits
            rw [fired, take_interpreter, Clock.live_of_halted halted] at live'
            cases live'
          have same : rested = player.fire stage debug wake := by
            cases settles with
            | rests => rfl
            | fires waits => exact absurd waits (rests _ _)
          refine ⟨[], .last leads, (first 0).trans ?_⟩
          rw [same]
          exact settleWithin_of_rest rests 0

theorem Settles.settle (settles : Settles stage debug player rested) (tuned : Tuned stage player) :
    player.settle stage debug = some rested := by
  obtain ⟨after, wake, awaited⟩ | rests := timer_or_rest player
  · have live := tuned.timer awaited
    have running : player.interpreter.phase = .running :=
      tuned.reachable.timely.live_isSome_iff.mp (by rw [live]; rfl)
    obtain ⟨spot, waitsAt⟩ := tuned.reachable.onCourse running
    obtain ⟨rest, track, settled⟩ := settles.track tuned waitsAt awaited
    have less := track.lt_length waitsAt.mem_spots fun _ leads => Script.mem_spots_of_next? leads
    rw [Script.length_spots] at less
    exact settleWithin_mono settled (by omega)
  · have same : rested = player := by
      cases settles with
      | rests => rfl
      | fires waits => exact absurd waits (rests _ _)
    rw [same]
    exact settleWithin_of_rest rests _

end Fuel

/-! ## Playing on -/

section PlayOn

variable {stage : Stage} {debug : Bool} {script : Script} {player rested final : Player}
  {lines : List Line} {ending : Ending}

theorem Settles.atRest (settles : Settles stage debug player rested) :
    ∀ after wake, rested.awaited ≠ .timer after wake := by
  induction settles with
  | rests rests => exact rests
  | fires _ _ ih => exact ih

theorem Settles.plays (settles : Settles stage debug player rested)
    (plays : Plays stage debug rested lines ending final) :
    Plays stage debug player lines ending final := by
  induction settles with
  | rests => exact plays
  | fires awaited _ ih => exact .fires awaited (ih plays)

theorem settle_of_rest (rests : ∀ after wake, player.awaited ≠ .timer after wake) :
    player.settle stage debug = some player :=
  settleWithin_of_rest rests _

theorem playOn_of_settle (settled : player.settle stage debug = some rested) :
    player.playOn stage debug lines = rested.playOn stage debug lines := by
  have rests := (settles_of_settleWithin settled).atRest
  cases lines <;> simp only [playOn, settled, settle_of_rest rests]

theorem prompts_or_nothing (rests : ∀ after wake, player.awaited ≠ .timer after wake) :
    player.Prompts ∨ player.awaited = .nothing := by
  unfold Prompts
  cases awaited : player.awaited with
  | timer after wake => exact absurd awaited (rests after wake)
  | _ => simp

theorem settle_of_playOn (played : player.playOn stage debug lines = some (ending, final)) :
    ∃ rested, player.settle stage debug = some rested := by
  cases settled : player.settle stage debug with
  | some rested => exact ⟨rested, rfl⟩
  | none => cases lines <;> simp [playOn, settled] at played

/-! What is played with the lines to come, where no timer is waited for. -/

theorem playOn_of_nothing (nothing : player.awaited = .nothing) :
    player.playOn stage debug lines = some (.finished, player.finish) := by
  have settled : player.settle stage debug = some player := settle_of_rest (by simp [nothing])
  cases lines <;> simp [playOn, settled, nothing]

section Prompt

variable (prompts : player.Prompts)
include prompts

theorem playOn_nil : player.playOn stage debug [] = some (.finished, player.finish) := by
  have settled : player.settle stage debug = some player :=
    settle_of_rest fun _ _ => prompts.not_timer
  simp [playOn, settled]

theorem playOn_text (content : String) :
    player.playOn stage debug (.text content :: lines) =
      (player.enter stage debug (.ofLine content)).playOn stage debug lines := by
  have settled : player.settle stage debug = some player :=
    settle_of_rest fun _ _ => prompts.not_timer
  obtain awaited | awaited := prompts <;> simp [playOn, settled, awaited]

theorem playOn_unreadable (fault : Text.EncodingFault) :
    player.playOn stage debug (.unreadable fault :: lines) =
      some (.unreadable fault, player) := by
  have settled : player.settle stage debug = some player :=
    settle_of_rest fun _ _ => prompts.not_timer
  obtain awaited | awaited := prompts <;> simp [playOn, settled, awaited]

end Prompt

theorem plays_of_playOn (played : player.playOn stage debug lines = some (ending, final)) :
    Plays stage debug player lines ending final := by
  induction lines generalizing player with
  | nil =>
      obtain ⟨rested, settled⟩ := settle_of_playOn played
      have settles := settles_of_settleWithin settled
      refine settles.plays ?_
      rw [playOn_of_settle settled] at played
      obtain prompts | nothing := prompts_or_nothing settles.atRest
      · rw [playOn_nil prompts] at played
        cases played
        exact .inputEnds prompts
      · rw [playOn_of_nothing nothing] at played
        cases played
        exact .halts [] nothing
  | cons line lines ih =>
      obtain ⟨rested, settled⟩ := settle_of_playOn played
      have settles := settles_of_settleWithin settled
      refine settles.plays ?_
      rw [playOn_of_settle settled] at played
      obtain prompts | nothing := prompts_or_nothing settles.atRest
      · cases line with
        | text content =>
            rw [playOn_text prompts] at played
            exact .enters prompts (ih played)
        | unreadable fault =>
            rw [playOn_unreadable prompts] at played
            cases played
            exact .unreadable fault lines prompts
      · rw [playOn_of_nothing nothing] at played
        cases played
        exact .halts (line :: lines) nothing

theorem playOn_of_plays (plays : Plays stage debug player lines ending final)
    (inPlay : InPlay stage debug script player) :
    player.playOn stage debug lines = some (ending, final) := by
  induction plays with
  | @fires player final lines ending after wake awaited plays ih =>
      have played := ih (inPlay.fire awaited)
      obtain ⟨rested, settled⟩ := settle_of_playOn played
      have settles : Settles stage debug player rested :=
        .fires awaited (settles_of_settleWithin settled)
      rwa [playOn_of_settle (settles.settle inPlay.tuned), ← playOn_of_settle settled]
  | halts lines nothing => exact playOn_of_nothing nothing
  | inputEnds prompts => exact playOn_nil prompts
  | enters prompts plays ih =>
      rw [playOn_text prompts]
      exact ih (inPlay.enter _ prompts)
  | unreadable fault lines prompts => exact playOn_unreadable prompts fault

/-- A play comes to an end just if the player gets there. -/
theorem playOn_eq_some_iff (inPlay : InPlay stage debug script player) :
    player.playOn stage debug lines = some (ending, final) ↔
      Plays stage debug player lines ending final :=
  ⟨plays_of_playOn, fun plays => playOn_of_plays plays inPlay⟩

end PlayOn

end VisualNovel.Player
