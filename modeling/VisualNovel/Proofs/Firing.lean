import VisualNovel.Proofs.Course
import VisualNovel.Proofs.Interference
import Mathlib.Data.List.ProdSigma

/-!
How often timers fire. A run waits for no timer twice, unless it goes round in a circle; so timers
that are fired until none is waited for, or none that is due, are no more than fit into the script,
and into the script at each moment.

Main statements: `runUntilBlocked_eq_some_iff` and `advanceTime_eq_some_iff`, which say that both
give a result whenever firing timers comes to an end.
-/

namespace VisualNovel.Rehearsal

open Interpreter

variable {stage : Stage} {rehearsal before after : Rehearsal}

/-! ## Rehearsals that are used in any order -/

@[simp] theorem accept_interpreter (step : Step) (rehearsal : Rehearsal) :
    (rehearsal.accept step).interpreter = rehearsal.interpreter := by
  cases step with
  | ignored => rw [accept_ignored]
  | _ => rfl

theorem fire_interpreter (timer : DueTimer) (rehearsal : Rehearsal) :
    (rehearsal.fire stage timer).2.interpreter =
      (rehearsal.interpreter.makeMove stage (.wake timer.wake)).2 := by
  simp only [fire, take, accept_interpreter]
  rfl

theorem select_interpreter (index : Nat) (rehearsal : Rehearsal) :
    (rehearsal.select stage index).2.interpreter =
      (rehearsal.interpreter.makeMove stage (.select index)).2 := by
  simp only [Rehearsal.select, makeMove, Prod.map_snd, id_eq]
  rcases rehearsal.interpreter.select stage index with ⟨result, after⟩
  cases result with
  | ok step => exact accept_interpreter ..
  | error refusal => rfl

theorem Fires.reachable {deadline : Option Nat} (fires : Fires stage deadline before after)
    (reachable : Reachable stage before.interpreter) : Reachable stage after.interpreter := by
  induction fires with
  | done => exact reachable
  | @fire before _ timer pending due _ ih =>
      apply ih
      rw [fire_interpreter]
      exact reachable.perform (.move (.wake timer.wake))

theorem Operates.reachable (operates : Operates stage before after)
    (reachable : Reachable stage before.interpreter) : Reachable stage after.interpreter := by
  have start (script : Script) : Reachable stage (before.start stage script).2.interpreter := by
    simp only [Rehearsal.start, take, accept_interpreter]
    exact reachable.perform (.start script)
  have advance : Reachable stage (before.advance stage).2.interpreter := by
    simp only [Rehearsal.advance, take, accept_interpreter]
    exact reachable.perform (.move .advance)
  have select (index : Nat) : Reachable stage (before.select stage index).2.interpreter := by
    rw [select_interpreter]
    exact reachable.perform (.move (.select index))
  cases operates with
  | start script => exact start script
  | advance => exact advance
  | select index => exact select index
  | fireNext fired =>
      obtain ⟨timer, pending, same⟩ := Option.map_eq_some_iff.mp fired
      have fired : (before.fire stage timer).2 = after := congrArg Prod.snd same
      rw [← fired, fire_interpreter]
      exact reachable.perform (.move (.wake timer.wake))
  | runUntilBlocked fires => exact fires.reachable reachable
  | advanceTime elapsed fires => exact (fires.reachable reachable :)
  | play script fires => exact fires.reachable (start script)
  | advanceAndRun answered fires => exact fires.reachable advance
  | chooseAndRun index answered solid fires => exact fires.reachable (select index)

theorem Disturbed.reachable (disturbed : Disturbed stage rehearsal) :
    Reachable stage rehearsal.interpreter := by
  induction disturbed with
  | fresh => exact .fresh
  | operate _ operates reachable => exact operates.reachable reachable
  | stop _ reachable => exact reachable.perform (.move .stop)
  | restore script save _ reachable => exact reachable.perform (.restore script save)

structure Prompt (rehearsal : Rehearsal) : Prop where
  timely : rehearsal.interpreter.clock.Timely
  early : ∀ timer ∈ rehearsal.pending, rehearsal.now ≤ timer.due

theorem Prompt.reacts {answer : Option Step} (prompt : before.Prompt)
    (reacts : before.Reacts answer after) : after.Prompt := by
  cases reacts with
  | told coherent => exact ⟨coherent.timely, coherent.due⟩
  | ignored same =>
      rw [accept_ignored]
      exact ⟨timely_of_toMachine same prompt.timely, prompt.early⟩
  | stale pending stale same =>
      rw [accept_ignored]
      exact ⟨timely_of_toMachine same prompt.timely, nofun⟩
  | refused same => exact ⟨timely_of_toMachine same prompt.timely, prompt.early⟩
  | waited now early =>
      exact ⟨prompt.timely,
        fun timer pending => Nat.max_le.mpr ⟨prompt.early timer pending, early timer pending⟩⟩

structure Punctual (rehearsal : Rehearsal) : Prop extends Quiet rehearsal where
  early : ∀ timer ∈ rehearsal.pending, rehearsal.now ≤ timer.due

theorem Punctual.toPrompt (punctual : before.Punctual) : before.Prompt :=
  ⟨punctual.timely, punctual.early⟩

theorem Punctual.reacts {answer : Option Step} (punctual : before.Punctual)
    (reacts : before.Reacts answer after) : after.Punctual :=
  ⟨punctual.toQuiet.reacts reacts, (punctual.toPrompt.reacts reacts).early⟩

theorem Disturbed.punctual (disturbed : Disturbed stage rehearsal) : rehearsal.Punctual := by
  induction disturbed with
  | fresh => exact ⟨coherent_fresh.quiet, nofun⟩
  | operate _ operates punctual => exact operates.rule (·.timely) (·.reacts) punctual
  | stop _ punctual => exact ⟨punctual.toQuiet.stop, punctual.early⟩
  | restore script save _ punctual =>
      exact ⟨punctual.toQuiet.restore script save, punctual.early⟩

/-! ## Firing the timer that is waited for -/

/-- The run waits at the spot for its timer, which is due at that time. -/
structure Attuned (script : Script) (spot : Spot) (due : Nat) (rehearsal : Rehearsal) : Prop where
  script : rehearsal.interpreter.script = script
  timely : rehearsal.interpreter.clock.Timely
  waitsAt : WaitsAt rehearsal.interpreter spot
  early : rehearsal.now ≤ due
  pending : ∃ wake, rehearsal.pending = some ⟨due, wake⟩ ∧
    rehearsal.interpreter.clock.live = some wake

theorem take_attuned {script : Script} {settings : Settings} {spot? : Option Spot} {step : Step}
    {after : Interpreter} (rehearsal : Rehearsal) (timely : after.clock.Timely)
    (phase : step.phase? = some after.phase)
    (waits : (Answer.step step).wake? = after.clock.live) :
    Comes script settings spot? step after →
    match spot? with
    | some spot => Attuned script spot (rehearsal.now + script.delayAt settings spot.offset)
        (rehearsal.take (step, after)).2
    | none => (rehearsal.take (step, after)).2.pending = none := by
  intro comes
  cases comes with
  | waits wake same waitsAt =>
      exact ⟨same, timely, waitsAt, Nat.le_add_right _ _, wake, rfl, waits.symm⟩
  | halts halted =>
      have coherent : (rehearsal.take (step, after)).2.Coherent :=
        coherent_of_tells timely phase waits
      refine coherent.pending_of_halted ?_
      simpa only [take, accept_interpreter] using halted

theorem Attuned.fire {script : Script} {spot : Spot} {due : Nat} {timer : DueTimer}
    (attuned : Attuned script spot due rehearsal) (stage : Stage)
    (pending : rehearsal.pending = some timer) :
    match script.next? spot with
    | some next => Attuned script next (due + script.delayAt stage.settings next.offset)
        (rehearsal.fire stage timer).2
    | none => (rehearsal.fire stage timer).2.pending = none := by
  obtain ⟨wake, waited, live⟩ := attuned.pending
  cases pending.symm.trans waited
  have answered := (wake_answered_iff stage attuned.timely).mpr live
  have comes := wake_comes stage attuned.timely attuned.waitsAt live
  rw [attuned.script] at comes
  rcases outcome : rehearsal.interpreter.wake stage wake with ⟨step, after⟩
  have replies : Replies rehearsal.interpreter step after :=
    replies_of_move (.wake wake) attuned.timely (by rw [makeMove, outcome]; rfl)
  simp only [Rehearsal.fire, outcome, Nat.max_eq_right attuned.early]
  rw [outcome] at answered comes
  cases replies with
  | ignored => exact absurd rfl answered
  | tells timely phase waits =>
      exact take_attuned ⟨rehearsal.interpreter, due, none, rehearsal.last⟩ timely phase waits comes

/-! ## Counting -/

section Counting

variable {deadline : Option Nat}

theorem fireWithin_mono {fuel more : Nat}
    (fired : fireWithin stage deadline fuel before = some after) (less : fuel ≤ more) :
    fireWithin stage deadline more before = some after := by
  induction fuel generalizing before more with
  | zero =>
      rcases later_or_due deadline before with later | ⟨timer, pending, due⟩
      · rwa [fireWithin_of_later _ later] at fired ⊢
      · rw [(fireWithin_of_due pending due).1] at fired
        cases fired
  | succ fuel ih =>
      rcases later_or_due deadline before with later | ⟨timer, pending, due⟩
      · rwa [fireWithin_of_later _ later] at fired ⊢
      · obtain ⟨more, rfl⟩ := Nat.exists_eq_add_of_le' (Nat.lt_of_lt_of_le fuel.succ_pos less)
        rw [(fireWithin_of_due pending due).2] at fired ⊢
        exact ih fired (Nat.le_of_succ_le_succ less)

def Rests (deadline : Option Nat) (rehearsal : Rehearsal) : Prop :=
  ∀ timer ∈ rehearsal.pending, deadline.all (timer.due ≤ ·) = false

theorem rests_of_pending (spent : rehearsal.pending = none) : rehearsal.Rests deadline := by
  unfold Rests
  rw [spent]
  exact nofun

theorem Fires.eq_of_rests (fires : Fires stage deadline before after)
    (rests : before.Rests deadline) : after = before := by
  cases fires with
  | done => rfl
  | fire pending due => rw [rests _ pending] at due; cases due

/-- If the timers that are due belong to places, one fires for each place on the track. -/
theorem Fires.track {α : Type} (next? : α → Option α) (belongs : α → Rehearsal → Prop)
    (fires : Fires stage deadline before after)
    (due : ∀ {place rehearsal}, belongs place rehearsal → ¬rehearsal.Rests deadline)
    (fire : ∀ {place rehearsal timer}, belongs place rehearsal →
      rehearsal.pending = some timer →
      match next? place with
      | some next => belongs next (rehearsal.fire stage timer).2
      | none => (rehearsal.fire stage timer).2.Rests deadline)
    {place : α} (begins : belongs place before) :
    ∃ rest, Track next? place rest ∧
      fireWithin stage deadline (rest.length + 1) before = some after := by
  induction fires generalizing place with
  | done rests => exact absurd rests (due begins)
  | @fire before _ timer pending isDue fires ih =>
      have fired := fire begins pending
      have first (fuel : Nat) : fireWithin stage deadline (fuel + 1) before =
          fireWithin stage deadline fuel (before.fire stage timer).2 :=
        (fireWithin_of_due pending isDue).2 fuel
      cases leads : next? place with
      | some next =>
          rw [leads] at fired
          obtain ⟨rest, track, within⟩ := ih fired
          exact ⟨next :: rest, .step leads track, (first _).trans within⟩
      | none =>
          rw [leads] at fired
          refine ⟨[], .last leads, (first 0).trans ?_⟩
          rw [fires.eq_of_rests fired]
          exact fireWithin_of_later 0 fired

end Counting

theorem attuned_or_stale {timer : DueTimer} (reachable : Reachable stage rehearsal.interpreter)
    (early : rehearsal.now ≤ timer.due) (pending : rehearsal.pending = some timer) :
    (∃ spot, Attuned rehearsal.interpreter.script spot timer.due rehearsal) ∨
      (rehearsal.interpreter.wake stage timer.wake).1 = .ignored := by
  have timely := reachable.timely
  by_cases live : rehearsal.interpreter.clock.live = some timer.wake
  · have running : rehearsal.interpreter.phase = .running :=
      timely.live_isSome_iff.mp (by rw [live]; rfl)
    obtain ⟨spot, waitsAt⟩ := reachable.onCourse running
    exact .inl ⟨spot, rfl, timely, waitsAt, early, timer.wake, pending, live⟩
  · exact .inr (wake_of_not_live stage timely live).1

theorem fire_stale {timer : DueTimer}
    (stale : (rehearsal.interpreter.wake stage timer.wake).1 = .ignored) :
    (rehearsal.fire stage timer).1 = .ignored ∧ (rehearsal.fire stage timer).2.pending = none := by
  simp only [Rehearsal.fire, take, stale, accept_ignored, and_self]

theorem Prompt.fireWithin_of_fires {deadline : Option Nat} {fuel : Nat} (prompt : before.Prompt)
    (reachable : Reachable stage before.interpreter) (fires : Fires stage deadline before after)
    (positive : 0 < fuel)
    (enough : ∀ {spot due}, Attuned before.interpreter.script spot due before →
      deadline.all (due ≤ ·) = true →
      ∃ count < fuel, fireWithin stage deadline (count + 1) before = some after) :
    fireWithin stage deadline fuel before = some after := by
  cases fires with
  | done rests => exact fireWithin_of_later fuel rests
  | @fire _ _ timer pending due fires =>
      have early := prompt.early timer pending
      rcases attuned_or_stale reachable early pending with ⟨spot, attuned⟩ | stale
      · obtain ⟨count, less, fired⟩ := enough attuned due
        exact fireWithin_mono fired less
      · have rests : (before.fire stage timer).2.Rests deadline :=
          rests_of_pending (fire_stale stale).2
        rw [fires.eq_of_rests rests]
        refine fireWithin_mono ?_ positive
        exact ((fireWithin_of_due pending due).2 0).trans (fireWithin_of_later 0 rests)

/-! ## Until no timer is pending -/

theorem Attuned.fires_lt {script : Script} {spot : Spot} {due : Nat}
    (attuned : Attuned script spot due before) (fires : Fires stage none before after) :
    ∃ count < script.fires, fireWithin stage none (count + 1) before = some after := by
  have begins : spot ∈ script.spots := attuned.script ▸ attuned.waitsAt.mem_spots
  obtain ⟨rest, track, fired⟩ := fires.track script.next?
    (fun spot rehearsal => ∃ due, Attuned script spot due rehearsal)
    (fun ⟨due, attuned⟩ rests => by
      obtain ⟨wake, pending, -⟩ := attuned.pending
      cases rests _ pending)
    (fun {spot _ _} ⟨due, attuned⟩ pending => by
      have fired := attuned.fire stage pending
      cases leads : script.next? spot with
      | some next =>
          rw [leads] at fired
          exact ⟨_, fired⟩
      | none =>
          rw [leads] at fired
          exact rests_of_pending fired)
    ⟨due, attuned⟩
  have less := track.lt_length begins fun _ leads => Script.mem_spots_of_next? leads
  rw [Script.length_spots] at less
  exact ⟨rest.length, less, fired⟩

theorem Prompt.runUntilBlocked_iff {step : Step} (prompt : before.Prompt)
    (reachable : Reachable stage before.interpreter) :
    before.runUntilBlocked stage = some (step, after) ↔
      Fires stage none before after ∧ step = after.last := by
  refine ⟨fires_of_runUntilBlocked, fun ⟨fires, same⟩ => ?_⟩
  have fired : fireWithin stage none before.enoughFires before = some after :=
    prompt.fireWithin_of_fires reachable fires (Nat.succ_pos _) fun attuned _ => by
      obtain ⟨count, less, fired⟩ := attuned.fires_lt fires
      exact ⟨count, Nat.lt_succ_of_lt less, fired⟩
  rw [runUntilBlocked, fired, same]
  rfl

theorem runUntilBlocked_eq_some_iff {step : Step} (disturbed : Disturbed stage before) :
    before.runUntilBlocked stage = some (step, after) ↔
      Fires stage none before after ∧ step = after.last :=
  disturbed.punctual.toPrompt.runUntilBlocked_iff disturbed.reachable

/-! ## Until a deadline -/

def nextBy? (script : Script) (settings : Settings) (deadline : Nat) :
    Spot × Nat → Option (Spot × Nat)
  | (spot, due) =>
      (script.next? spot).bind fun next =>
        let due := due + script.delayAt settings next.offset
        if due ≤ deadline then some (next, due) else none

theorem nextBy?_eq_some {script : Script} {settings : Settings} {deadline : Nat}
    {place next : Spot × Nat} (leads : nextBy? script settings deadline place = some next) :
    script.next? place.1 = some next.1 ∧
      next.2 = place.2 + script.delayAt settings next.1.offset ∧ next.2 ≤ deadline := by
  obtain ⟨spot, found, within⟩ := Option.bind_eq_some_iff.mp leads
  simp only [Option.ite_none_right_eq_some] at within
  obtain ⟨less, same⟩ := within
  cases same
  exact ⟨found, rfl, less⟩

def placesBy (script : Script) (now elapsed : Nat) : List (Spot × Nat) :=
  script.spots ×ˢ List.range' now (elapsed + 1)

theorem length_placesBy (script : Script) (now elapsed : Nat) :
    (placesBy script now elapsed).length = script.fires * (elapsed + 1) := by
  rw [placesBy, List.length_product, Script.length_spots, List.length_range']

theorem mem_placesBy_iff {script : Script} {now elapsed : Nat} {place : Spot × Nat} :
    place ∈ placesBy script now elapsed ↔
      place.1 ∈ script.spots ∧ now ≤ place.2 ∧ place.2 ≤ now + elapsed := by
  obtain ⟨spot, due⟩ := place
  rw [placesBy, List.mem_product, List.mem_range'_1, ← Nat.add_assoc, Nat.lt_succ_iff]

theorem Attuned.fires_by_lt {script : Script} {spot : Spot} {due elapsed : Nat}
    (attuned : Attuned script spot due before) (early : due ≤ before.now + elapsed)
    (fires : Fires stage (some (before.now + elapsed)) before after) :
    ∃ count < script.fires * (elapsed + 1),
      fireWithin stage (some (before.now + elapsed)) (count + 1) before = some after := by
  have known : spot ∈ script.spots := attuned.script ▸ attuned.waitsAt.mem_spots
  have begins : (spot, due) ∈ placesBy script before.now elapsed :=
    mem_placesBy_iff.mpr ⟨known, attuned.early, early⟩
  have waits : Attuned script (spot, due).1 (spot, due).2 before ∧
      (spot, due).2 ≤ before.now + elapsed := ⟨attuned, early⟩
  obtain ⟨rest, track, fired⟩ := fires.track
    (nextBy? script stage.settings (before.now + elapsed))
    (fun place rehearsal =>
      Attuned script place.1 place.2 rehearsal ∧ place.2 ≤ before.now + elapsed)
    (fun ⟨attuned, early⟩ rests => by
      obtain ⟨wake, pending, -⟩ := attuned.pending
      simpa [early] using rests _ pending)
    (fun {place _ _} ⟨attuned, early⟩ pending => by
      have fired := attuned.fire stage pending
      cases leads : script.next? place.1 with
      | none =>
          rw [leads] at fired
          simp only [nextBy?, leads, Option.bind_none]
          exact rests_of_pending fired
      | some next =>
          rw [leads] at fired
          by_cases within : place.2 + script.delayAt stage.settings next.offset ≤
              before.now + elapsed
          · simp only [nextBy?, leads, Option.bind_some, if_pos within]
            exact ⟨fired, within⟩
          · obtain ⟨wake, pending, -⟩ := fired.pending
            simp only [nextBy?, leads, Option.bind_some, if_neg within]
            intro timer waited
            cases pending.symm.trans waited
            simpa using within)
    waits
  have less := track.lt_length begins fun {place next} member leads => by
    obtain ⟨found, later, within⟩ := nextBy?_eq_some leads
    obtain ⟨-, begun, -⟩ := mem_placesBy_iff.mp member
    exact mem_placesBy_iff.mpr ⟨Script.mem_spots_of_next? found, by omega, within⟩
  rw [length_placesBy] at less
  exact ⟨rest.length, less, fired⟩

theorem advanceTime_eq_some_iff {elapsed : Nat} (disturbed : Disturbed stage before) :
    before.advanceTime stage elapsed = some after ↔
      ∃ fired, Fires stage (some (before.now + elapsed)) before fired ∧
        after = { fired with now := max fired.now (before.now + elapsed) } := by
  constructor
  · intro returned
    obtain ⟨fired, within, rfl⟩ := Option.map_eq_some_iff.mp returned
    exact ⟨fired, fires_of_fireWithin within, rfl⟩
  · rintro ⟨fired, fires, rfl⟩
    let fuel := (elapsed + 2) * before.enoughFires
    have positive : 0 < fuel := Nat.mul_pos (Nat.succ_pos _) (Nat.succ_pos _)
    have within : fireWithin stage (some (before.now + elapsed)) fuel before = some fired :=
      disturbed.punctual.toPrompt.fireWithin_of_fires disturbed.reachable fires positive
        fun {_ due} attuned early => by
          have early : due ≤ before.now + elapsed := by simpa using early
          obtain ⟨count, less, within⟩ := attuned.fires_by_lt early fires
          refine ⟨count, Nat.lt_of_lt_of_le less ?_, within⟩
          rw [Nat.mul_comm]
          exact Nat.mul_le_mul (Nat.le_succ _) (Nat.le_succ _)
    simp only [advanceTime, fuel] at within ⊢
    rw [within]
    rfl

end VisualNovel.Rehearsal
