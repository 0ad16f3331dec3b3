import VisualNovel.Proofs.Rehearsing

/-!
Interference: behind a rehearsal's back its interpreter is stopped, or put back to a save point.

* `Informed`: the rehearsal has taken in a step since then, or has a timer left that will show it.
* `fires_truthful`: what firing timers until none is pending comes to.
* `interference_unseen`: what it can come to for rehearsals that are not informed.
-/

namespace VisualNovel

namespace Rehearsal

open Interpreter

inductive Disturbed (stage : Stage) : Rehearsal → Prop where
  | fresh : Disturbed stage (ofInterpreter .fresh)
  | operate {before after : Rehearsal} : Disturbed stage before → Operates stage before after →
      Disturbed stage after
  | stop {before : Rehearsal} : Disturbed stage before → Disturbed stage before.stopInterpreter
  | restore {before : Rehearsal} (script : Script) (save : SavePoint) : Disturbed stage before →
      Disturbed stage (before.restoreInterpreter stage script save).2

/-- A step that is taken in shows the phase, also an ignored one if the run is over. -/
def Shows (step : Step) (after : Rehearsal) : Prop :=
  step ≠ .ignored ∨ after.interpreter.phase = .stopped ∨ after.interpreter.phase = .ended

inductive Learns (stage : Stage) (before : Rehearsal) : Rehearsal → Prop where
  | start (script : Script) : Learns stage before (before.start stage script).2
  | advance {step : Step} {after : Rehearsal} : before.advance stage = (step, after) →
      Shows step after → Learns stage before after
  | select {index : Nat} {step : Step} {after : Rehearsal} :
      before.select stage index = (.ok step, after) → Shows step after → Learns stage before after
  | fireNext {step : Step} {after : Rehearsal} : before.fireNext? stage = some (step, after) →
      Shows step after → Learns stage before after

/-- Since the last step that showed the phase, no save point has been restored behind the
rehearsal's back, and no run has been stopped but while a timer was pending. -/
inductive Informed (stage : Stage) : Rehearsal → Prop where
  | fresh : Informed stage (ofInterpreter .fresh)
  | operate {before after : Rehearsal} : Informed stage before → Operates stage before after →
      Informed stage after
  | learn {before after : Rehearsal} : Disturbed stage before → Learns stage before after →
      Informed stage after
  | stop {before : Rehearsal} : Disturbed stage before → before.pending.isSome →
      Informed stage before.stopInterpreter
  | rest {before : Rehearsal} : Informed stage before →
      before.interpreter.phase.isRunning = false → Informed stage before.stopInterpreter
  | refused {before after : Rehearsal} {script : Script} {save : SavePoint} {refusal : Refusal} :
      Informed stage before →
      before.restoreInterpreter stage script save = (.error refusal, after) →
      Informed stage after

structure Quiet (rehearsal : Rehearsal) : Prop where
  timely : rehearsal.interpreter.clock.Timely
  pending : rehearsal.interpreter.phase = .idle ∨ rehearsal.interpreter.phase = .ended →
    rehearsal.pending = none

variable {stage : Stage} {rehearsal before after : Rehearsal}

theorem Coherent.pending_of_halted (coherent : rehearsal.Coherent)
    (halted : rehearsal.interpreter.phase ≠ .running) : rehearsal.pending = none := by
  have live := coherent.live
  rwa [Clock.live_of_halted halted, Option.map_eq_none_iff] at live

theorem Coherent.quiet (coherent : rehearsal.Coherent) : rehearsal.Quiet := by
  refine ⟨coherent.timely, fun rests => coherent.pending_of_halted ?_⟩
  rcases rests with idle | ended
  · simp [idle]
  · simp [ended]

theorem Quiet.of_toMachine {after : Interpreter} (quiet : rehearsal.Quiet)
    (same : after.toMachine = rehearsal.interpreter.toMachine) :
    { rehearsal with interpreter := after }.Quiet := by
  have phase : after.phase = rehearsal.interpreter.phase := congrArg (·.phase) same
  refine ⟨timely_of_toMachine same quiet.timely, ?_⟩
  rw [phase]
  exact quiet.pending

theorem Quiet.accept_ignored (quiet : rehearsal.Quiet) : (rehearsal.accept .ignored).Quiet := by
  rw [Rehearsal.accept_ignored]
  exact ⟨quiet.timely, quiet.pending⟩

theorem Quiet.spent {after : Interpreter} {now : Nat} {last : Step} (quiet : rehearsal.Quiet)
    (same : after.toMachine = rehearsal.interpreter.toMachine) :
    Quiet ⟨after, now, none, last⟩ :=
  ⟨timely_of_toMachine same quiet.timely, fun _ => rfl⟩

theorem Quiet.reacts {answer : Option Step} (quiet : before.Quiet)
    (reacts : before.Reacts answer after) : after.Quiet := by
  cases reacts with
  | told coherent => exact coherent.quiet
  | ignored same => exact (quiet.of_toMachine same).accept_ignored
  | stale pending stale same => exact (quiet.spent same).accept_ignored
  | refused same => exact quiet.of_toMachine same
  | waited now early => exact ⟨quiet.timely, quiet.pending⟩

theorem stop_timely {interpreter : Interpreter} (timely : interpreter.clock.Timely) :
    interpreter.stop.clock.Timely :=
  (stop_serves interpreter).timely timely

theorem stop_phase (interpreter : Interpreter) :
    interpreter.phase.isRunning = true ∧ interpreter.stop.phase = .stopped ∨
      interpreter.phase.isRunning = false ∧ interpreter.stop = interpreter := by
  unfold stop
  split
  · next running => exact .inl ⟨running, rfl⟩
  · next resting => exact .inr ⟨by simpa using resting, rfl⟩

theorem Quiet.stop (quiet : rehearsal.Quiet) : rehearsal.stopInterpreter.Quiet := by
  refine ⟨stop_timely quiet.timely, ?_⟩
  rcases stop_phase rehearsal.interpreter with ⟨-, stopped⟩ | ⟨-, same⟩
  · simp [stopInterpreter, stopped]
  · simpa only [stopInterpreter, same] using quiet.pending

theorem restoreInterpreter_refused {script : Script} {save : SavePoint} {refusal : Refusal}
    (refused : save.step? script = .error refusal) :
    rehearsal.restoreInterpreter stage script save = (.error refusal, rehearsal) := by
  simp only [restoreInterpreter, restore_refused _ refused]

theorem Quiet.restore (quiet : rehearsal.Quiet) (script : Script) (save : SavePoint) :
    (rehearsal.restoreInterpreter stage script save).2.Quiet := by
  have serves := restore_serves stage script save rehearsal.interpreter
  cases outcome : save.step? script with
  | error refusal =>
      rw [restoreInterpreter_refused outcome]
      exact quiet
  | ok step =>
      refine ⟨serves.timely quiet.timely, fun rests => ?_⟩
      have suspended := (SavePoint.step?_ok_iff.mp outcome).2.2.isSuspended
      have phase : (rehearsal.restoreInterpreter stage script save).2.interpreter.phase =
          save.phase := by
        simp only [restoreInterpreter, restore_eq _ outcome]
        exact phase_of_clock (replay_shown ..).clock
      rw [← phase] at suspended
      rcases rests with idle | ended
      · simp [idle, Phase.isSuspended] at suspended
      · simp [ended, Phase.isSuspended] at suspended

theorem Disturbed.quiet (disturbed : Disturbed stage rehearsal) : rehearsal.Quiet := by
  induction disturbed with
  | fresh => exact coherent_fresh.quiet
  | operate _ operates quiet => exact operates.rule (·.timely) (·.reacts) quiet
  | stop _ quiet => exact quiet.stop
  | restore script save _ quiet => exact quiet.restore script save

structure Halted (rehearsal : Rehearsal) : Prop where
  timely : rehearsal.interpreter.clock.Timely
  stopped : rehearsal.interpreter.phase = .stopped
  pending : rehearsal.pending.isSome

def Aware (rehearsal : Rehearsal) : Prop :=
  rehearsal.Coherent ∨ rehearsal.Halted

theorem Halted.quiet (halted : rehearsal.Halted) : rehearsal.Quiet :=
  ⟨halted.timely, by simp [halted.stopped]⟩

theorem Aware.quiet (aware : rehearsal.Aware) : rehearsal.Quiet :=
  aware.elim (·.quiet) (·.quiet)

theorem coherent_of_last (timely : rehearsal.interpreter.clock.Timely)
    (halted : rehearsal.interpreter.phase ≠ .running) (pending : rehearsal.pending = none)
    (silent : (Answer.step rehearsal.last).wake? = none)
    (phase : rehearsal.last.phase? = some rehearsal.interpreter.phase) : rehearsal.Coherent := by
  have live : rehearsal.interpreter.clock.live = none := Clock.live_of_halted halted
  refine ⟨timely, ?_, ?_, silent.trans live.symm, .inl phase⟩
  · rw [pending, live]
    rfl
  · rw [pending]
    exact nofun

theorem Quiet.aware_of_ignored (quiet : rehearsal.Quiet)
    (known : Shows .ignored (rehearsal.accept .ignored)) : (rehearsal.accept .ignored).Aware := by
  rw [Rehearsal.accept_ignored] at known ⊢
  rcases known.resolve_left (by simp) with stopped | ended
  · simp only at stopped
    simp only [stopped]
    -- The step is the one of the phase at once, but a timer from before the stop may be left.
    cases pending : rehearsal.pending with
    | none =>
        exact .inl (coherent_of_last quiet.timely (by simp [stopped]) rfl rfl
          (congrArg some stopped.symm))
    | some timer => exact .inr ⟨quiet.timely, stopped, rfl⟩
  · simp only at ended
    simp only [ended]
    exact .inl (coherent_of_last quiet.timely (by simp [ended]) (quiet.pending (.inr ended)) rfl
      (congrArg some ended.symm))

theorem Quiet.aware_of_shows {step : Step} (quiet : before.Quiet)
    (reacts : before.Reacts (some step) after) (known : Shows step after) : after.Aware := by
  cases reacts with
  | told coherent => exact .inl coherent
  | ignored same => exact (quiet.of_toMachine same).aware_of_ignored known
  | stale pending stale same => exact (quiet.spent same).aware_of_ignored known

theorem Quiet.learn (quiet : before.Quiet) (learns : Learns stage before after) :
    after.Aware := by
  cases learns with
  | start script => exact .inl (coherent_start ..)
  | advance outcome known =>
      have reacts := advance_reacts stage quiet.timely
      rw [outcome] at reacts
      exact quiet.aware_of_shows reacts known
  | @select index _ _ outcome known =>
      have reacts := select_reacts stage quiet.timely index
      rw [outcome] at reacts
      exact quiet.aware_of_shows reacts known
  | fireNext outcome known =>
      obtain ⟨timer, pending, same⟩ := Option.map_eq_some_iff.mp outcome
      have reacts := fire_reacts stage quiet.timely pending
      rw [same] at reacts
      exact quiet.aware_of_shows reacts known

theorem Halted.reacts {answer : Option Step} (halted : before.Halted)
    (reacts : before.Reacts answer after) : after.Aware := by
  have rests {after : Interpreter} (same : after.toMachine = before.interpreter.toMachine) :
      after.phase = .stopped := (congrArg (·.phase) same).trans halted.stopped
  cases reacts with
  | told coherent => exact .inl coherent
  | ignored same =>
      refine (halted.quiet.of_toMachine same).aware_of_ignored (.inr (.inl ?_))
      rw [Rehearsal.accept_ignored]
      exact rests same
  | stale pending stale same =>
      refine (halted.quiet.spent same).aware_of_ignored (.inr (.inl ?_))
      rw [Rehearsal.accept_ignored]
      exact rests same
  | refused same =>
      exact .inr ⟨timely_of_toMachine same halted.timely, rests same, halted.pending⟩
  | waited now early => exact .inr ⟨halted.timely, halted.stopped, halted.pending⟩

theorem Aware.reacts {answer : Option Step} (aware : before.Aware)
    (reacts : before.Reacts answer after) : after.Aware :=
  aware.elim (fun coherent => .inl (coherent.reacts reacts)) (·.reacts reacts)

theorem Quiet.stop_halted (quiet : rehearsal.Quiet) (pending : rehearsal.pending.isSome) :
    rehearsal.stopInterpreter.Halted := by
  refine ⟨stop_timely quiet.timely, ?_, pending⟩
  rcases stop_phase rehearsal.interpreter with ⟨-, stopped⟩ | ⟨resting, same⟩
  · exact stopped
  · -- Nothing is stopped: with a timer pending, only an earlier stop can have been the reason.
    simp only [stopInterpreter, same]
    cases phase : rehearsal.interpreter.phase with
    | stopped => rfl
    | idle => simp [quiet.pending (.inl phase)] at pending
    | ended => simp [quiet.pending (.inr phase)] at pending
    | _ => simp [phase, Phase.isRunning, Phase.isSuspended] at resting

theorem Informed.aware (informed : Informed stage rehearsal) : rehearsal.Aware := by
  induction informed with
  | fresh => exact .inl coherent_fresh
  | operate _ operates aware => exact operates.rule (·.quiet.timely) (·.reacts) aware
  | learn disturbed learns => exact disturbed.quiet.learn learns
  | stop disturbed pending => exact .inr (disturbed.quiet.stop_halted pending)
  | @rest before _ resting aware =>
      rcases stop_phase before.interpreter with ⟨running, -⟩ | ⟨-, same⟩
      · rw [resting] at running
        cases running
      · simpa only [stopInterpreter, same] using aware
  | @refused before _ script save _ _ outcome aware =>
      cases accepted : save.step? script with
      | error refusal =>
          rw [restoreInterpreter_refused accepted] at outcome
          cases outcome
          exact aware
      | ok step =>
          simp only [restoreInterpreter, restore_eq _ accepted] at outcome
          cases outcome

theorem Aware.coherent (aware : rehearsal.Aware) (pending : rehearsal.pending = none) :
    rehearsal.Coherent := by
  rcases aware with coherent | halted
  · exact coherent
  · have outstanding := halted.pending
    rw [pending] at outstanding
    cases outstanding

theorem Coherent.ne_resume (coherent : rehearsal.Coherent) (pending : rehearsal.pending = none)
    (time : Nat) (wake : Wake) : rehearsal.last ≠ .resume time wake := by
  intro resumes
  have waits := coherent.wake.trans coherent.live.symm
  rw [resumes, pending] at waits
  cases waits

/-- However a rehearsal has come about, no timer is pending when firing has come to an end, and the
last step is handed back. If the rehearsal was informed, this is the step of the phase. -/
theorem fires_truthful (fires : Fires stage none before after) :
    after.pending = none ∧
    (∀ step last, before.runUntilBlocked stage = some (step, last) →
      last = after ∧ step = after.last) ∧
    (Informed stage before →
      (after.interpreter.phase ≠ .idle → after.last.phase? = some after.interpreter.phase) ∧
      ∀ time wake, after.last ≠ .resume time wake) := by
  have spent : after.pending = none := by
    cases pending : after.pending with
    | none => rfl
    | some timer => simpa using fires.later timer pending
  refine ⟨spent, fun step last returned => ?_, fun informed => ?_⟩
  · obtain ⟨fired, same⟩ := fires_of_runUntilBlocked returned
    cases fires.unique fired
    exact ⟨rfl, same⟩
  · have aware := (informed.operate (.runUntilBlocked fires)).aware
    have coherent := aware.coherent spent
    refine ⟨fun begun => ?_, coherent.ne_resume spent⟩
    rcases coherent.phase with phase | ⟨-, idle, -⟩
    · exact phase
    · exact absurd idle begun

theorem fires_truthful_stopped :
    let stage : Stage := ⟨{}, .standard, .accepting⟩
    let waiting := ((ofInterpreter .fresh).start stage ⟨[.wait (some 100), .ending]⟩).2
    ∃ step after, waiting.stopInterpreter.runUntilBlocked stage = some (step, after) ∧
      Informed stage waiting.stopInterpreter ∧ after.pending = none ∧
      after.interpreter.phase = .stopped ∧ step = .stopped := by
  intro stage waiting
  have stopped : (waiting.stopInterpreter.runUntilBlocked stage).map
      (fun outcome => (outcome.1, outcome.2.interpreter.phase)) = some (.stopped, .stopped) := rfl
  obtain ⟨⟨step, after⟩, returned, same⟩ := Option.map_eq_some_iff.mp stopped
  have phase : after.interpreter.phase = .stopped := congrArg (·.2) same
  have informed : Informed stage waiting.stopInterpreter := .stop (.operate .fresh (.start _)) rfl
  obtain ⟨fires, -⟩ := fires_of_runUntilBlocked returned
  obtain ⟨spent, only, truthful⟩ := fires_truthful fires
  obtain ⟨-, last⟩ := only step after returned
  have tells := (truthful informed).1 (by simp [phase])
  rw [← last, phase] at tells
  refine ⟨step, after, returned, informed, spent, phase, ?_⟩
  cases step with
  | stopped => rfl
  | _ => cases tells

/-- Where a run has been stopped while no timer was pending, or a save point has been restored,
what is handed back is the step from before. -/
theorem interference_unseen :
    let stage : Stage := ⟨{}, .standard, .accepting⟩
    let script : Script := ⟨[.choice [⟨"Left", none, none⟩]]⟩
    let asked := ((ofInterpreter .fresh).start stage script).2
    let waiting := ((ofInterpreter .fresh).start stage ⟨[.wait (some 100)]⟩).2
    let save : SavePoint := ⟨script.fingerprint, 1, .awaitingChoice, .blank, some 0⟩
    (Disturbed stage asked.stopInterpreter ∧
      asked.stopInterpreter.runUntilBlocked stage = some (.awaitChoice, asked.stopInterpreter) ∧
      asked.stopInterpreter.interpreter.phase = .stopped) ∧
    asked.interpreter.save = .ok save ∧
    ∃ restored after, waiting.restoreInterpreter stage script save = (.ok .awaitChoice, restored) ∧
      Disturbed stage restored ∧
      restored.runUntilBlocked stage = some (.resume 100 ⟨1, .settle 1⟩, after) ∧
      after.interpreter.phase = .awaitingChoice := by
  intro stage script asked waiting save
  have begun : Disturbed stage asked := .operate .fresh (.start script)
  have accepted : save.step? script = .ok .awaitChoice := SavePoint.step?_ok_iff.mpr
    ⟨rfl, Nat.le_refl 1, .choice 0 [⟨"Left", none, none⟩] rfl rfl rfl rfl⟩
  let restored : Rehearsal :=
    { waiting with interpreter := (waiting.interpreter.putBack script save).replay stage }
  have restores : waiting.restoreInterpreter stage script save = (.ok .awaitChoice, restored) := by
    simp only [restoreInterpreter, restore_eq _ accepted, restored]
  have waits : Disturbed stage waiting := .operate .fresh (.start _)
  have disturbed := waits.restore script save
  rw [restores] at disturbed
  have blocked : (restored.runUntilBlocked stage).map
      (fun outcome => (outcome.1, outcome.2.interpreter.phase)) =
        some (.resume 100 ⟨1, .settle 1⟩, .awaitingChoice) := rfl
  obtain ⟨⟨step, after⟩, returned, same⟩ := Option.map_eq_some_iff.mp blocked
  obtain ⟨rfl, phase⟩ := Prod.ext_iff.mp same
  exact ⟨⟨.stop begun, rfl, rfl⟩, save_eq rfl, restored, after, restores, disturbed, returned,
    phase⟩

end Rehearsal

end VisualNovel
