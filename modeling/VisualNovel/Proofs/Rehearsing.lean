import VisualNovel.Rehearsal
import VisualNovel.Proofs.Standing

/-!
Rehearsals keep step with the interpreter they drive: the timer that is pending is the one the
interpreter waits for, and the last step is the one of its phase.

* `replies_of_move`: what a move hands back is ignored, or tells phase and timer.
* `Operates.rule`: what every step that is taken in preserves is preserved by all operations.
* `rehearsed_coherent`: the invariant, after any operations of the rehearsal.
-/

namespace VisualNovel

/-! ## What the interpreter hands back -/

namespace Interpreter

/-- A signal was ignored, or the step tells the phase and the timer that is waited for. -/
inductive Replies (before : Interpreter) : Step → Interpreter → Prop where
  | ignored {after : Interpreter} : after.toMachine = before.toMachine →
      Replies before .ignored after
  | tells {step : Step} {after : Interpreter} : after.clock.Timely →
      step.phase? = some after.phase → (Answer.step step).wake? = after.clock.live →
      Replies before step after

namespace Clock

variable {before after : Clock} {step : Step}

theorem live_of_halted {clock : Clock} (halted : clock.phase ≠ .running) : clock.live = none := by
  simp [live, halted]

theorem Timely.live_isSome_iff {clock : Clock} (timely : clock.Timely) :
    clock.live.isSome ↔ clock.phase = .running := by
  constructor
  · intro waits
    by_contra halted
    rw [live_of_halted halted] at waits
    cases waits
  · intro running
    have one := timely.running running
    cases settling : clock.settling with
    | some sequence => simp [live, running, settling]
    | none => simpa [live, running, settling] using one.mp settling

theorem Suspends.phase? (suspends : before.Suspends step after)
    (running : before.phase = .running) : step.phase? = some after.phase := by
  cases suspends with
  | settling time => exact congrArg some running.symm
  | revealing time revealing => exact congrArg some running.symm
  | presenting => rfl
  | finishing => rfl
  | ended => rfl
  | stalled => rfl

theorem Serves.wake?_eq_live (serves : before.Serves (.step step) after)
    (tells : step.phase? = some after.phase) : (Answer.step step).wake? = after.live := by
  have silent (none : (Answer.step step).wake? = none) : after.phase ≠ .running := by
    intro running
    rw [running] at tells
    cases step with
    | resume time wake => cases none
    | _ => cases tells
  cases serves with
  | nothing quiet => rw [quiet, live_of_halted (silent quiet)]
  | waits quiet later halted => rw [quiet, live_of_halted halted]
  | runs later poised suspends =>
      cases suspends with
      | settling time => simp [Answer.wake?, live, poised.phase]
      | revealing time revealing => simp [Answer.wake?, live, poised.phase, poised.settling]
      | _ => exact (live_of_halted (silent rfl)).symm
  | shows time wake revealing settling waited =>
      have running : before.phase = .running := by
        by_contra halted
        rw [live_of_halted halted] at waited
        cases waited
      cases active : before.reveal.active with
      | none => simp [live, running, settling, active] at waited
      | some earlier => simpa [Answer.wake?, live, running, settling, active] using waited.symm

end Clock

theorem live_of_toMachine {before after : Interpreter} (same : after.toMachine = before.toMachine) :
    after.clock.live = before.clock.live := by
  obtain ⟨machine, history⟩ := after
  cases same
  rfl

theorem timely_of_toMachine {before after : Interpreter}
    (same : after.toMachine = before.toMachine) (timely : before.clock.Timely) :
    after.clock.Timely := by
  obtain ⟨machine, history⟩ := after
  cases same
  exact ⟨timely.running, timely.halted⟩

section Moves

variable {stage : Stage} {before after : Interpreter} {move : Move Wake} {answer : Answer}

theorem Moved.tells (moved : Moved stage before move answer after) : answer.Tells after.phase := by
  cases moved with
  | ignored unchanged => exact Answer.tells_ignored _
  | refused awaiting => exact fun _ handedBack => nomatch handedBack
  | @resumed _ ready resumes =>
      have suspends := runUntilSuspended_suspends stage ready
      exact Answer.tells_of_phase? (suspends.phase? resumes.running)
  | revealing running => exact Answer.tells_of_phase? (congrArg some running.symm)
  | revealed running => exact Answer.tells_of_phase? rfl
  | stopped running => exact fun _ handedBack => nomatch handedBack
  | rested resting => exact fun _ handedBack => nomatch handedBack

theorem Moved.toMachine_of_ignored (moved : Moved stage before move answer after)
    (ignored : answer = .step .ignored) : after.toMachine = before.toMachine := by
  cases moved with
  | ignored unchanged => exact unchanged.toMachine
  | @resumed _ ready resumes =>
      have suspends := runUntilSuspended_suspends stage ready
      exact absurd (Answer.step.inj ignored) suspends.ne_ignored
  | _ => cases ignored

theorem Moved.toMachine_of_refused {refusal : Refusal}
    (moved : Moved stage before move (.refusal refusal) after) :
    after.toMachine = before.toMachine := by
  cases moved with
  | refused awaiting asked found missing => rfl

theorem replies_of_move {step : Step} (move : Move Wake) (timely : before.clock.Timely)
    (outcome : before.makeMove stage move = (.step step, after)) : Replies before step after := by
  have moved := moved_of_eq outcome
  by_cases ignored : step = .ignored
  · subst ignored
    exact .ignored (moved.toMachine_of_ignored rfl)
  · have serves := perform_serves stage (.move move) timely
    rw [show before.perform stage (.move move) = _ from outcome] at serves
    have tells := moved.tells step rfl ignored
    exact .tells (serves.timely timely) tells (serves.wake?_eq_live tells)

theorem start_tells (stage : Stage) (script : Script) (before : Interpreter) :
    (before.start stage script).1.phase? = some (before.start stage script).2.phase := by
  have stands := start_stands stage script before
  refine stands.tells _ rfl (Clock.Suspends.ne_ignored (runUntilSuspended_suspends stage _))

theorem start_timely (stage : Stage) (script : Script) (before : Interpreter) :
    (before.start stage script).2.clock.Timely :=
  Clock.Suspends.timely ⟨rfl, rfl, rfl⟩ (runUntilSuspended_suspends stage _)

end Moves

end Interpreter

namespace Rehearsal

open Interpreter

/-- The rehearsal knows the timer the interpreter waits for, and the step of its phase. -/
structure Coherent (rehearsal : Rehearsal) : Prop where
  timely : rehearsal.interpreter.clock.Timely
  live : rehearsal.pending.map (·.wake) = rehearsal.interpreter.clock.live
  due : ∀ timer ∈ rehearsal.pending, rehearsal.now ≤ timer.due
  wake : (Answer.step rehearsal.last).wake? = rehearsal.interpreter.clock.live
  phase : rehearsal.last.phase? = some rehearsal.interpreter.phase ∨
    rehearsal.last = .ignored ∧ rehearsal.interpreter.phase = .idle ∧ rehearsal.interpreter.run = 0

variable {stage : Stage} {rehearsal : Rehearsal}

theorem coherent_of_tells {step : Step} {after : Interpreter} (timely : after.clock.Timely)
    (phase : step.phase? = some after.phase)
    (wake : (Answer.step step).wake? = after.clock.live) :
    (rehearsal.take (step, after)).2.Coherent := by
  cases step with
  | ignored => cases phase
  | resume time waited =>
      refine ⟨timely, wake, ?_, wake, .inl phase⟩
      rintro timer ⟨⟩
      exact Nat.le_add_right _ _
  | _ => exact ⟨timely, wake, nofun, wake, .inl phase⟩

theorem accept_ignored (rehearsal : Rehearsal) :
    rehearsal.accept .ignored = { rehearsal with
      last := match rehearsal.interpreter.phase with
        | .stopped => .stopped
        | .ended => .ended
        | _ => rehearsal.last } := by
  cases phase : rehearsal.interpreter.phase <;> simp only [accept, phase]

theorem Coherent.accept_ignored (coherent : rehearsal.Coherent) :
    (rehearsal.accept .ignored).Coherent := by
  rw [Rehearsal.accept_ignored]
  refine ⟨coherent.timely, coherent.live, coherent.due, ?_, ?_⟩
  · dsimp only
    split
    · next stopped => exact (Clock.live_of_halted (by simp [clock, stopped])).symm
    · next ended => exact (Clock.live_of_halted (by simp [clock, ended])).symm
    · exact coherent.wake
  · dsimp only
    split
    · next stopped => exact .inl (by rw [stopped]; rfl)
    · next ended => exact .inl (by rw [ended]; rfl)
    · exact coherent.phase

theorem Coherent.of_toMachine {after : Interpreter} (coherent : rehearsal.Coherent)
    (same : after.toMachine = rehearsal.interpreter.toMachine) :
    { rehearsal with interpreter := after }.Coherent := by
  have live := live_of_toMachine same
  have phase : after.phase = rehearsal.interpreter.phase := congrArg (·.phase) same
  have run : after.run = rehearsal.interpreter.run := congrArg (·.run) same
  refine ⟨timely_of_toMachine same coherent.timely, coherent.live.trans live.symm, coherent.due,
    coherent.wake.trans live.symm, ?_⟩
  rw [phase, run]
  exact coherent.phase

/-! ## What a rehearsal takes in -/

/-- A rehearsal is told all there is to know, or hears of nothing new. The step is the one that is
taken in, if there is one. -/
inductive Reacts (before : Rehearsal) : Option Step → Rehearsal → Prop where
  | told {step : Step} {after : Rehearsal} : after.Coherent → Reacts before (some step) after
  | ignored {after : Interpreter} : after.toMachine = before.interpreter.toMachine →
      Reacts before (some .ignored) ({ before with interpreter := after }.accept .ignored)
  | stale {timer : DueTimer} {after : Interpreter} : before.pending = some timer →
      before.interpreter.clock.live ≠ some timer.wake →
      after.toMachine = before.interpreter.toMachine →
      Reacts before (some .ignored)
        (accept .ignored ⟨after, max before.now timer.due, none, before.last⟩)
  | refused {after : Interpreter} : after.toMachine = before.interpreter.toMachine →
      Reacts before none { before with interpreter := after }
  | waited (now : Nat) : (∀ timer ∈ before.pending, now ≤ timer.due) →
      Reacts before none { before with now := max before.now now }

theorem coherent_start (stage : Stage) (script : Script) (rehearsal : Rehearsal) :
    (rehearsal.start stage script).2.Coherent := by
  have serves := start_serves stage script rehearsal.interpreter
  have phase := start_tells stage script rehearsal.interpreter
  exact coherent_of_tells (start_timely ..) phase (serves.wake?_eq_live phase)

theorem start_reacts (stage : Stage) (script : Script) (rehearsal : Rehearsal) :
    rehearsal.Reacts (some (rehearsal.start stage script).1)
      (rehearsal.start stage script).2 :=
  .told (coherent_start ..)

theorem take_reacts {step : Step} {after : Interpreter}
    (replies : Replies rehearsal.interpreter step after) :
    rehearsal.Reacts (some step) (rehearsal.take (step, after)).2 := by
  cases replies with
  | ignored same => exact .ignored same
  | tells timely phase wake => exact .told (coherent_of_tells timely phase wake)

section Moves

variable (stage : Stage) (timely : rehearsal.interpreter.clock.Timely)
include timely

theorem advance_reacts :
    rehearsal.Reacts (some (rehearsal.advance stage).1) (rehearsal.advance stage).2 :=
  take_reacts (replies_of_move .advance timely rfl)

theorem select_reacts (index : Nat) :
    rehearsal.Reacts (rehearsal.select stage index).1.toOption
      (rehearsal.select stage index).2 := by
  rcases outcome : rehearsal.interpreter.select stage index with ⟨result, after⟩
  have made : rehearsal.interpreter.makeMove stage (.select index) = (.ofResult result, after) := by
    simp only [makeMove, outcome, Prod.map_apply, id_eq]
  cases result with
  | ok step =>
      simp only [Rehearsal.select, outcome]
      exact take_reacts (replies_of_move (.select index) timely made)
  | error refusal =>
      simp only [Rehearsal.select, outcome]
      exact .refused (moved_of_eq made).toMachine_of_refused

theorem fire_reacts {timer : DueTimer} (pending : rehearsal.pending = some timer) :
    rehearsal.Reacts (some (rehearsal.fire stage timer).1) (rehearsal.fire stage timer).2 := by
  have answered : (rehearsal.interpreter.wake stage timer.wake).1 ≠ .ignored ↔
      rehearsal.interpreter.clock.live = some timer.wake := wake_answered_iff stage timely
  rcases outcome : rehearsal.interpreter.wake stage timer.wake with ⟨step, after⟩
  have replies : Replies rehearsal.interpreter step after :=
    replies_of_move (.wake timer.wake) timely (by rw [makeMove, outcome]; rfl)
  simp only [fire, outcome]
  rw [outcome] at answered
  cases replies with
  | ignored same => exact .stale pending (fun live => answered.mpr live rfl) same
  | tells timely phase wake => exact .told (coherent_of_tells timely phase wake)

end Moves

theorem Coherent.reacts {answer : Option Step} {after : Rehearsal} (coherent : rehearsal.Coherent)
    (reacts : rehearsal.Reacts answer after) : after.Coherent := by
  cases reacts with
  | told coherent => exact coherent
  | ignored same => exact (coherent.of_toMachine same).accept_ignored
  | stale pending stale same =>
      have live := coherent.live
      rw [pending] at live
      exact absurd live.symm stale
  | refused same => exact coherent.of_toMachine same
  | waited now early =>
      exact ⟨coherent.timely, coherent.live,
        fun timer pending => Nat.max_le.mpr ⟨coherent.due timer pending, early timer pending⟩,
        coherent.wake, coherent.phase⟩

theorem Coherent.fire_answered {timer : DueTimer} (coherent : rehearsal.Coherent)
    (pending : rehearsal.pending = some timer) : (rehearsal.fire stage timer).1 ≠ .ignored := by
  have live := coherent.live
  rw [pending] at live
  exact (wake_answered_iff stage coherent.timely).mpr live.symm

/-! ## All operations -/

/-- Timers are fired until none is pending that is due by the deadline, however many these are. -/
inductive Fires (stage : Stage) (deadline : Option Nat) : Rehearsal → Rehearsal → Prop where
  | done {rehearsal : Rehearsal} :
      (∀ timer ∈ rehearsal.pending, deadline.all (timer.due ≤ ·) = false) →
      Fires stage deadline rehearsal rehearsal
  | fire {before after : Rehearsal} {timer : DueTimer} : before.pending = some timer →
      deadline.all (timer.due ≤ ·) = true → Fires stage deadline (before.fire stage timer).2 after →
      Fires stage deadline before after

/-- What a user of a rehearsal can do with it; firing timers is to come to an end. -/
inductive Operates (stage : Stage) (before : Rehearsal) : Rehearsal → Prop where
  | start (script : Script) : Operates stage before (before.start stage script).2
  | advance : Operates stage before (before.advance stage).2
  | select (index : Nat) : Operates stage before (before.select stage index).2
  | fireNext {step : Step} {after : Rehearsal} :
      before.fireNext? stage = some (step, after) → Operates stage before after
  | runUntilBlocked {after : Rehearsal} : Fires stage none before after →
      Operates stage before after
  | advanceTime (elapsed : Nat) {after : Rehearsal} :
      Fires stage (some (before.now + elapsed)) before after →
      Operates stage before { after with now := max after.now (before.now + elapsed) }
  | play (script : Script) {after : Rehearsal} :
      Fires stage none (before.start stage script).2 after → Operates stage before after
  | advanceAndRun {after : Rehearsal} : (before.advance stage).1 ≠ .ignored →
      Fires stage none (before.advance stage).2 after → Operates stage before after
  | chooseAndRun (index : Nat) {step : Step} {after : Rehearsal} :
      (before.select stage index).1 = .ok step → step ≠ .ignored →
      Fires stage none (before.select stage index).2 after → Operates stage before after

section Firing

variable {deadline : Option Nat} {before after : Rehearsal}

theorem fireWithin_of_later (fuel : Nat)
    (later : ∀ timer ∈ before.pending, deadline.all (timer.due ≤ ·) = false) :
    fireWithin stage deadline fuel before = some before := by
  unfold fireWithin
  cases pending : before.pending with
  | none => rfl
  | some timer => simp only [later timer pending, Bool.false_eq_true, ↓reduceIte]

theorem fireWithin_of_due {timer : DueTimer} (pending : before.pending = some timer)
    (due : deadline.all (timer.due ≤ ·) = true) :
    fireWithin stage deadline 0 before = none ∧ ∀ fuel,
      fireWithin stage deadline (fuel + 1) before =
        fireWithin stage deadline fuel (before.fire stage timer).2 := by
  constructor
  · unfold fireWithin
    simp only [pending, due, ↓reduceIte]
  · intro fuel
    rw [fireWithin]
    simp only [pending, due, ↓reduceIte]

theorem later_or_due (deadline : Option Nat) (rehearsal : Rehearsal) :
    (∀ timer ∈ rehearsal.pending, deadline.all (timer.due ≤ ·) = false) ∨
      ∃ timer, rehearsal.pending = some timer ∧ deadline.all (timer.due ≤ ·) = true := by
  by_cases later : ∀ timer ∈ rehearsal.pending, deadline.all (timer.due ≤ ·) = false
  · exact .inl later
  · exact .inr (by simpa using later)

theorem fires_of_fireWithin {fuel : Nat}
    (fired : fireWithin stage deadline fuel before = some after) :
    Fires stage deadline before after := by
  induction fuel generalizing before with
  | zero =>
      rcases later_or_due deadline before with later | ⟨timer, pending, due⟩
      · rw [fireWithin_of_later 0 later] at fired
        cases fired
        exact .done later
      · rw [(fireWithin_of_due pending due).1] at fired
        cases fired
  | succ fuel ih =>
      rcases later_or_due deadline before with later | ⟨timer, pending, due⟩
      · rw [fireWithin_of_later _ later] at fired
        cases fired
        exact .done later
      · rw [(fireWithin_of_due pending due).2] at fired
        exact .fire pending due (ih fired)

theorem Fires.later (fires : Fires stage deadline before after) :
    ∀ timer ∈ after.pending, deadline.all (timer.due ≤ ·) = false := by
  induction fires with
  | done later => exact later
  | fire _ _ _ ih => exact ih

theorem Fires.unique {other : Rehearsal} (fires : Fires stage deadline before after)
    (others : Fires stage deadline before other) : other = after := by
  induction fires with
  | done later =>
      cases others with
      | done => rfl
      | fire pending due => rw [later _ pending] at due; cases due
  | fire pending due _ ih =>
      cases others with
      | done later => rw [later _ pending] at due; cases due
      | fire again _ others =>
          cases pending.symm.trans again
          exact ih others

theorem Fires.rule {holds : Rehearsal → Prop} (fires : Fires stage deadline before after)
    (fire : ∀ {rehearsal timer}, holds rehearsal → rehearsal.pending = some timer →
      holds (rehearsal.fire stage timer).2)
    (begin : holds before) : holds after := by
  induction fires with
  | done => exact begin
  | fire pending _ _ ih => exact ih (fire begin pending)

end Firing

section Returned

variable {before after : Rehearsal} {step : Step}

theorem fires_of_runUntilBlocked (returned : before.runUntilBlocked stage = some (step, after)) :
    Fires stage none before after ∧ step = after.last := by
  obtain ⟨last, fired, same⟩ := Option.map_eq_some_iff.mp returned
  cases same
  exact ⟨fires_of_fireWithin fired, rfl⟩

theorem operates_of_advanceTime {elapsed : Nat}
    (returned : before.advanceTime stage elapsed = some after) : Operates stage before after := by
  obtain ⟨last, fired, rfl⟩ := Option.map_eq_some_iff.mp returned
  exact .advanceTime elapsed (fires_of_fireWithin fired)

theorem operates_of_play {script : Script}
    (returned : before.play stage script = some (step, after)) : Operates stage before after :=
  .play script (fires_of_runUntilBlocked returned).1

theorem operates_of_advanceAndRun (returned : before.advanceAndRun stage = some (step, after)) :
    Operates stage before after := by
  rcases outcome : before.advance stage with ⟨answer, advanced⟩
  by_cases ignored : answer = .ignored
  · subst ignored
    simp only [advanceAndRun, outcome] at returned
    cases returned
    have advanced : Operates stage before (before.advance stage).2 := .advance
    rwa [outcome] at advanced
  · simp only [advanceAndRun, outcome] at returned
    refine .advanceAndRun (by rwa [outcome]) ?_
    rw [outcome]
    exact (fires_of_runUntilBlocked returned).1

theorem operates_of_chooseAndRun {index : Nat} {result : Except Refusal Step}
    (returned : before.chooseAndRun stage index = some (result, after)) :
    Operates stage before after := by
  rcases outcome : before.select stage index with ⟨answer, selected⟩
  have select : Operates stage before (before.select stage index).2 := .select index
  rw [outcome] at select
  cases answer with
  | error refusal =>
      simp only [chooseAndRun, outcome] at returned
      cases returned
      exact select
  | ok step =>
      by_cases ignored : step = .ignored
      · subst ignored
        simp only [chooseAndRun, outcome] at returned
        cases returned
        exact select
      · simp only [chooseAndRun, outcome] at returned
        obtain ⟨⟨last, ran⟩, blocked, same⟩ := Option.map_eq_some_iff.mp returned
        cases same
        refine .chooseAndRun index (by rw [outcome]) ignored ?_
        rw [outcome]
        exact (fires_of_runUntilBlocked blocked).1

end Returned

section Rules

variable {holds : Rehearsal → Prop} {before after : Rehearsal}

theorem Operates.rule (operates : Operates stage before after)
    (timely : ∀ {rehearsal}, holds rehearsal → rehearsal.interpreter.clock.Timely)
    (reacts : ∀ {before answer after}, holds before → Reacts before answer after → holds after)
    (begin : holds before) : holds after := by
  have start (script : Script) : holds (before.start stage script).2 :=
    reacts begin (start_reacts ..)
  have advance : holds (before.advance stage).2 :=
    reacts begin (advance_reacts stage (timely begin))
  have select (index : Nat) : holds (before.select stage index).2 :=
    reacts begin (select_reacts stage (timely begin) index)
  have fire {rehearsal : Rehearsal} {timer : DueTimer} (kept : holds rehearsal)
      (pending : rehearsal.pending = some timer) : holds (rehearsal.fire stage timer).2 :=
    reacts kept (fire_reacts stage (timely kept) pending)
  cases operates with
  | start script => exact start script
  | advance => exact advance
  | select index => exact select index
  | fireNext fired =>
      obtain ⟨timer, pending, same⟩ := Option.map_eq_some_iff.mp fired
      have fired := fire begin pending
      rwa [same] at fired
  | runUntilBlocked fires => exact fires.rule fire begin
  | advanceTime elapsed fires =>
      -- The timer that is left is due later, so the clock is not moved on past it.
      refine reacts (fires.rule fire begin) (.waited _ fun timer pending => ?_)
      have later := fires.later timer pending
      simp only [Option.all_some, decide_eq_false_iff_not, Nat.not_le] at later
      exact Nat.le_of_lt later
  | play script fires => exact fires.rule fire (start script)
  | advanceAndRun answered fires => exact fires.rule fire advance
  | chooseAndRun index answered solid fires => exact fires.rule fire (select index)

end Rules

/-! ## Rehearsals from the beginning -/

inductive Rehearsed (stage : Stage) : Rehearsal → Prop where
  | fresh : Rehearsed stage (ofInterpreter .fresh)
  | operate {before after : Rehearsal} : Rehearsed stage before → Operates stage before after →
      Rehearsed stage after

theorem coherent_fresh : (ofInterpreter .fresh).Coherent :=
  ⟨Clock.timely_fresh, rfl, nofun, rfl, .inr ⟨rfl, rfl, rfl⟩⟩

theorem Coherent.operate {before after : Rehearsal} (coherent : before.Coherent)
    (operates : Operates stage before after) : after.Coherent :=
  operates.rule (·.timely) (·.reacts) coherent

theorem Rehearsed.coherent (rehearsed : Rehearsed stage rehearsal) : rehearsal.Coherent := by
  induction rehearsed with
  | fresh => exact coherent_fresh
  | operate _ operates coherent => exact coherent.operate operates

/-- After any operations, a timer is pending just while the run goes on, and it is the one whose
wake is answered; it is not overdue, and firing it is never ignored. The last step is the one of
the phase, and `ignored` only as long as no run has been started. -/
theorem rehearsed_coherent (rehearsed : Rehearsed stage rehearsal) :
    (rehearsal.pending.isSome ↔ rehearsal.interpreter.phase = .running) ∧
    (∀ timer ∈ rehearsal.pending, rehearsal.now ≤ timer.due ∧
      ∀ wake, (rehearsal.interpreter.wake stage wake).1 ≠ .ignored ↔ wake = timer.wake) ∧
    (∀ step after, rehearsal.fireNext? stage = some (step, after) → step ≠ .ignored) ∧
    (rehearsal.last.phase? = some rehearsal.interpreter.phase ∧
        (Answer.step rehearsal.last).wake? = rehearsal.pending.map (·.wake) ∨
      rehearsal.last = .ignored ∧ rehearsal.interpreter.phase = .idle ∧
        rehearsal.interpreter.run = 0) := by
  have coherent := rehearsed.coherent
  refine ⟨?_, fun timer pending => ⟨coherent.due timer pending, fun wake => ?_⟩, ?_, ?_⟩
  · have live := coherent.timely.live_isSome_iff
    rwa [← coherent.live, Option.isSome_map] at live
  · rw [wake_answered_iff stage coherent.timely, ← coherent.live, pending]
    simp [eq_comm]
  · intro step after fired
    obtain ⟨timer, pending, same⟩ := Option.map_eq_some_iff.mp fired
    have answered : (rehearsal.fire stage timer).1 ≠ .ignored := coherent.fire_answered pending
    rwa [same] at answered
  · exact coherent.phase.imp_left fun phase => ⟨phase, coherent.wake.trans coherent.live.symm⟩

theorem rehearsed_coherent_revealing :
    let stage : Stage := ⟨{}, .standard, .accepting⟩
    let begun := ((ofInterpreter .fresh).start stage ⟨[.wait (some 200), .say none "Hi"]⟩).2
    ∃ step after, begun.fireNext? stage = some (step, after) ∧ Rehearsed stage after ∧
      after.pending = some ⟨230, ⟨1, .reveal ⟨2⟩⟩⟩ ∧ after.now ≤ 230 ∧
      (∀ wake, (after.interpreter.wake stage wake).1 ≠ .ignored ↔ wake = ⟨1, .reveal ⟨2⟩⟩) ∧
      after.last.phase? = some .running := by
  intro stage begun
  have started : Rehearsed stage begun := .operate .fresh (.start _)
  have shows : (begun.fireNext? stage).map (·.2.pending) =
      some (some ⟨230, ⟨1, .reveal ⟨2⟩⟩⟩) := rfl
  obtain ⟨⟨step, after⟩, fired, pending⟩ := Option.map_eq_some_iff.mp shows
  have rehearsed := Rehearsed.operate started (.fireNext fired)
  obtain ⟨waits, timers, -, last⟩ := rehearsed_coherent rehearsed
  have running := waits.mp (Option.isSome_of_mem pending)
  obtain ⟨early, answered⟩ := timers _ pending
  refine ⟨step, after, fired, rehearsed, pending, early, answered, ?_⟩
  rcases last with ⟨phase, -⟩ | ⟨-, idle, -⟩
  · exact phase.trans (congrArg some running)
  · cases running.symm.trans idle

end Rehearsal

end VisualNovel
