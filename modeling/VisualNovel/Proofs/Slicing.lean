import VisualNovel.Proofs.Firing

/-!
Time in slices: letting time pass in two steps comes to the same as letting it pass at once. Timers
are due at moments that are fixed when they are set, so the moments at which the clock is read in
between make no difference.

Main statement: `time_sliced`.
-/

namespace VisualNovel.Rehearsal

open Interpreter

variable {stage : Stage} {before after : Rehearsal}

theorem fires_iff_of_due {deadline : Option Nat} {timer : DueTimer}
    (pending : before.pending = some timer) (due : deadline.all (timer.due ≤ ·) = true) :
    Fires stage deadline before after ↔
      Fires stage deadline (before.fire stage timer).2 after := by
  refine ⟨fun fires => ?_, .fire pending due⟩
  cases fires with
  | done rests => rw [rests _ pending] at due; cases due
  | fire again _ fires =>
      cases pending.symm.trans again
      exact fires

theorem all_mono {first second due : Nat} (less : first ≤ second)
    (early : (some first).all (due ≤ ·) = true) : (some second).all (due ≤ ·) = true := by
  simp only [Option.all_some, decide_eq_true_eq] at early ⊢
  exact Nat.le_trans early less

theorem Rests.earlier {first second : Nat} (less : first ≤ second)
    (rests : before.Rests (some second)) : before.Rests (some first) := by
  intro timer pending
  have later := rests timer pending
  simp only [Option.all_some, decide_eq_false_iff_not] at later ⊢
  omega

theorem Fires.split {first second : Nat} (less : first ≤ second)
    (fires : Fires stage (some second) before after) :
    ∃ between, Fires stage (some first) before between ∧
      Fires stage (some second) between after := by
  induction fires with
  | done rests => exact ⟨_, .done (Rests.earlier less rests), .done rests⟩
  | @fire before after timer pending due fires ih =>
      by_cases early : (some first).all (timer.due ≤ ·) = true
      · obtain ⟨between, sooner, later⟩ := ih
        exact ⟨between, .fire pending early sooner, later⟩
      · refine ⟨before, .done fun other waited => ?_, .fire pending due fires⟩
        cases pending.symm.trans waited
        simpa using early

theorem Fires.append {first second : Nat} {between : Rehearsal} (less : first ≤ second)
    (sooner : Fires stage (some first) before between)
    (later : Fires stage (some second) between after) : Fires stage (some second) before after := by
  induction sooner with
  | done => exact later
  | fire pending due _ ih => exact .fire pending (all_mono less due) (ih later)

theorem fire_now (timer : DueTimer) (rehearsal : Rehearsal) :
    (rehearsal.fire stage timer).2.now = max rehearsal.now timer.due := by
  simp only [fire, take]
  cases (rehearsal.interpreter.wake stage timer.wake).1 with
  | ignored => rw [accept_ignored]
  | _ => rfl

theorem Fires.now_le {deadline : Nat} (fires : Fires stage (some deadline) before after)
    (begins : before.now ≤ deadline) : after.now ≤ deadline := by
  induction fires with
  | done => exact begins
  | fire pending due _ ih =>
      apply ih
      rw [fire_now]
      exact Nat.max_le.mpr ⟨begins, by simpa using due⟩

/-- Timers fire until the deadline, whatever that takes. -/
def Passes (stage : Stage) (deadline : Nat) (before after : Rehearsal) : Prop :=
  ∃ fired, Fires stage (some deadline) before fired ∧
    after = { fired with now := max fired.now deadline }

theorem passes_iff_of_rests {deadline : Nat} (rests : before.Rests (some deadline)) :
    Passes stage deadline before after ↔
      after = { before with now := max before.now deadline } := by
  constructor
  · rintro ⟨fired, fires, rfl⟩
    rw [fires.eq_of_rests rests]
  · rintro rfl
    exact ⟨before, .done rests, rfl⟩

theorem passes_iff_of_due {deadline : Nat} {timer : DueTimer}
    (pending : before.pending = some timer) (due : (some deadline).all (timer.due ≤ ·) = true) :
    Passes stage deadline before after ↔
      Passes stage deadline (before.fire stage timer).2 after :=
  exists_congr fun _ => and_congr_left' (fires_iff_of_due pending due)

theorem passes_waited {first second : Nat} (rests : before.Rests (some first))
    (begins : before.now ≤ first) (less : first ≤ second) :
    Passes stage second { before with now := first } after ↔
      Passes stage second before after := by
  rcases later_or_due (some second) before with later | ⟨timer, pending, due⟩
  · have waited : Rests (some second) { before with now := first } := later
    have same : max first second = max before.now second := by omega
    rw [passes_iff_of_rests waited, passes_iff_of_rests later]
    simp only [same]
  · -- The clock is set to when the timer is due, wherever it stood before.
    have late : first < timer.due := by simpa using rests timer pending
    have fired : Rehearsal.fire stage timer { before with now := first } =
        before.fire stage timer := by
      simp only [fire, Nat.max_eq_right (Nat.le_of_lt late),
        Nat.max_eq_right (Nat.le_trans begins (Nat.le_of_lt late))]
    have waited : Rehearsal.pending { before with now := first } = some timer := pending
    rw [passes_iff_of_due waited due, passes_iff_of_due pending due, fired]

theorem passes_split {first second : Nat} (begins : before.now ≤ first) (less : first ≤ second) :
    (∃ between, Passes stage first before between ∧ Passes stage second between after) ↔
      Passes stage second before after := by
  have between {fired : Rehearsal} (fires : Fires stage (some first) before fired) :
      Passes stage second { fired with now := max fired.now first } after ↔
        Passes stage second fired after := by
    have early := fires.now_le begins
    rw [Nat.max_eq_right early]
    exact passes_waited fires.later early less
  constructor
  · rintro ⟨_, ⟨fired, sooner, rfl⟩, passes⟩
    obtain ⟨last, later, same⟩ := (between sooner).mp passes
    exact ⟨last, sooner.append less later, same⟩
  · rintro ⟨last, fires, same⟩
    obtain ⟨fired, sooner, later⟩ := fires.split less
    exact ⟨_, ⟨fired, sooner, rfl⟩, (between sooner).mpr ⟨last, later, same⟩⟩

theorem Passes.now_eq {deadline : Nat} (passes : Passes stage deadline before after)
    (begins : before.now ≤ deadline) : after.now = deadline := by
  obtain ⟨fired, fires, rfl⟩ := passes
  exact Nat.max_eq_right (fires.now_le begins)

section Disturbed

variable (disturbed : Disturbed stage before)
include disturbed

theorem advanceTime_iff_passes {elapsed : Nat} : before.advanceTime stage elapsed = some after ↔
    Passes stage (before.now + elapsed) before after :=
  advanceTime_eq_some_iff disturbed

theorem advanceTime_add (first second : Nat) :
    (before.advanceTime stage first).bind (·.advanceTime stage second) =
      before.advanceTime stage (first + second) := by
  ext after
  rw [Option.bind_eq_some_iff, advanceTime_iff_passes disturbed,
    ← passes_split (Nat.le_add_right before.now first) (by omega)]
  refine exists_congr fun between => ?_
  rw [advanceTime_iff_passes disturbed]
  refine and_congr_right fun passes => ?_
  have waited : Disturbed stage between :=
    .operate disturbed (operates_of_advanceTime ((advanceTime_iff_passes disturbed).mpr passes))
  rw [advanceTime_iff_passes waited, passes.now_eq (Nat.le_add_right ..), Nat.add_assoc]

end Disturbed

inductive LastFired (stage : Stage) (timer : DueTimer) : Rehearsal → Rehearsal → Prop where
  | last {before : Rehearsal} : before.pending = some timer →
      (before.fire stage timer).2.pending = none →
      LastFired stage timer before (before.fire stage timer).2
  | later {before after : Rehearsal} {first : DueTimer} : before.pending = some first →
      LastFired stage timer (before.fire stage first).2 after → LastFired stage timer before after

theorem Disturbed.fire (disturbed : Disturbed stage before) {timer : DueTimer}
    (pending : before.pending = some timer) : Disturbed stage (before.fire stage timer).2 := by
  have fired : before.fireNext? stage = some (before.fire stage timer) := by
    rw [fireNext?, pending]
    rfl
  exact .operate disturbed (.fireNext fired)

theorem Fires.lastFired (disturbed : Disturbed stage before)
    (fires : Fires stage none before after) :
    before.pending = none ∧ after = before ∨
      ∃ timer, LastFired stage timer before after ∧ after.now = timer.due := by
  induction fires with
  | @done before rests =>
      refine .inl ⟨?_, rfl⟩
      cases pending : before.pending with
      | none => rfl
      | some timer => simpa using rests timer pending
  | @fire before after timer pending due fires ih =>
      rcases ih (disturbed.fire pending) with ⟨spent, rfl⟩ | ⟨last, fired, now⟩
      · refine .inr ⟨timer, .last pending spent, ?_⟩
        rw [fire_now]
        exact Nat.max_eq_right (disturbed.punctual.early timer pending)
      · exact .inr ⟨last, .later pending fired, now⟩

theorem Fires.until_spent {deadline : Nat} (fires : Fires stage (some deadline) before after)
    (spent : after.pending = none) : Fires stage none before after := by
  induction fires with
  | done => exact .done (rests_of_pending spent)
  | fire pending _ _ ih => exact .fire pending rfl (ih spent)

/-- However time is sliced, it passes in the same way, and where that ends with no timer pending
the clock alone tells it from firing all timers at once. -/
theorem time_sliced (disturbed : Disturbed stage before) :
    (∀ elapsed fired, Fires stage (some (before.now + elapsed)) before fired →
      (before.advanceTime stage elapsed).isSome) ∧
    (∀ first second, (before.advanceTime stage first).bind (·.advanceTime stage second) =
      before.advanceTime stage (first + second)) ∧
    ∀ elapsed after, before.advanceTime stage elapsed = some after → after.pending = none →
      ∃ blocked, before.runUntilBlocked stage = some (after.last, blocked) ∧
        after = { blocked with now := before.now + elapsed } ∧
        (before.pending = none ∧ blocked = before ∨
          ∃ timer, LastFired stage timer before blocked ∧ blocked.now = timer.due) := by
  refine ⟨fun elapsed fired fires => ?_, advanceTime_add disturbed,
    fun elapsed after returned spent => ?_⟩
  · have returned := (advanceTime_eq_some_iff disturbed).mpr ⟨fired, fires, rfl⟩
    rw [returned]
    rfl
  · obtain ⟨blocked, fires, same⟩ := (advanceTime_eq_some_iff disturbed).mp returned
    have early := fires.now_le (Nat.le_add_right _ _)
    rw [Nat.max_eq_right early] at same
    subst same
    have all := fires.until_spent spent
    exact ⟨blocked, (runUntilBlocked_eq_some_iff disturbed).mpr ⟨all, rfl⟩, rfl,
      all.lastFired disturbed⟩

theorem time_sliced_mid_pause :
    let stage : Stage := ⟨{}, .standard, .accepting⟩
    let script : Script := ⟨[.wait (some 100), .wait (some 100)]⟩
    let before := ((ofInterpreter .fresh).start stage script).2
    Disturbed stage before ∧
    (before.advanceTime stage 150).bind (·.advanceTime stage 100) =
      before.advanceTime stage 250 ∧
    ∃ after blocked, before.advanceTime stage 250 = some after ∧ after.pending = none ∧
      before.runUntilBlocked stage = some (.ended, blocked) ∧ blocked.now = 200 ∧
      after = { blocked with now := 250 } := by
  intro stage script before
  have disturbed : Disturbed stage before := .operate .fresh (.start script)
  obtain ⟨-, sliced, spends⟩ := time_sliced disturbed
  have spent : (before.advanceTime stage 250).map (fun after => (after.pending, after.last)) =
      some (none, .ended) := by decide +kernel
  obtain ⟨after, returned, same⟩ := Option.map_eq_some_iff.mp spent
  obtain ⟨pending, last⟩ := Prod.ext_iff.mp same
  obtain ⟨blocked, blocks, clock, -⟩ := spends 250 after returned pending
  have now : (before.runUntilBlocked stage).map (·.2.now) = some 200 := by decide +kernel
  rw [blocks] at now
  refine ⟨disturbed, sliced 150 100, after, blocked, returned, pending, ?_, Option.some.inj now, ?_⟩
  · rw [blocks, show after.last = .ended from last]
  · rw [clock]
    rfl

end VisualNovel.Rehearsal
