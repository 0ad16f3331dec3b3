import VisualNovel.Proofs.Restoring
import Mathlib.Logic.ExistsUnique
import Mathlib.Tactic.ByContra

/-!
Timers: at most one is ever waited for.

* `perform_serves`: what an operation can do to the phase, the counters and the timers.
* `Session.Orderly`: the invariant of a session, which ties the wakes handed out to the one timer
  that is waited for.
* `wake_answered_iff`: the wakes that are not ignored.
-/

namespace VisualNovel

namespace Interpreter

namespace Clock

def live (clock : Clock) : Option Wake :=
  if clock.phase = .running then
    match clock.settling with
    | some sequence => some ⟨clock.run, .settle sequence⟩
    | none => clock.reveal.active.map fun _ => ⟨clock.run, .reveal ⟨clock.reveal.generation⟩⟩
  else none

/-- While the phase is `running` just one timer is waited for, and none in any other phase. -/
structure Timely (clock : Clock) : Prop where
  running : clock.phase = .running → (clock.settling = none ↔ clock.reveal.active.isSome)
  halted : clock.phase ≠ .running → clock.settling = none ∧ clock.reveal.active = none

structure Later (before after : Clock) : Prop where
  timers : before.timers ≤ after.timers
  generation : before.reveal.generation ≤ after.reveal.generation
  begun : after.begun = before.begun

structure Poised (clock : Clock) : Prop where
  phase : clock.phase = .running
  settling : clock.settling = none
  active : clock.reveal.active = none

inductive Suspends (before : Clock) : Step → Clock → Prop where
  | settling (time : Nat) : Suspends before
      (.resume time ⟨before.run, .settle (before.timers + 1)⟩)
      { before with
        timers := before.timers + 1
        settling := some (before.timers + 1)
        begun := before.begun + 1 }
  | revealing (time : Nat) (revealing : Revealing Nat) : Suspends before
      (.resume time ⟨before.run, .reveal ⟨before.reveal.generation + 1⟩⟩)
      { before with
        reveal := ⟨before.reveal.generation + 1, some revealing⟩
        begun := before.begun + 1 }
  | presenting : Suspends before .awaitChoice { before with phase := .awaitingChoice }
  | finishing : Suspends before .ended
      { before with phase := .ended, settling := none, reveal := before.reveal.cancel }
  | ended : Suspends before .ended { before with phase := .ended }
  | stalled : Suspends before .stopped { before with phase := .stopped }

/-- What an operation can do: nothing, execute instructions, show more of a line, or wait. -/
inductive Serves (before : Clock) : Answer → Clock → Prop where
  | nothing {answer : Answer} : answer.wake? = none → Serves before answer before
  | runs {poised after : Clock} {step : Step} : Later before poised → Poised poised →
      Suspends poised step after → Serves before (.step step) after
  | shows (time : Nat) (wake : Wake) (revealing : Revealing Nat) : before.settling = none →
      before.live = some wake → Serves before (.step (.resume time wake))
        { before with reveal := ⟨before.reveal.generation, some revealing⟩ }
  | waits {answer : Answer} {after : Clock} : answer.wake? = none → Later before after →
      after.phase ≠ .running → after.settling = none → after.reveal.active = none →
      Serves before answer after

end Clock

/-! ## Executing instructions -/

theorem fetch_clock (instruction : Instruction) (interpreter : Interpreter) :
    (interpreter.fetch instruction).clock =
      { interpreter.clock with begun := interpreter.clock.begun
        + if timedKinds.contains instruction.kind then 1 else 0 } := by
  simp [fetch, clock, timersBegun, List.countP_cons, Event.beginsTimer]

theorem fetch_clock_of_not_timed {instruction : Instruction} {interpreter : Interpreter}
    (untimed : timedKinds.contains instruction.kind = false) :
    (interpreter.fetch instruction).clock = interpreter.clock := by
  rw [fetch_clock, untimed]
  rfl

def Clock.Flows (before : Clock) : Flow → Clock → Prop
  | .onward, after => after = before
  | .yield step, after => Suspends before step after

theorem Executed.flows {before after : Interpreter} {instruction : Instruction} {offset : Nat}
    {flow : Flow} (executed : Executed offset (before.fetch instruction) instruction flow after) :
    before.clock.Flows flow after.clock := by
  cases executed with
  | passed passes passed =>
      have untimed : timedKinds.contains instruction.kind = false := by
        cases instruction <;> first | rfl | cases passes
      exact passed.clock.trans (fetch_clock_of_not_timed untimed)
  | @settling _ staged time settles same =>
      have begins : timedKinds.contains instruction.kind = true := by
        cases instruction <;> first | rfl | cases settles
      show Clock.Suspends _ _
        { staged.clock with timers := before.timers + 1, settling := some (before.timers + 1) }
      rw [same.clock, fetch_clock, if_pos begins]
      exact .settling time
  | revealing speaker text name time =>
      show Clock.Suspends _ _ { ((before.fetch _).give (.showDialogue name)).clock with
        reveal := ⟨before.reveal.generation + 1, some ⟨text.toList, 0, offset⟩⟩ }
      rw [(Staged.give _ _).clock, fetch_clock]
      exact .revealing time _
  | presenting options nonempty =>
      let fetched := before.fetch (.choice options)
      let noted := fetched.note (.presentingChoices options.length offset)
      have same : Staged fetched (noted.give (.renderChoices (options.map (·.text)))) :=
        (Staged.note rfl _).trans (.give _ _)
      show Clock.Suspends _ _ { (noted.give _).clock with phase := .awaitingChoice }
      rw [same.clock, fetch_clock_of_not_timed rfl]
      exact .presenting
  | finishing endText =>
      let fetched := before.fetch .ending
      let cleared := ((fetched.note (.finished offset)).give .clearChoices).give .clearDialogue
      have same : Staged fetched (cleared.give (.showEnd endText)) :=
        (Staged.note rfl _).trans <| (Staged.give _ _).trans <|
          (Staged.give _ _).trans (.give _ _)
      show Clock.Suspends _ _ { (cleared.give _).clock with
        phase := .ended, settling := none, reveal := before.reveal.cancel }
      rw [same.clock, fetch_clock_of_not_timed rfl]
      exact .finishing

theorem runUntilSuspended_suspends (stage : Stage) (interpreter : Interpreter) :
    interpreter.clock.Suspends (interpreter.runUntilSuspended stage).1
      (interpreter.runUntilSuspended stage).2.clock := by
  apply runUntilSuspended_rule (fun next => next.clock = interpreter.clock)
    (fun step next => interpreter.clock.Suspends step next.clock) interpreter rfl
  · intro next instruction flow after same found outcome
    have flows := (executed_of_eq outcome).flows
    rw [same] at flows
    cases flow with
    | onward => exact flows
    | yield step => exact flows
  · intro next same found
    show Clock.Suspends _ _ { (next.note (.reachedEnd next.pc)).clock with phase := .ended }
    rw [(Staged.note rfl _).clock, same]
    exact .ended
  · intro offset next same
    show Clock.Suspends _ _ { (next.report (.stalled offset)).clock with phase := .stopped }
    rw [(Staged.report _ _).clock, same]
    exact .stalled

/-! ## Operations -/

namespace Clock

theorem Timely.poised {clock : Clock} (timely : clock.Timely) (halted : clock.phase ≠ .running) :
    Poised { clock with phase := .running } :=
  ⟨rfl, (timely.halted halted).1, (timely.halted halted).2⟩

theorem Later.of_phase (clock : Clock) (phase : Phase) :
    Later clock { clock with phase := phase } :=
  ⟨Nat.le_refl _, Nat.le_refl _, rfl⟩

end Clock

section Moves

variable (stage : Stage) {interpreter : Interpreter} (timely : interpreter.clock.Timely)
include timely

theorem advance_serves : interpreter.clock.Serves (.step (interpreter.advance stage).1)
    (interpreter.advance stage).2.clock := by
  unfold advance
  split
  · next awaiting =>
      have halted : interpreter.clock.phase ≠ .running := by
        show interpreter.phase ≠ .running
        simp [awaiting]
      exact .runs (.of_phase _ _) (timely.poised halted)
        (runUntilSuspended_suspends stage { interpreter with phase := .running })
  · rw [(Staged.note rfl _).clock]
    exact .nothing rfl

theorem takeOption_serves (offset : Nat) (option : ChoiceOption)
    (halted : interpreter.clock.phase ≠ .running) :
    interpreter.clock.Serves (.step (interpreter.takeOption stage offset option).1)
      (interpreter.takeOption stage offset option).2.clock := by
  have clock : (interpreter.chosen offset option).clock =
      { interpreter.clock with phase := .running } := by
    show { Interpreter.clock (give _ _) with phase := .running } = _
    rw [(Staged.give _ _).clock, (goWhereItLeads_passed ..).clock, (passSignal_staged ..).clock]
  have suspends := runUntilSuspended_suspends stage (interpreter.chosen offset option)
  rw [clock] at suspends
  exact .runs (.of_phase _ _) (timely.poised halted) suspends

theorem select_serves (index : Nat) :
    interpreter.clock.Serves (.ofResult (interpreter.select stage index).1)
      (interpreter.select stage index).2.clock := by
  unfold select
  split
  · next awaiting =>
      split
      · exact .nothing rfl
      next offset pending =>
      split
      · next options found =>
          split
          · next option selected =>
              let noted := interpreter.note (.choiceSelected index option.text)
              have same : noted.clock = interpreter.clock := (Staged.note rfl _).clock
              have halted : noted.clock.phase ≠ .running := by
                show interpreter.phase ≠ .running
                simp [awaiting]
              have serves := takeOption_serves stage (same ▸ timely) offset option halted
              rwa [same] at serves
          · rw [(Staged.note rfl _).clock]
            exact .nothing rfl
      · exact .nothing rfl
  · rw [(Staged.note rfl _).clock]
    exact .nothing rfl

end Moves

theorem stop_serves (interpreter : Interpreter) :
    interpreter.clock.Serves .nothing interpreter.stop.clock := by
  unfold stop
  split
  · show Clock.Serves _ _ { (interpreter.note (.stopped interpreter.pc)).clock with
      phase := .stopped, reveal := interpreter.reveal.cancel, settling := none }
    rw [(Staged.note rfl _).clock]
    exact .waits rfl ⟨Nat.le_refl _, Nat.le_succ _, rfl⟩ (by simp) rfl rfl
  · exact .nothing rfl

/-! ## Wakes -/

namespace Clock

variable {clock : Clock}

theorem Suspends.ne_ignored {after : Clock} {step : Step} (suspends : clock.Suspends step after) :
    step ≠ .ignored := by
  cases suspends <;> simp

theorem live_settle_iff {run sequence : Nat} : clock.live = some ⟨run, .settle sequence⟩ ↔
    clock.phase = .running ∧ clock.settling = some sequence ∧ clock.run = run := by
  unfold live
  split
  · next running =>
      cases clock.settling with
      | none => simp
      | some waited => simp [running, and_comm]
  · next halted => simp [halted]

theorem Timely.live_reveal_iff (timely : clock.Timely) {run : Nat} {ticket : Ticket} :
    clock.live = some ⟨run, .reveal ticket⟩ ↔
      clock.phase = .running ∧ clock.run = run ∧ ticket.generation = clock.reveal.generation ∧
        ∃ revealing, clock.reveal.active = some revealing := by
  obtain ⟨generation⟩ := ticket
  unfold live
  split
  · next running =>
      have waits := timely.running running
      cases active : clock.reveal.active with
      | none => cases settling : clock.settling <;> simp_all
      | some revealing =>
          have settling : clock.settling = none := waits.mpr (by simp [active])
          simp [settling, running, eq_comm]
  · next halted => simp [halted]

end Clock

theorem afterReveal_serves (stage : Stage) (offset : Nat) {interpreter : Interpreter}
    {before : Clock} (later : before.Later interpreter.clock)
    (poised : interpreter.clock.Poised) :
    (interpreter.afterReveal stage offset).1 ≠ .ignored ∧
      before.Serves (.step (interpreter.afterReveal stage offset).1)
        (interpreter.afterReveal stage offset).2.clock := by
  have awaits (noted : Interpreter) (same : noted.clock = interpreter.clock) :
      before.Serves (.step .awaitAdvance) { noted.clock with phase := .awaitingAdvance } := by
    rw [same]
    exact .waits rfl ⟨later.timers, later.generation, later.begun⟩ (by simp)
      poised.settling poised.active
  unfold afterReveal
  split
  · have suspends :=
      runUntilSuspended_suspends stage (interpreter.note (.leadsIntoChoice offset))
    rw [(Staged.note rfl _).clock] at suspends
    exact ⟨suspends.ne_ignored, .runs later poised suspends⟩
  · exact ⟨by simp, awaits _ (Staged.note rfl _).clock⟩
  · exact ⟨by simp, awaits _ rfl⟩

theorem tick_serves (stage : Stage) {interpreter : Interpreter} {revealing : Revealing Nat}
    (running : interpreter.phase = .running) (settling : interpreter.settling = none)
    (active : interpreter.reveal.active = some revealing) :
    let outcome := interpreter.tick stage ⟨interpreter.reveal.generation⟩
    outcome.1 ≠ .ignored ∧ interpreter.clock.Serves (.step outcome.1) outcome.2.clock := by
  have live : interpreter.clock.live =
      some ⟨interpreter.run, .reveal ⟨interpreter.reveal.generation⟩⟩ := by
    simp [Clock.live, clock, running, settling, active]
  by_cases more : revealing.advance.cursor < Text.size revealing.text
  · simp only [tick, Reveal.tick, active, Revealing.text_advance, more, ↓reduceIte, ne_eq,
      not_true_eq_false]
    refine ⟨by simp, ?_⟩
    show Clock.Serves _ _ { (interpreter.give _).clock with
      reveal := ⟨interpreter.reveal.generation, some _⟩ }
    rw [(Staged.give _ _).clock]
    exact .shows _ _ _ settling live
  · simp only [tick, Reveal.tick, active, Revealing.text_advance, more, ↓reduceIte, ne_eq,
      not_true_eq_false]
    let shown := interpreter.give (.dialogueText (String.ofList revealing.text))
    have complete : clock { shown with reveal := ⟨interpreter.reveal.generation, none⟩ } =
        { interpreter.clock with reveal := ⟨interpreter.reveal.generation, none⟩ } := by
      show { shown.clock with reveal := ⟨interpreter.reveal.generation, none⟩ } = _
      rw [(Staged.give _ _).clock]
    apply afterReveal_serves
    · rw [complete]
      exact ⟨Nat.le_refl _, Nat.le_refl _, rfl⟩
    · rw [complete]
      exact ⟨running, settling, rfl⟩

section Wakes

variable (stage : Stage) {interpreter : Interpreter} (timely : interpreter.clock.Timely)
include timely

theorem wake_of_live {wake : Wake} (live : interpreter.clock.live = some wake) :
    (interpreter.wake stage wake).1 ≠ .ignored ∧
      interpreter.clock.Serves (.step (interpreter.wake stage wake).1)
        (interpreter.wake stage wake).2.clock := by
  obtain ⟨run, timer⟩ := wake
  cases timer with
  | settle sequence =>
      obtain ⟨running, settling, rfl⟩ : interpreter.phase = .running ∧
          interpreter.settling = some sequence ∧ interpreter.run = run :=
        Clock.live_settle_iff.mp live
      have waits : interpreter.settling = none ↔ interpreter.reveal.active.isSome :=
        timely.running running
      have active : interpreter.reveal.active = none := by
        simpa [settling] using waits
      let poised : Interpreter := { interpreter with settling := none }
      have suspends := runUntilSuspended_suspends stage poised
      have goesOn : interpreter.wake stage ⟨interpreter.run, .settle sequence⟩ =
          runUntilSuspended stage poised := by
        simp [Interpreter.wake, poised, running, settling]
      have later : interpreter.clock.Later poised.clock :=
        ⟨Nat.le_refl _, Nat.le_refl _, rfl⟩
      rw [goesOn]
      exact ⟨suspends.ne_ignored, .runs later ⟨running, rfl, active⟩ suspends⟩
  | reveal ticket =>
      obtain ⟨generation⟩ := ticket
      obtain ⟨running, rfl, rfl, revealing, active⟩ : interpreter.phase = .running ∧
          interpreter.run = run ∧ generation = interpreter.reveal.generation ∧
          ∃ revealing, interpreter.reveal.active = some revealing :=
        timely.live_reveal_iff.mp live
      have waits : interpreter.settling = none ↔ interpreter.reveal.active.isSome :=
        timely.running running
      have settling : interpreter.settling = none := waits.mpr (by simp [active])
      let ticket : Ticket := ⟨interpreter.reveal.generation⟩
      have ticks : interpreter.wake stage ⟨interpreter.run, .reveal ticket⟩ =
          interpreter.tick stage ticket := by
        simp [Interpreter.wake, running]
      rw [ticks]
      exact tick_serves stage running settling active

theorem wake_of_not_live {wake : Wake} (stale : interpreter.clock.live ≠ some wake) :
    (interpreter.wake stage wake).1 = .ignored ∧
      (interpreter.wake stage wake).2.clock = interpreter.clock := by
  obtain ⟨run, timer⟩ := wake
  unfold Interpreter.wake
  split
  · exact ⟨rfl, (Staged.note rfl _).clock⟩
  next current =>
  obtain ⟨rfl, running⟩ : run = interpreter.run ∧ interpreter.phase = .running := by
    simpa [not_or] using current
  cases timer with
  | settle sequence =>
      have elapsed : interpreter.settling ≠ some sequence := fun settling =>
        stale (Clock.live_settle_iff.mpr ⟨running, settling, rfl⟩)
      simp [elapsed]
  | reveal ticket =>
      -- A ticket is stale if its reveal was replaced or is complete.
      have idle : ticket.generation ≠ interpreter.reveal.generation ∨
          interpreter.reveal.active = none := by
        by_contra waited
        obtain ⟨same, active⟩ := not_or.mp waited
        exact stale (timely.live_reveal_iff.mpr ⟨running, rfl, Decidable.not_not.mp same,
          Option.ne_none_iff_exists'.mp active⟩)
      rcases idle with replaced | complete
      · simp [tick, Reveal.tick, replaced]
      · by_cases same : ticket.generation = interpreter.reveal.generation <;>
          simp [tick, Reveal.tick, same, complete]

theorem wake_answered_iff {wake : Wake} :
    (interpreter.wake stage wake).1 ≠ .ignored ↔ interpreter.clock.live = some wake := by
  constructor
  · intro answered
    by_contra stale
    exact answered (wake_of_not_live stage timely stale).1
  · intro live
    exact (wake_of_live stage timely live).1

theorem wake_serves (wake : Wake) :
    interpreter.clock.Serves (.step (interpreter.wake stage wake).1)
      (interpreter.wake stage wake).2.clock := by
  by_cases live : interpreter.clock.live = some wake
  · exact (wake_of_live stage timely live).2
  · obtain ⟨ignored, same⟩ := wake_of_not_live stage timely live
    rw [ignored, same]
    exact .nothing rfl

end Wakes

/-! ## Beginning and restoring runs -/

theorem reset_clock (script : Script) (interpreter : Interpreter) :
    (interpreter.reset script).clock =
      { interpreter.clock with
        run := interpreter.run + 1
        settling := none
        reveal := interpreter.reveal.cancel } := by
  simp [clock, reset, timersBegun, Event.beginsTimer]

theorem start_serves (stage : Stage) (script : Script) (interpreter : Interpreter) :
    interpreter.clock.Serves (.step (interpreter.start stage script).1)
      (interpreter.start stage script).2.clock := by
  let reset := interpreter.reset script
  let poised : Interpreter :=
    { reset.note (.started reset.run script.length reset.targets.size) with phase := .running }
  have clock : poised.clock = { reset.clock with phase := .running } := by
    show { (reset.note _).clock with phase := .running } = _
    rw [(Staged.note rfl _).clock]
  rw [reset_clock] at clock
  have later : interpreter.clock.Later poised.clock := by
    rw [clock]
    exact ⟨Nat.le_refl _, Nat.le_succ _, rfl⟩
  exact .runs later ⟨rfl, rfl, rfl⟩ (runUntilSuspended_suspends stage poised)

theorem restore_serves (stage : Stage) (script : Script) (save : SavePoint)
    (interpreter : Interpreter) :
    interpreter.clock.Serves (.ofResult (interpreter.restore stage script save).1)
      (interpreter.restore stage script save).2.clock := by
  cases outcome : save.step? script with
  | error refusal =>
      rw [restore_refused interpreter outcome]
      exact .nothing rfl
  | ok step =>
      rw [restore_eq interpreter outcome]
      have fits := (SavePoint.step?_ok_iff.mp outcome).2.2
      have clock : ((interpreter.putBack script save).replay stage).clock =
          { (interpreter.reset script).clock with phase := save.phase } := by
        rw [(replay_shown _ _).clock]
        exact (Staged.note rfl _).clock
      rw [clock, reset_clock]
      refine .waits ?_ ⟨Nat.le_refl _, Nat.le_succ _, rfl⟩ ?_ rfl rfl
      · cases fits <;> rfl
      · intro running
        have suspended := fits.isSuspended
        rw [show save.phase = .running from running] at suspended
        cases suspended

/-! ## Runs -/

theorem perform_serves (stage : Stage) (operation : Operation) {interpreter : Interpreter}
    (timely : interpreter.clock.Timely) :
    interpreter.clock.Serves (interpreter.perform stage operation).1
      (interpreter.perform stage operation).2.clock := by
  cases operation with
  | start script =>
      simp only [perform, Prod.map_fst, Prod.map_snd, id_eq]
      exact start_serves stage script interpreter
  | restore script save =>
      simp only [perform, Prod.map_fst, Prod.map_snd, id_eq]
      exact restore_serves stage script save interpreter
  | move move =>
      cases move with
      | advance => exact advance_serves stage timely
      | select index => exact select_serves stage timely index
      | wake wake => exact wake_serves stage timely wake
      | stop => exact stop_serves interpreter

namespace Clock

theorem Suspends.timely {before after : Clock} {step : Step} (poised : before.Poised)
    (suspends : before.Suspends step after) : after.Timely := by
  obtain ⟨phase, settling, active⟩ := poised
  cases suspends with
  | settling time => exact ⟨fun _ => by simp [active], fun halted => absurd phase halted⟩
  | revealing time revealing =>
      exact ⟨fun _ => by simp [settling], fun halted => absurd phase halted⟩
  | presenting => exact ⟨fun running => by simp at running, fun _ => ⟨settling, active⟩⟩
  | finishing => exact ⟨fun running => by simp at running, fun _ => ⟨rfl, rfl⟩⟩
  | ended => exact ⟨fun running => by simp at running, fun _ => ⟨settling, active⟩⟩
  | stalled => exact ⟨fun running => by simp at running, fun _ => ⟨settling, active⟩⟩

theorem Serves.timely {before after : Clock} {answer : Answer} (timely : before.Timely)
    (serves : before.Serves answer after) : after.Timely := by
  cases serves with
  | nothing => exact timely
  | runs later poised suspends => exact suspends.timely poised
  | shows time wake revealing settling live =>
      have running : before.phase = .running := by
        by_contra halted
        simp [Clock.live, halted] at live
      exact ⟨fun _ => by simp [settling], fun halted => absurd running halted⟩
  | waits silent later halted settling active =>
      exact ⟨fun running => absurd running halted, fun _ => ⟨settling, active⟩⟩

end Clock

theorem Clock.timely_fresh : fresh.clock.Timely :=
  ⟨(nomatch ·), fun _ => ⟨rfl, rfl⟩⟩

theorem Reachable.timely {stage : Stage} {interpreter : Interpreter}
    (reachable : Reachable stage interpreter) : interpreter.clock.Timely := by
  induction reachable with
  | fresh => exact Clock.timely_fresh
  | perform operation _ timely => exact (perform_serves stage operation timely).timely timely

end Interpreter

/-! ## Sessions -/

def Interpreter.Clock.Knows (clock : Clock) (wake : Wake) : Prop :=
  match wake.timer with
  | .settle sequence => sequence ≤ clock.timers
  | .reveal ticket => ticket.generation ≤ clock.reveal.generation

theorem Interpreter.Clock.Knows.later {before after : Clock} {wake : Wake}
    (knows : before.Knows wake) (timers : before.timers ≤ after.timers)
    (generation : before.reveal.generation ≤ after.reveal.generation) : after.Knows wake := by
  obtain ⟨run, timer⟩ := wake
  cases timer with
  | settle sequence => exact Nat.le_trans knows timers
  | reveal ticket => exact Nat.le_trans knows generation

namespace Session

/-- The wakes that were handed out are of timers that the clock has counted, and tell these
timers apart; while the phase is `running` the last of them is the one that is waited for. -/
structure Orderly (clock : Interpreter.Clock) (issues : List Issue) : Prop where
  timely : clock.Timely
  live : clock.phase = .running →
    ∃ wake, clock.live = some wake ∧ issues.getLast? = some ⟨wake, clock.begun⟩
  known : ∀ issue ∈ issues, clock.Knows issue.wake ∧ issue.timer ≤ clock.begun
  apart : ∀ first ∈ issues, ∀ second ∈ issues,
    first.wake = second.wake ↔ first.timer = second.timer

namespace Orderly

variable {before after : Interpreter.Clock} {issues : List Issue}

theorem begin (orderly : Orderly before issues) {wake : Wake} (unknown : ¬before.Knows wake)
    (timely : after.Timely) (live : after.live = some wake) (knows : after.Knows wake)
    (timers : before.timers ≤ after.timers)
    (generation : before.reveal.generation ≤ after.reveal.generation)
    (begun : after.begun = before.begun + 1) :
    Orderly after (issues ++ [⟨wake, after.begun⟩]) where
  timely := timely
  live _ := ⟨wake, live, List.getLast?_concat⟩
  known := by
    intro issue member
    rcases List.mem_append.mp member with member | member
    · have known := orderly.known issue member
      exact ⟨known.1.later timers generation, by omega⟩
    · rw [List.mem_singleton.mp member]
      exact ⟨knows, Nat.le_refl _⟩
  apart := by
    -- The clock had counted the timers of all earlier wakes.
    have new (issue : Issue) (member : issue ∈ issues) :
        issue.wake ≠ wake ∧ issue.timer ≠ after.begun := by
      have known := orderly.known issue member
      exact ⟨fun same => unknown (same ▸ known.1), by omega⟩
    intro first member second member'
    rcases List.mem_append.mp member with member | member <;>
      rcases List.mem_append.mp member' with member' | member'
    · exact orderly.apart first member second member'
    · rw [List.mem_singleton.mp member']
      exact iff_of_false (new first member).1 (new first member).2
    · rw [List.mem_singleton.mp member]
      exact iff_of_false (new second member').1.symm (new second member').2.symm
    · rw [List.mem_singleton.mp member, List.mem_singleton.mp member']
      simp

theorem again (orderly : Orderly before issues) {wake : Wake} (running : before.phase = .running)
    (waited : before.live = some wake) (timely : after.Timely) (live : after.live = some wake)
    (timers : after.timers = before.timers)
    (generation : after.reveal.generation = before.reveal.generation)
    (begun : after.begun = before.begun) : Orderly after (issues ++ [⟨wake, after.begun⟩]) := by
  obtain ⟨last, same, issued⟩ := orderly.live running
  obtain rfl : wake = last := Option.some.inj (waited.symm.trans same)
  have issued : ⟨wake, after.begun⟩ ∈ issues := by
    rw [begun]
    exact List.mem_of_getLast? issued
  have earlier (issue : Issue) : issue ∈ issues ++ [⟨wake, after.begun⟩] ↔ issue ∈ issues := by
    simp only [List.mem_append, List.mem_singleton]
    exact ⟨fun member => member.elim id (· ▸ issued), .inl⟩
  refine ⟨timely, fun _ => ⟨wake, live, List.getLast?_concat⟩, ?_, ?_⟩
  · intro issue member
    have known := orderly.known issue ((earlier issue).mp member)
    exact ⟨known.1.later (by omega) (by omega), begun ▸ known.2⟩
  · intro first member second member'
    exact orderly.apart first ((earlier first).mp member) second ((earlier second).mp member')

theorem quiet (orderly : Orderly before issues) (later : before.Later after)
    (halted : after.phase ≠ .running) (timely : after.Timely) : Orderly after issues := by
  refine ⟨timely, fun running => absurd running halted, ?_, orderly.apart⟩
  intro issue member
  have known := orderly.known issue member
  exact ⟨known.1.later later.timers later.generation, later.begun ▸ known.2⟩

theorem suspends {poised : Interpreter.Clock} {step : Step} (orderly : Orderly before issues)
    (later : before.Later poised) (poise : poised.Poised) (halt : poised.Suspends step after) :
    Orderly after (issues
      ++ ((Answer.step step).wake?.map fun wake => Issue.mk wake after.begun).toList) := by
  have timely := halt.timely poise
  have begun : before.begun = poised.begun := later.begun.symm
  have timers := later.timers
  have generation := later.generation
  have quiet (same : after.begun = poised.begun) (halted : after.phase ≠ .running)
      (moreTimers : poised.timers ≤ after.timers)
      (moreReveals : poised.reveal.generation ≤ after.reveal.generation) :
      Orderly after (issues ++ []) := by
    rw [List.append_nil]
    exact orderly.quiet ⟨by omega, by omega, by omega⟩ halted timely
  cases halt with
  | settling time =>
      refine orderly.begin ?_ timely ?_ (Nat.le_refl _) (by dsimp only; omega) generation
        (by dsimp only; omega)
      · exact Nat.not_le.mpr (Nat.lt_succ_of_le timers)
      · simp [Interpreter.Clock.live, poise.phase]
  | revealing time revealing =>
      refine orderly.begin ?_ timely ?_ (Nat.le_refl _) timers (by dsimp only; omega)
        (by dsimp only; omega)
      · exact Nat.not_le.mpr (Nat.lt_succ_of_le generation)
      · simp [Interpreter.Clock.live, poise.phase, poise.settling]
  | presenting => exact quiet rfl (by simp) (Nat.le_refl _) (Nat.le_refl _)
  | finishing => exact quiet rfl (by simp) (Nat.le_refl _) (Nat.le_succ _)
  | ended => exact quiet rfl (by simp) (Nat.le_refl _) (Nat.le_refl _)
  | stalled => exact quiet rfl (by simp) (Nat.le_refl _) (Nat.le_refl _)

theorem serves {answer : Answer} (orderly : Orderly before issues)
    (serves : before.Serves answer after) :
    Orderly after (issues ++ (answer.wake?.map fun wake => Issue.mk wake after.begun).toList) := by
  have timely := serves.timely orderly.timely
  cases serves with
  | nothing silent => simpa [silent] using orderly
  | runs later poised suspends => exact orderly.suspends later poised suspends
  | shows time wake revealing settling live =>
      have running : before.phase = .running := by
        by_contra halted
        simp [Interpreter.Clock.live, halted] at live
      refine orderly.again running live timely ?_ rfl rfl rfl
      cases active : before.reveal.active with
      | none => simp [Interpreter.Clock.live, running, settling, active] at live
      | some _ => simpa [Interpreter.Clock.live, running, settling, active] using live
  | waits silent later halted settling active =>
      simpa [silent] using orderly.quiet later halted timely

end Orderly

theorem orderly_afterOperations (stage : Stage) (operations : List Operation) :
    Orderly (afterOperations stage operations).interpreter.clock
      (afterOperations stage operations).issues := by
  have keeps (session : Session) (orderly : Orderly session.interpreter.clock session.issues) :
      ∀ operations : List Operation,
        let after := operations.foldl (fun session operation =>
          session.take (session.interpreter.perform stage operation)) session
        Orderly after.interpreter.clock after.issues := by
    intro operations
    induction operations generalizing session with
    | nil => exact orderly
    | cons operation operations ih =>
        exact ih _ (orderly.serves (Interpreter.perform_serves stage operation orderly.timely))
  refine keeps .fresh ⟨Interpreter.Clock.timely_fresh, ?_, ?_, ?_⟩ operations
  · exact (nomatch ·)
  · exact fun _ member => nomatch member
  · exact fun _ member => nomatch member

end Session

/-! ## The one timer that is waited for -/

/-- After any operations, in whatever order and with whatever wakes, just the wake of the last step
that handed one out is accepted, and it is while the phase is `running`. Wakes are equal if and
only if they are of the same timer. -/
theorem one_live_timer (stage : Stage) (operations : List Operation) :
    let session := Session.afterOperations stage operations
    let interpreter := session.interpreter
    (∀ wake, (interpreter.wake stage wake).1 ≠ .ignored ↔
      interpreter.phase = .running ∧ session.issues.getLast?.map (·.wake) = some wake) ∧
    (interpreter.phase = .running → ∃! wake, (interpreter.wake stage wake).1 ≠ .ignored) ∧
    (interpreter.phase ≠ .running → ∀ wake, (interpreter.wake stage wake).1 = .ignored) ∧
    ∀ first ∈ session.issues, ∀ second ∈ session.issues,
      first.wake = second.wake ↔ first.timer = second.timer := by
  intro session interpreter
  have orderly : Session.Orderly interpreter.clock session.issues :=
    Session.orderly_afterOperations stage operations
  have answered (wake : Wake) : (interpreter.wake stage wake).1 ≠ .ignored ↔
      interpreter.clock.live = some wake := Interpreter.wake_answered_iff stage orderly.timely
  have halted (halted : interpreter.phase ≠ .running) : interpreter.clock.live = none := by
    simp [Interpreter.Clock.live, Interpreter.clock, halted]
  refine ⟨fun wake => ?_, fun running => ?_, fun stopped wake => ?_, orderly.apart⟩
  · rw [answered]
    constructor
    · intro live
      have running : interpreter.phase = .running := by
        by_contra stopped
        rw [halted stopped] at live
        cases live
      obtain ⟨last, waited, issued⟩ := orderly.live running
      refine ⟨running, ?_⟩
      rw [issued, ← live, waited]
      rfl
    · rintro ⟨running, last⟩
      obtain ⟨wake', waited, issued⟩ := orderly.live running
      rw [issued] at last
      exact waited.trans last
  · obtain ⟨wake, waited, issued⟩ := orderly.live running
    refine ⟨wake, (answered wake).mpr waited, fun other accepted => ?_⟩
    exact Option.some.inj (((answered other).mp accepted).symm.trans waited)
  · by_contra accepted
    have live := (answered wake).mp accepted
    rw [halted stopped] at live
    cases live

end VisualNovel
