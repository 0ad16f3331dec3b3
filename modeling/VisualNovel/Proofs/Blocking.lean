import VisualNovel.Proofs.Passages
import VisualNovel.Proofs.Timing

/-!
How soon a run blocks, and how long that takes. Firing timers comes to an end after no more than fit
into the script, or never does; in between nothing is executed twice, and as much time passes as the
instructions take that are executed.

Main statements: `blocks_soon_or_never` and `time_accounted`, for rehearsals that are used in any
way, also past what they know of their interpreters.
-/

namespace VisualNovel

namespace Interpreter

/-! ## What is executed in one part after another -/

theorem executedSince_trans {first second third : Interpreter}
    (begun : first.history.toList <+: second.history.toList)
    (goesOn : second.history.toList <+: third.history.toList) :
    third.executedSince first = second.executedSince first ++ third.executedSince second := by
  obtain ⟨earlier, begun⟩ := begun
  obtain ⟨later, goesOn⟩ := goesOn
  have all : third.history.toList = first.history.toList ++ (earlier ++ later) := by
    rw [← goesOn, ← begun, List.append_assoc]
  simp only [executedSince, eventsSince_eq begun.symm, eventsSince_eq goesOn.symm,
    eventsSince_eq all, List.filterMap_append]

structure Silent (before after : Interpreter) : Prop where
  history : before.history.toList <+: after.history.toList
  executed : after.executedSince before = []

theorem Reports.unexecuted {allowed : Diagnostic → Prop} {before after : Interpreter}
    (reports : Reports allowed before after) : Silent before after := by
  obtain ⟨events, added, within⟩ := reports
  refine ⟨⟨events, added.history.symm⟩, ?_⟩
  rw [executedSince, eventsSince_eq added.history]
  exact List.filterMap_eq_nil_iff.mpr fun event member => (within event member).executed?_eq_none

theorem Silent.trans {first second third : Interpreter} (before : Silent first second)
    (after : Silent second third) : Silent first third := by
  refine ⟨before.history.trans after.history, ?_⟩
  rw [executedSince_trans before.history after.history, before.executed, after.executed]
  rfl

theorem reset_silent (script : Script) (earlier : Interpreter) :
    Silent earlier (earlier.reset script) := by
  have history := reset_history script earlier
  refine ⟨⟨_, history.symm⟩, ?_⟩
  rw [executedSince, eventsSince_eq history, List.filterMap_map]
  exact List.filterMap_eq_nil_iff.mpr fun _ _ => rfl

theorem begin_silent (script : Script) (earlier : Interpreter) :
    Silent earlier (earlier.begin script) := by
  have begins : Reports (fun _ => False) (earlier.reset script) (earlier.begin script) :=
    (Cued.note rfl _).updates rfl rfl rfl rfl
  exact (reset_silent script earlier).trans begins.unexecuted

theorem Executes.history {offsets stalls : List Nat} {before after : Interpreter}
    (executes : Executes offsets stalls before after) :
    before.history.toList <+: after.history.toList := by
  obtain ⟨events, added, -, -⟩ := executes
  exact ⟨events, added.history.symm⟩

theorem Executes.script {offsets stalls : List Nat} {before after : Interpreter}
    (executes : Executes offsets stalls before after) : after.script = before.script := by
  obtain ⟨events, added, -, -⟩ := executes
  exact added.script

theorem Moved.executes_of_ignored {stage : Stage} {before after : Interpreter} {move : Move Wake}
    {answer : Answer} (moved : Moved stage before move answer after)
    (ignored : answer = .step .ignored) : Executes [] [] before after := by
  cases moved with
  | ignored unchanged => exact (unchanged.cued _).reports.silent
  | resumed resumes =>
      exact absurd (Answer.step.inj ignored) (runUntilSuspended_suspends stage _).ne_ignored
  | _ => cases ignored

end Interpreter

namespace Rehearsal

open Interpreter

variable {stage : Stage} {rehearsal before after : Rehearsal}

/-! ## Rehearsals used in any way -/

/-- A rehearsal around an interpreter in any state, whose interpreter is also used directly. -/
inductive Hosted (stage : Stage) : Rehearsal → Prop where
  | adopt {interpreter : Interpreter} : Reachable stage interpreter →
      Hosted stage (ofInterpreter interpreter)
  | operate {before after : Rehearsal} : Hosted stage before → Operates stage before after →
      Hosted stage after
  | touch {before : Rehearsal} (operation : Operation) : Hosted stage before →
      Hosted stage
        { before with interpreter := (before.interpreter.perform stage operation).2 }

theorem Hosted.reachable (hosted : Hosted stage rehearsal) :
    Reachable stage rehearsal.interpreter := by
  induction hosted with
  | adopt reachable => exact reachable
  | operate _ operates reachable => exact operates.reachable reachable
  | touch operation _ reachable => exact reachable.perform operation

theorem Hosted.prompt (hosted : Hosted stage rehearsal) : rehearsal.Prompt := by
  induction hosted with
  | adopt reachable => exact ⟨reachable.timely, nofun⟩
  | operate _ operates prompt => exact operates.rule (·.timely) (·.reacts) prompt
  | touch operation hosted prompt =>
      exact ⟨(hosted.reachable.perform operation).timely, prompt.early⟩

/-! ## How often timers fire -/

def fireTimes (stage : Stage) : Nat → Rehearsal → Rehearsal
  | 0, rehearsal => rehearsal
  | count + 1, rehearsal =>
      match rehearsal.fireNext? stage with
      | some (_, after) => fireTimes stage count after
      | none => rehearsal

theorem fireTimes_of_pending {timer : DueTimer} (pending : rehearsal.pending = some timer)
    (count : Nat) : rehearsal.fireTimes stage (count + 1) =
      (rehearsal.fire stage timer).2.fireTimes stage count := by
  rw [fireTimes, fireNext?, pending]
  rfl

theorem Attuned.isSome {script : Script} {spot : Spot} {due : Nat}
    (attuned : Attuned script spot due rehearsal) : rehearsal.pending.isSome := by
  obtain ⟨wake, pending, -⟩ := attuned.pending
  exact Option.isSome_of_mem pending

theorem Attuned.fireTimes_of_track {script : Script} {spot : Spot} {due : Nat} {rest : List Spot}
    (attuned : Attuned script spot due rehearsal) (track : Track script.next? spot rest) :
    (rehearsal.fireTimes stage (rest.length + 1)).pending = none := by
  induction track generalizing rehearsal due with
  | last leads =>
      obtain ⟨wake, pending, -⟩ := attuned.pending
      have fired := attuned.fire stage pending
      rw [leads] at fired
      rwa [fireTimes_of_pending pending]
  | step leads _ ih =>
      obtain ⟨wake, pending, -⟩ := attuned.pending
      have fired := attuned.fire stage pending
      rw [leads] at fired
      rw [fireTimes_of_pending pending]
      exact ih fired

theorem Attuned.fireTimes_isSome {script : Script} {spot : Spot} {due : Nat}
    (attuned : Attuned script spot due rehearsal)
    (endless : ∀ rest, ¬Track script.next? spot rest) (count : Nat) :
    (rehearsal.fireTimes stage count).pending.isSome := by
  induction count generalizing rehearsal spot due with
  | zero => exact attuned.isSome
  | succ count ih =>
      obtain ⟨wake, pending, -⟩ := attuned.pending
      have fired := attuned.fire stage pending
      rw [fireTimes_of_pending pending]
      cases leads : script.next? spot with
      | none => exact absurd (.last leads) (endless [])
      | some next =>
          rw [leads] at fired
          exact ih fired fun rest track => endless (next :: rest) (.step leads track)

theorem Attuned.soon_or_never {script : Script} {spot : Spot} {due : Nat}
    (attuned : Attuned script spot due rehearsal) :
    (∃ count ≤ script.fires, (rehearsal.fireTimes stage count).pending = none) ∨
      ∀ count, (rehearsal.fireTimes stage count).pending.isSome := by
  by_cases ends : ∃ rest, Track script.next? spot rest
  · obtain ⟨rest, track⟩ := ends
    have begins : spot ∈ script.spots := attuned.script ▸ attuned.waitsAt.mem_spots
    have less := track.lt_length begins fun _ leads => Script.mem_spots_of_next? leads
    rw [Script.length_spots] at less
    exact .inl ⟨rest.length + 1, less, attuned.fireTimes_of_track track⟩
  · exact .inr (attuned.fireTimes_isSome (not_exists.mp ends))

theorem fires_iff_fireTimes : Fires stage none before after ↔
    (∃ count, before.fireTimes stage count = after) ∧ after.pending = none := by
  constructor
  · intro fires
    refine ⟨?_, Option.eq_none_iff_forall_ne_some.mpr fun timer pending => ?_⟩
    · induction fires with
      | done => exact ⟨0, rfl⟩
      | fire pending _ _ ih =>
          obtain ⟨count, fired⟩ := ih
          exact ⟨count + 1, (fireTimes_of_pending pending count).trans fired⟩
    · cases fires.later timer pending
  · rintro ⟨⟨count, rfl⟩, spent⟩
    induction count generalizing before with
    | zero => exact .done (rests_of_pending spent)
    | succ count ih =>
        cases pending : before.pending with
        | none =>
            have still : before.fireTimes stage (count + 1) = before := by
              rw [fireTimes, fireNext?, pending]
              rfl
            rw [still]
            exact .done (rests_of_pending pending)
        | some timer =>
            rw [fireTimes_of_pending pending] at spent ⊢
            exact .fire pending rfl (ih spent)

theorem Fires.executes (hosted : Hosted stage before) (fires : Fires stage none before after) :
    ∃ offsets stalls, Executes offsets stalls before.interpreter after.interpreter ∧
      (stalls = [] → offsets.Nodup) := by
  cases fires with
  | done => exact ⟨[], [], Reports.silent (.refl _), fun _ => List.nodup_nil⟩
  | @fire _ _ timer pending due fires =>
      have early := hosted.prompt.early timer pending
      rcases attuned_or_stale hosted.reachable early pending with ⟨spot, attuned⟩ | stale
      · obtain ⟨offsets, stalls, executes, -, track⟩ := attuned.executes (.fire pending due fires)
        exact ⟨offsets, stalls, executes, fun none => (track none).nodup.of_cons⟩
      · obtain rfl := fires.eq_of_rests (rests_of_pending (fire_stale stale).2)
        refine ⟨[], [], ?_, fun _ => List.nodup_nil⟩
        rw [fire_interpreter]
        exact (wake_moved stage _ timer.wake).executes_of_ignored (congrArg Answer.step stale)

/-- Timers fire no more often than fits into the script until none is pending, or for ever. Only a
stale timer may be left over where there is nothing to wait for; it fires once and is ignored. A
rehearsal runs until none is pending, and nothing is executed twice unless the run stalls. -/
theorem blocks_soon_or_never (hosted : Hosted stage before) :
    ((∃ count ≤ before.interpreter.script.fires,
        (before.fireTimes stage count).pending = none) ∨
      (before.interpreter.script.fires = 0 ∧
        ∃ spent, before.fireNext? stage = some (.ignored, spent) ∧ spent.pending = none) ∨
      ∀ count, (before.fireTimes stage count).pending.isSome) ∧
    (∀ step after, before.runUntilBlocked stage = some (step, after) ↔
      ((∃ count, before.fireTimes stage count = after) ∧ after.pending = none) ∧
        step = after.last) ∧
    ∀ step after, before.runUntilBlocked stage = some (step, after) →
      (∀ offset, .stalled offset ∉ after.interpreter.reportedSince before.interpreter) →
      (after.interpreter.executedSince before.interpreter).Nodup := by
  refine ⟨?_, fun step after => ?_, fun step after returned unstalled => ?_⟩
  · cases pending : before.pending with
    | none => exact .inl ⟨0, Nat.zero_le _, pending⟩
    | some timer =>
        have early := hosted.prompt.early timer pending
        rcases attuned_or_stale hosted.reachable early pending with ⟨spot, attuned⟩ | stale
        · exact attuned.soon_or_never.imp_right .inr
        · obtain ⟨ignored, spent⟩ := fire_stale stale
          rcases Nat.eq_zero_or_pos before.interpreter.script.fires with none | some
          · refine .inr (.inl ⟨none, (before.fire stage timer).2, ?_, spent⟩)
            rw [fireNext?, pending, Option.map_some, ← ignored]
          · refine .inl ⟨1, some, ?_⟩
            rwa [fireTimes_of_pending pending]
  · rw [hosted.prompt.runUntilBlocked_iff hosted.reachable, fires_iff_fireTimes]
  · obtain ⟨offsets, stalls, executes, nodup⟩ :=
      Fires.executes hosted (fires_of_runUntilBlocked returned).1
    rw [executes.executedSince_eq]
    refine nodup (List.eq_nil_iff_forall_not_mem.mpr fun offset member => ?_)
    exact unstalled offset (executes.stalled_mem_iff.mpr member)

theorem blocks_soon_or_never_at_choice :
    let stage : Stage := ⟨{}, .standard, .accepting⟩
    let script : Script := ⟨[.wait none, .say none "Hi", .choice [⟨"Left", none, none⟩]]⟩
    let before := ((ofInterpreter .fresh).start stage script).2
    ∃ step after, Hosted stage before ∧ before.interpreter.script.fires = 3 ∧
      (before.fireTimes stage 2).pending.isSome ∧
      (before.fireTimes stage 3).pending = none ∧
      before.runUntilBlocked stage = some (step, after) ∧ before.fireTimes stage 3 = after ∧
      step = .awaitChoice ∧ after.interpreter.executedSince before.interpreter = [1, 2] ∧
      (after.interpreter.executedSince before.interpreter).Nodup := by
  intro stage script before
  have hosted : Hosted stage before := .operate (.adopt .fresh) (.start script)
  obtain ⟨-, returns, nodup⟩ := blocks_soon_or_never hosted
  let after := before.fireTimes stage 3
  have spent : after.pending = none := by decide +kernel
  have returned := (returns after.last after).mpr ⟨⟨⟨3, rfl⟩, spent⟩, rfl⟩
  have unstalled : after.interpreter.reportedSince before.interpreter = [] := by decide +kernel
  refine ⟨after.last, after, hosted, by decide +kernel, by decide +kernel, spent, returned, rfl,
    by decide +kernel, by decide +kernel, nodup _ _ returned fun offset => ?_⟩
  rw [unstalled]
  exact List.not_mem_nil

/-- A timer left over from another script is one more than fits into this one. -/
theorem stale_timer_left_over :
    let stage : Stage := ⟨{}, .standard, .accepting⟩
    let script : Script := ⟨[.choice [⟨"Left", none, none⟩]]⟩
    let waiting := ((ofInterpreter .fresh).start stage ⟨[.wait (some 100)]⟩).2
    let save : SavePoint := ⟨script.fingerprint, 1, .awaitingChoice, .blank, some 0⟩
    let restored := (waiting.restoreInterpreter stage script save).2
    Hosted stage restored ∧ restored.interpreter.script = script ∧ script.fires = 0 ∧
      ¬((∃ count ≤ script.fires, (restored.fireTimes stage count).pending = none) ∨
        ∀ count, (restored.fireTimes stage count).pending.isSome) := by
  intro stage script waiting save restored
  have hosted : Hosted stage waiting := .operate (.adopt .fresh) (.start _)
  have accepted : save.step? script = .ok .awaitChoice := SavePoint.step?_ok_iff.mpr
    ⟨rfl, Nat.le_refl 1, .choice 0 [⟨"Left", none, none⟩] rfl rfl rfl rfl⟩
  have restores : restored =
      { waiting with interpreter := (waiting.interpreter.putBack script save).replay stage } := by
    simp only [restored, restoreInterpreter, restore_eq _ accepted]
  have touched : Hosted stage restored := by
    rw [restores]
    have touched := hosted.touch (.restore script save)
    simpa only [perform, restore_eq _ accepted, Prod.map_snd, id_eq] using touched
  have left : restored.pending.isSome := by rw [restores]; rfl
  have spent : (restored.fireTimes stage 1).pending = none := by rw [restores]; decide +kernel
  refine ⟨touched, by rw [restores]; rfl, rfl, ?_⟩
  rintro (⟨count, few, blocked⟩ | never)
  · obtain rfl : count = 0 := Nat.le_zero.mp few
    rw [show restored.pending = none from blocked] at left
    cases left
  · have pending := never 1
    rw [spent] at pending
    cases pending

/-! ## How long it takes -/

/-- The run goes on from `ready`, nothing having been executed yet, until it comes to a step that is
not ignored. -/
structure Entered (stage : Stage) (before ready : Interpreter) (step : Step)
    (after : Interpreter) : Prop where
  silent : Silent before ready
  inside : Inside ready
  running : ready.phase = .running
  runs : ready.runUntilSuspended stage = (step, after)
  timely : after.clock.Timely
  phase : step.phase? = some after.phase
  wake : (Answer.step step).wake? = after.clock.live

theorem entered_of_start {script : Script} {step : Step} {interpreter after : Interpreter}
    (starts : interpreter.start stage script = (step, after)) :
    Entered stage interpreter (interpreter.begin script) step after := by
  have timely := start_timely stage script interpreter
  have phase := start_tells stage script interpreter
  have serves := start_serves stage script interpreter
  rw [starts] at timely phase serves
  exact ⟨begin_silent .., ⟨rfl, Nat.zero_le _⟩, rfl, starts, timely, phase,
    serves.wake?_eq_live phase⟩

theorem entered_of_resumes {interpreter ready : Interpreter} {move : Move Wake}
    (reachable : Reachable stage interpreter) (resumes : Resumes interpreter move ready) :
    Entered stage interpreter ready (ready.runUntilSuspended stage).1
      (ready.runUntilSuspended stage).2 := by
  have inside := reachable.placed.toInside
  have performs : Performs interpreter.script interpreter := ⟨inside.targets, rfl⟩
  have ready_reports : Reports (Announced stage interpreter.script) interpreter ready :=
    performs.ready resumes
  have made : interpreter.makeMove stage move = _ := resumes.makeMove_eq
  have replies := replies_of_move move reachable.timely made
  have answered : (ready.runUntilSuspended stage).1 ≠ .ignored :=
    (runUntilSuspended_suspends stage ready).ne_ignored
  generalize runs : ready.runUntilSuspended stage = outcome at replies answered ⊢
  obtain ⟨step, after⟩ := outcome
  cases replies with
  | ignored => exact absurd rfl answered
  | tells timely phase wake =>
      exact ⟨ready_reports.unexecuted, resumes.inside inside, resumes.running, runs, timely, phase,
        wake⟩

theorem enter_entered {call : Call} (hosted : Hosted stage before)
    (answered : ¬before.Declined stage call) :
    ∃ ready step after, Entered stage before.interpreter ready step after ∧
      (before.enter stage call).2 = (before.take (step, after)).2 := by
  cases call with
  | play script => exact ⟨_, _, _, entered_of_start rfl, rfl⟩
  | advanceAndRun =>
      have moved := advance_moved stage before.interpreter
      simp only [Declined, enter, Rehearsal.advance] at answered ⊢
      generalize before.interpreter.advance stage = outcome at moved answered ⊢
      obtain ⟨step, after⟩ := outcome
      cases moved with
      | ignored => exact absurd rfl answered
      | resumed resumes => exact ⟨_, _, _, entered_of_resumes hosted.reachable resumes, rfl⟩
  | chooseAndRun index =>
      have moved := select_moved stage before.interpreter index
      simp only [Declined, enter, Rehearsal.select] at answered ⊢
      generalize before.interpreter.select stage index = outcome at moved answered ⊢
      obtain ⟨result, after⟩ := outcome
      cases result with
      | error refusal => exact absurd trivial answered
      | ok step =>
          have moved : Moved stage before.interpreter (.select index) (.step step) after := moved
          cases moved with
          | ignored => exact absurd rfl answered
          | resumed resumes => exact ⟨_, _, _, entered_of_resumes hosted.reachable resumes, rfl⟩

theorem take_now (outcome : Step × Interpreter) (rehearsal : Rehearsal) :
    (rehearsal.take outcome).2.now = rehearsal.now := by
  obtain ⟨step, after⟩ := outcome
  simp only [take]
  cases step with
  | ignored => rw [accept_ignored]
  | _ => rfl

theorem enter_declined {call : Call} {step : Step} (declined : before.Declined stage call)
    (entered : before.enter stage call = (.ok step, after)) :
    Executes [] [] before.interpreter after.interpreter ∧ after.now = before.now := by
  have taken {answer : Step} {resumed : Interpreter} {move : Move Wake}
      (moved : Moved stage before.interpreter move (.step answer) resumed)
      (ignored : answer = .ignored) (takes : (before.take (answer, resumed)).2 = after) :
      Executes [] [] before.interpreter after.interpreter ∧ after.now = before.now := by
    subst takes
    rw [take_now, take, accept_interpreter]
    exact ⟨moved.executes_of_ignored (congrArg Answer.step ignored), rfl⟩
  cases call with
  | play script => exact absurd declined (start_answered stage script before.interpreter)
  | advanceAndRun => exact taken (advance_moved ..) declined (congrArg Prod.snd entered)
  | chooseAndRun index =>
      have moved := select_moved stage before.interpreter index
      simp only [Declined, enter, Rehearsal.select] at declined entered
      generalize before.interpreter.select stage index = outcome at moved declined entered
      obtain ⟨result, resumed⟩ := outcome
      cases result with
      | error refusal => cases entered
      | ok answer => exact taken moved declined (congrArg Prod.snd entered)

theorem executes_of_waits {script : Script} {spot? : Option Spot} {now : Nat}
    (begins : before.now = now)
    (waits : match spot? with
      | some spot => Attuned script spot (now + script.delayAt stage.settings spot.offset) before
      | none => before.pending = none)
    (fires : Fires stage none before after) :
    ∃ offsets stalls, Executes offsets stalls before.interpreter after.interpreter ∧
      after.now = now + script.wait stage.settings spot? +
        script.duration stage.settings offsets := by
  cases spot? with
  | none =>
      obtain rfl := fires.eq_of_rests (rests_of_pending waits)
      exact ⟨[], [], Reports.silent (.refl _), begins⟩
  | some spot =>
      obtain ⟨offsets, stalls, executes, now, -⟩ := Attuned.executes waits fires
      refine ⟨offsets, stalls, executes, ?_⟩
      simp only [Script.wait, Option.map_some, Option.getD_some]
      omega

theorem Entered.plays_out {ready interpreter : Interpreter} {step : Step}
    (entered : Entered stage before.interpreter ready step interpreter)
    (fires : Fires stage none (before.take (step, interpreter)).2 after) :
    ∃ offsets stalls, Executes offsets stalls ready after.interpreter ∧
      after.now = before.now + ready.script.duration stage.settings offsets := by
  obtain ⟨first, stalls, stretch, executes, -⟩ :=
    runUntilSuspended_stretch stage ⟨entered.inside.targets, rfl⟩
  have comes := runUntilSuspended_comes stage entered.inside entered.running
  rw [entered.runs] at executes comes
  have attuned := take_attuned before entered.timely entered.phase entered.wake comes
  have duration : ready.script.duration stage.settings first = _ := stretch.duration
  generalize ready.script.waitFrom? ready.pc = spot? at attuned duration
  obtain ⟨later, latest, executes', now⟩ := executes_of_waits (take_now ..) attuned fires
  rw [take, accept_interpreter] at executes'
  refine ⟨_, _, executes.trans executes', ?_⟩
  rw [now, Script.duration_append, duration, Nat.add_assoc]

/-- As much time passes until the run blocks as the instructions take that are executed. -/
theorem time_accounted (hosted : Hosted stage before) {call : Call} {step : Step}
    (returned : before.call stage call = some (.ok step, after)) :
    after.now = before.now + after.interpreter.script.duration stage.settings
      (after.interpreter.executedSince before.interpreter) := by
  by_cases declined : before.Declined stage call
  · rw [call_of_declined declined] at returned
    obtain ⟨executes, now⟩ := enter_declined declined (Option.some.inj returned)
    rw [executes.executedSince_eq, now]
    rfl
  · rw [call_of_answered declined] at returned
    obtain ⟨⟨last, blocked⟩, blocks, same⟩ := Option.map_eq_some_iff.mp returned
    obtain ⟨-, rfl⟩ : _ ∧ blocked = after := by simpa using same
    obtain ⟨ready, answer, resumed, entered, takes⟩ := enter_entered hosted declined
    have fires := (fires_of_runUntilBlocked blocks).1
    rw [takes] at fires
    obtain ⟨offsets, stalls, executes, now⟩ := entered.plays_out fires
    rw [now, executes.script, executedSince_trans entered.silent.history executes.history,
      entered.silent.executed, List.nil_append, executes.executedSince_eq]

theorem time_accounted_opening :
    let stage : Stage := ⟨{}, .standard, .accepting⟩
    let script : Script := ⟨[.wait none, .music .stop none none, .background none none (some 70),
      .label "top", .say none "Hi", .choice [⟨"Left", none, none⟩]]⟩
    let before := ofInterpreter .fresh
    ∃ after, Hosted stage before ∧
      before.call stage (.play script) = some (.ok .awaitChoice, after) ∧
      after.interpreter.executedSince before.interpreter = [0, 1, 2, 3, 4, 5] ∧
      after.now = before.now + (500 + 50 + 70 + 0 + 2 * 30 + 0) := by
  intro stage script before
  have hosted : Hosted stage before := .adopt .fresh
  have plays : (before.call stage (.play script)).map (fun outcome => (outcome.1.toOption,
      outcome.2.interpreter.script, outcome.2.interpreter.executedSince before.interpreter)) =
        some (some .awaitChoice, script, [0, 1, 2, 3, 4, 5]) := by
    decide +kernel
  obtain ⟨⟨result, after⟩, returned, same⟩ := Option.map_eq_some_iff.mp plays
  obtain ⟨answer, same⟩ := Prod.ext_iff.mp same
  obtain ⟨own, executed⟩ := Prod.ext_iff.mp same
  cases result with
  | error refusal => cases answer
  | ok step =>
      cases answer
      have accounted := time_accounted hosted returned
      rw [show after.interpreter.script = script from own,
        show after.interpreter.executedSince before.interpreter = _ from executed] at accounted
      exact ⟨after, hosted, returned, executed, accounted⟩

end Rehearsal

end VisualNovel
