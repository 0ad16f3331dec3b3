import VisualNovel.Proofs.Alike
import VisualNovel.Proofs.Resumption

namespace VisualNovel

/-- What a host does within a run: a move, in which a wake is named by how many were handed out in
the run before it, or the delivery of a wake from before the run. -/
inductive Turn (ω : Type) where
  | move (move : Move Nat)
  | late (wake : ω)

namespace Session

inductive Reached (stage : Stage) : Session → Prop where
  | fresh : Reached stage .fresh
  | perform {session : Session} (operation : Operation) : Reached stage session →
      Reached stage (session.take (session.interpreter.perform stage operation))
  | takeDiagnostics {session : Session} : Reached stage session →
      Reached stage { session with interpreter := session.interpreter.takeDiagnostics.2 }

variable {ω : Type}

def deliver (stage : Stage) (wake : Wake) (session : Session) : Answer × Session :=
  let outcome := session.interpreter.makeMove stage (.wake wake)
  (outcome.1, session.take outcome)

def ignore (session : Session) : Answer × Session :=
  (.step .ignored, session)

def takeTurns (stage : Stage) (late : ω → Session → Answer × Session) :
    List (Turn ω) → Session → List Answer × Session
  | [], session => ([], session)
  | turn :: turns, session =>
      let (answer, session) := match turn with
        | .move move => session.makeMove stage move
        | .late wake => late wake session
      let (answers, session) := session.takeTurns stage late turns
      (answer :: answers, session)

/-- A new run; the wakes that are handed out are counted from its beginning. -/
def newRun (stage : Stage) (script : Script) (late : ω → Session → Answer × Session)
    (turns : List (Turn ω)) (interpreter : Interpreter) : List Answer × Session :=
  let begun := interpreter.perform stage (.start script)
  let (answers, session) := (take begun ⟨interpreter, []⟩).takeTurns stage late turns
  (begun.1 :: answers, session)

/-- The same has been handed back, given after the cues `before`, and reported, and both runs have
come to the same. -/
structure SameRun (before : List Cue) (here there : List Answer × Session) : Prop where
  answers : here.1.map Answer.anonymous = there.1.map Answer.anonymous
  cues : here.2.interpreter.cues = before ++ there.2.interpreter.cues
  diagnostics : here.2.interpreter.diagnostics = there.2.interpreter.diagnostics
  script : here.2.interpreter.script = there.2.interpreter.script
  targets : here.2.interpreter.targets = there.2.interpreter.targets
  pc : here.2.interpreter.pc = there.2.interpreter.pc
  phase : here.2.interpreter.phase = there.2.interpreter.phase
  scene : here.2.interpreter.scene = there.2.interpreter.scene
  pendingChoices :
    here.2.interpreter.pendingChoices = there.2.interpreter.pendingChoices

end Session

namespace Interpreter

variable {stage : Stage} {before after : Interpreter}

theorem Clock.Suspends.run {before after : Clock} {step : Step}
    (suspends : before.Suspends step after) : after.run = before.run := by
  cases suspends <;> rfl

theorem runUntilSuspended_run (stage : Stage) (interpreter : Interpreter) :
    (interpreter.runUntilSuspended stage).2.run = interpreter.run :=
  (runUntilSuspended_suspends stage interpreter).run

theorem Resumes.run {move : Move Wake} (resumes : Resumes before move after) :
    after.run = before.run := by
  cases resumes with
  | @select index offset options option =>
      let noted := before.note (.choiceSelected index option.text)
      have signalled := congrArg Clock.run (passSignal_staged option noted).clock
      exact (congrArg Clock.run (goWhereItLeads_passed offset option _).clock).trans signalled
  | _ => rfl

theorem makeMove_run (stage : Stage) (move : Move Wake) (interpreter : Interpreter) :
    (interpreter.makeMove stage move).2.run = interpreter.run := by
  rcases outcome : interpreter.makeMove stage move with ⟨answer, after⟩
  cases moved_of_eq outcome with
  | ignored unchanged => exact congrArg (·.run) unchanged.toMachine
  | @resumed _ ready resumes => exact (runUntilSuspended_run stage ready).trans resumes.run
  | revealed running ticked apart unchanged => exact congrArg (·.run) unchanged.toMachine
  | _ => rfl

theorem perform_run (stage : Stage) (operation : Operation) (interpreter : Interpreter) :
    interpreter.run ≤ (interpreter.perform stage operation).2.run := by
  cases operation with
  | start script =>
      have kept : (interpreter.start stage script).2.run = interpreter.run + 1 :=
        runUntilSuspended_run stage _
      exact kept ▸ Nat.le_succ _
  | restore script save =>
      cases outcome : save.step? script with
      | error refusal =>
          simp only [perform, Prod.map_snd, id_eq, restore_refused interpreter outcome]
          exact Nat.le_refl _
      | ok step =>
          have shown := replay_shown (interpreter.putBack script save) stage
          have kept : ((interpreter.putBack script save).replay stage).run =
              interpreter.run + 1 := congrArg Clock.run shown.clock
          simp only [perform, Prod.map_snd, id_eq, restore_eq interpreter outcome, kept]
          exact Nat.le_succ _
  | move move => exact Nat.le_of_eq (makeMove_run stage move interpreter).symm

theorem Clock.Serves.wake_run {before after : Clock} {answer : Answer} {wake : Wake}
    (serves : before.Serves answer after) (handed : answer.wake? = some wake) :
    wake.run = after.run := by
  cases serves with
  | nothing silent => cases silent.symm.trans handed
  | waits silent => cases silent.symm.trans handed
  | runs later poised suspends => cases suspends <;> cases handed <;> rfl
  | shows time live revealing settling waited =>
      cases handed
      unfold Clock.live at waited
      split at waited
      · simp only [settling, Option.map_eq_some_iff] at waited
        obtain ⟨-, -, rfl⟩ := waited
        rfl
      · cases waited

theorem makeMove_otherRun {wake : Wake} {interpreter : Interpreter}
    (other : wake.run ≠ interpreter.run) (stage : Stage) :
    interpreter.makeMove stage (.wake wake) =
      (.step .ignored, interpreter.note (.staleWake wake interpreter.phase)) := by
  simp only [makeMove, Interpreter.wake, other, ne_eq, not_false_eq_true, true_or, ↓reduceIte]
  rfl

def bygone (interpreter : Interpreter) : Past :=
  ⟨interpreter.run, interpreter.timers, interpreter.reveal.generation, [], interpreter.history⟩

theorem begin_bygone (script : Script) (interpreter : Interpreter) :
    interpreter.begin script = interpreter.bygone.interpreter (fresh.begin script) := by
  have history : (interpreter.begin script).history =
      (interpreter.bygone.interpreter (fresh.begin script)).history := by
    apply Array.toList_inj.mp
    simp only [begin, reset, note, Past.interpreter, fresh, Array.toList_push, Array.toList_append,
      Array.toList_map]
    simp [bygone, Past.event, Past.note, Machine.fresh]
  exact congrArg₂ Interpreter.mk rfl history

theorem start_bygone (stage : Stage) (script : Script) (interpreter : Interpreter) :
    interpreter.perform stage (.start script) =
      (fresh.perform (interpreter.bygone.stage stage) (.start script)).map
        interpreter.bygone.answer interpreter.bygone.interpreter := by
  have started := runUntilSuspended_past interpreter.bygone stage (fresh.begin script)
  rw [← begin_bygone, ← start_eq, ← start_eq] at started
  simp only [perform, started]
  rfl

end Interpreter

namespace Session

open Interpreter

theorem Reached.run_le {stage : Stage} {session : Session} (reached : Reached stage session) :
    session.interpreter.clock.Timely ∧
      ∀ wake ∈ session.issues.map (·.wake), wake.run ≤ session.interpreter.run := by
  induction reached with
  | fresh => exact ⟨Clock.timely_fresh, nofun⟩
  | @perform session operation _ ih =>
      obtain ⟨timely, bounded⟩ := ih
      have serves := perform_serves stage operation timely
      have later := perform_run stage operation session.interpreter
      refine ⟨serves.timely timely, fun wake member => ?_⟩
      -- The counter never goes back, and what is handed out now is of the current run.
      simp only [take, List.map_append] at member
      rcases List.mem_append.mp member with earlier | new
      · exact Nat.le_trans (bounded wake earlier) later
      · rcases handed : (session.interpreter.perform stage operation).1.wake? with _ | issued
        · simp [handed] at new
        · rw [handed] at new
          cases List.mem_singleton.mp new
          exact Nat.le_of_eq (serves.wake_run handed)
  | takeDiagnostics _ ih => exact ih

/-- Here the run goes on after the past, there on its own. Here more may have been noted. -/
structure Trails (past : Past) (here there : Session) : Prop where
  alike : Alike here.interpreter (past.interpreter there.interpreter)
  wakes : here.issues.map (·.wake) = (there.issues.map past.issue).map (·.wake)
  run : there.interpreter.run = 1

namespace Trails

variable {past : Past} {here there : Session}

theorem take (trails : Trails past here there) {answer : Answer} {after after' : Interpreter}
    (alike : Alike after (past.interpreter after')) (run : after'.run = 1) :
    Trails past (here.take (past.answer answer, after)) (there.take (answer, after')) := by
  refine ⟨alike, ?_, run⟩
  simp only [Session.take, List.map_append, trails.wakes, Past.wake?_answer]
  cases answer.wake? <;> rfl

theorem makeMove (trails : Trails past here there) (stage : Stage) (move : Move Nat) :
    (here.makeMove stage move).1 = past.answer (there.makeMove (past.stage stage) move).1 ∧
      Trails past (here.makeMove stage move).2 (there.makeMove (past.stage stage) move).2 := by
  -- The wake of a number here is that of the same number there, counted on from the past.
  have named : (fun k : Nat => here.issues[k]?.map (·.wake)) =
      fun k => (there.issues.map past.issue)[k]?.map (·.wake) := by
    funext k
    rw [← List.getElem?_map, trails.wakes, List.getElem?_map]
  unfold Session.makeMove
  rw [named, lookUp_past]
  cases found : move.lookUp fun k => there.issues[k]?.map (·.wake) with
  | none => exact ⟨rfl, trails⟩
  | some move =>
      have moved := trails.alike.makeMove stage (past.move move)
      rw [Interpreter.makeMove_past] at moved
      have run := makeMove_run (past.stage stage) move there.interpreter
      simp only [Option.map_some]
      generalize there.interpreter.makeMove (past.stage stage) move = outcome at moved run
      generalize here.interpreter.makeMove stage (past.move move) = outcome' at moved
      obtain ⟨answer, after⟩ := outcome'
      obtain ⟨answers, alike⟩ := moved
      cases answers
      exact ⟨rfl, trails.take alike (run.trans trails.run)⟩

theorem deliver (trails : Trails past here there) (stage : Stage) {wake : Wake}
    (before : wake.run ≤ past.run) :
    (Session.deliver stage wake here).1 = .step .ignored ∧
      Trails past (Session.deliver stage wake here).2 there := by
  have run : here.interpreter.run = past.run + 1 :=
    (congrArg (·.run) trails.alike.machine).trans (congrArg (past.run + ·) trails.run)
  have other : wake.run ≠ here.interpreter.run := by omega
  have ignored := makeMove_otherRun other stage
  refine ⟨congrArg Prod.fst ignored, ?_, ?_, trails.run⟩
  · simp only [Session.deliver, ignored]
    exact (Alike.note _ _).symm.trans trails.alike
  · simp only [Session.deliver, ignored, ← trails.wakes]
    exact congrArg (List.map _) (List.append_nil _)

end Trails

theorem takeTurns_trails {past : Past} {wakes : List Wake} (stage : Stage)
    (stale : ∀ wake ∈ wakes, wake.run ≤ past.run) (turns : List (Turn { wake // wake ∈ wakes }))
    {here there : Session} (trails : Trails past here there) :
    let here := here.takeTurns stage (fun wake => Session.deliver stage wake.1) turns
    let there := there.takeTurns (past.stage stage) (fun _ => Session.ignore) turns
    here.1.map Answer.anonymous = there.1.map Answer.anonymous ∧ Trails past here.2 there.2 := by
  induction turns generalizing here there with
  | nil => exact ⟨rfl, trails⟩
  | cons turn turns ih =>
      cases turn with
      | move move =>
          obtain ⟨answers, later⟩ := trails.makeMove stage move
          obtain ⟨rest, final⟩ := ih later
          refine ⟨?_, final⟩
          simp only [takeTurns, List.map_cons, answers, Past.anonymous_answer, rest]
      | late wake =>
          obtain ⟨ignored, later⟩ := trails.deliver stage (stale wake.1 wake.2)
          obtain ⟨rest, final⟩ := ih later
          refine ⟨?_, final⟩
          simp only [takeTurns, List.map_cons, ignored, rest]
          rfl

theorem newRun_trails {wakes : List Wake} (stage : Stage) (script : Script)
    (interpreter : Interpreter) (stale : ∀ wake ∈ wakes, wake.run ≤ interpreter.run)
    (turns : List (Turn { wake // wake ∈ wakes })) :
    let here := newRun stage script (fun wake => Session.deliver stage wake.1) turns interpreter
    let there := newRun (interpreter.bygone.stage stage) script (fun _ => Session.ignore) turns
      .fresh
    here.1.map Answer.anonymous = there.1.map Answer.anonymous ∧
      Trails interpreter.bygone here.2 there.2 := by
  let past := interpreter.bygone
  let begun := Interpreter.fresh.perform (past.stage stage) (.start script)
  have started : interpreter.perform stage (.start script) =
      begun.map past.answer past.interpreter := start_bygone stage script interpreter
  have run : begun.2.run = 1 :=
    runUntilSuspended_run (past.stage stage) (Interpreter.fresh.begin script)
  have trails : Trails past (take (begun.map past.answer past.interpreter) ⟨interpreter, []⟩)
      (take begun ⟨.fresh, []⟩) := by
    refine ⟨Alike.refl _, ?_, run⟩
    simp only [take, Prod.map_fst, Past.wake?_answer]
    cases begun.1.wake? <;> rfl
  obtain ⟨rest, final⟩ := takeTurns_trails stage stale turns trails
  simp only [newRun, started]
  refine ⟨?_, final⟩
  simp only [List.map_cons, rest, Prod.map_fst, Past.anonymous_answer]
  rfl

theorem Trails.sameRun {interpreter : Interpreter} {here there : List Answer × Session}
    (answers : here.1.map Answer.anonymous = there.1.map Answer.anonymous)
    (trails : Trails interpreter.bygone here.2 there.2) :
    SameRun interpreter.cues here there := by
  have machine := trails.alike.machine
  exact {
    answers := answers
    cues := trails.alike.cues.trans (Past.cues_interpreter ..)
    diagnostics := congrArg (·.diagnostics) machine
    script := congrArg (·.script) machine
    targets := congrArg (·.targets) machine
    pc := congrArg (·.pc) machine
    phase := congrArg (·.phase) machine
    scene := congrArg (·.scene) machine
    pendingChoices := (congrArg Machine.pendingChoices machine).trans rfl }

/-- Whatever was done before, a new run goes as it goes on a new interpreter, if the stage answers
alike. -/
theorem new_run_independent {stage : Stage} {playback : Playback} {earlier : Session}
    (reached : Reached stage earlier)
    (sameAnswers : ∀ later, stage.playback (earlier.interpreter.cues ++ later) = playback later)
    (script : Script) (turns : List (Turn { wake // wake ∈ earlier.issues.map (·.wake) })) :
    SameRun earlier.interpreter.cues
      (newRun stage script (fun wake => deliver stage wake.1) turns earlier.interpreter)
      (newRun { stage with playback } script (fun _ => ignore) turns .fresh) := by
  have stages : earlier.interpreter.bygone.stage stage = { stage with playback } :=
    congrArg (fun playback => { stage with playback }) (funext sameAnswers)
  obtain ⟨answers, trails⟩ :=
    newRun_trails stage script earlier.interpreter reached.run_le.2 turns
  rw [stages] at answers trails
  exact trails.sameRun answers

theorem new_run_independent_mid_pause :
    let stage : Stage := ⟨{}, .standard, .accepting⟩
    let script : Script := ⟨[.wait none, .say none "Hi"]⟩
    let earlier := Session.fresh.take (Session.fresh.interpreter.perform stage (.start script))
    Reached stage earlier ∧
      (∀ later, stage.playback (earlier.interpreter.cues ++ later) = Playback.accepting later) ∧
      ∃ pause : { wake // wake ∈ earlier.issues.map (·.wake) }, pause.1 = ⟨1, .settle 1⟩ ∧
        SameRun earlier.interpreter.cues
          (newRun stage script (fun wake => deliver stage wake.1)
            [.late pause, .move (.wake 0)] earlier.interpreter)
          (newRun { stage with playback := .accepting } script (fun _ => ignore)
            [.late pause, .move (.wake 0)] .fresh) := by
  intro stage script earlier
  have reached : Reached stage earlier := .perform (.start script) .fresh
  have pause : ⟨1, .settle 1⟩ ∈ earlier.issues.map (·.wake) := .head _
  have sameAnswers (later : List Cue) :
      stage.playback (earlier.interpreter.cues ++ later) = Playback.accepting later := rfl
  clear_value earlier
  have independent := new_run_independent reached sameAnswers script
    [.late ⟨_, pause⟩, .move (.wake 0)]
  exact ⟨reached, sameAnswers, ⟨_, pause⟩, rfl, independent⟩

end Session

end VisualNovel
