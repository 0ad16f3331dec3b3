import VisualNovel.Proofs.Overlay
import VisualNovel.Proofs.Standing

/-!
What the reader is waited for. A choice that is pending has options from which to select, unless a
save point that waits at a choice without options was restored; and a line that is shown to its end
is waited at, unless a choice without options follows it.

Main statements: `pending_choice_answerable` and `finished_line_read`.
-/

namespace VisualNovel

def Session.perform (stage : Stage) (session : Session) (operation : Operation) : Session :=
  session.take (session.interpreter.perform stage operation)

namespace Interpreter

section Select

variable {interpreter : Interpreter} {offset : Nat} {options : List ChoiceOption}
  (awaiting : interpreter.phase = .awaitingChoice) (asked : interpreter.choiceAt = some offset)
  (found : interpreter.script.get? offset = some (.choice options))
include awaiting asked found

theorem pendingChoices_eq : interpreter.pendingChoices = some options := by
  simp only [Machine.pendingChoices, asked, Option.bind_some, found, awaiting, ↓reduceIte]

theorem select_some (stage : Stage) {index : Nat} {option : ChoiceOption}
    (selected : options[index]? = some option) :
    ∃ step after, interpreter.select stage index = (.ok step, after) ∧ step ≠ .ignored := by
  let chosen := (interpreter.note (.choiceSelected index option.text)).chosen offset option
  exact ⟨_, (chosen.runUntilSuspended stage).2, select_eq awaiting asked found selected stage,
    (runUntilSuspended_suspends stage chosen).ne_ignored⟩

theorem select_none (stage : Stage) {index : Nat} (missing : options[index]? = none) :
    interpreter.select stage index = (.error (.choiceOutOfRange index options.length),
      interpreter.note (.choiceOutOfRange index offset options.length)) := by
  simp only [select, awaiting, asked, found, missing, ↓reduceIte]

theorem select_answered_iff (stage : Stage) (index : Nat) :
    (∃ step after, interpreter.select stage index = (.ok step, after) ∧ step ≠ .ignored) ↔
      index < options.length := by
  cases selected : options[index]? with
  | none =>
      have outside := List.getElem?_eq_none_iff.mp selected
      refine iff_of_false ?_ (Nat.not_lt.mpr outside)
      rintro ⟨step, after, answered, -⟩
      rw [select_none awaiting asked found stage selected] at answered
      cases answered
  | some option =>
      have inside := (List.getElem?_eq_some_iff.mp selected).1
      exact iff_of_true (select_some awaiting asked found stage selected) inside

end Select

theorem pendingChoices_of_phase {machine : Machine} (elsewhere : machine.phase ≠ .awaitingChoice) :
    machine.pendingChoices = none := by
  unfold Machine.pendingChoices
  split
  · rw [if_neg elsewhere]
  · rfl

variable {stage : Stage} {interpreter : Interpreter}

theorem runUntilSuspended_offers (running : interpreter.phase = .running) :
    (interpreter.runUntilSuspended stage).2.pendingChoices ≠ some [] := by
  have elsewhere {next : Interpreter} {phase : Phase} (same : next.phase = phase)
      (other : phase ≠ .awaitingChoice) : next.pendingChoices ≠ some [] := by
    rw [pendingChoices_of_phase (same ▸ other)]
    exact nofun
  apply runUntilSuspended_rule (fun next => next.phase = .running)
    (fun _ next => next.pendingChoices ≠ some []) interpreter running
  · intro next instruction flow after running found outcome
    cases executed_of_eq outcome with
    | passed passes passed => exact (phase_of_clock passed.clock).trans running
    | @settling _ staged time settles same =>
        have phase : staged.phase = .running := (phase_of_clock same.clock).trans running
        exact elsewhere phase (by simp)
    | revealing speaker text name time => exact elsewhere running (by simp)
    | presenting options nonempty =>
        intro barren
        refine nonempty (Option.some.inj (Eq.trans (Eq.symm ?_) barren))
        exact pendingChoices_eq rfl rfl found
    | finishing endText => exact elsewhere rfl (by simp)
  · intro next running missing
    exact elsewhere rfl (by simp)
  · intro offset next running
    exact elsewhere rfl (by simp)

theorem makeMove_barren {move : Move Wake}
    (barren : (interpreter.makeMove stage move).2.pendingChoices = some []) :
    interpreter.pendingChoices = some [] := by
  rcases outcome : interpreter.makeMove stage move with ⟨answer, after⟩
  rw [outcome] at barren
  cases moved_of_eq outcome with
  | ignored unchanged => rwa [unchanged.toMachine] at barren
  | refused awaiting => exact barren
  | resumed resumes => exact absurd barren (runUntilSuspended_offers resumes.running)
  | revealing running ticked => exact barren
  | revealed running ticked apart unchanged =>
      rw [pendingChoices_of_phase (by simp)] at barren
      cases barren
  | stopped running =>
      rw [pendingChoices_of_phase (by simp)] at barren
      cases barren
  | rested resting => exact barren

theorem restore_barren {script : Script} {save : SavePoint}
    (barren : (interpreter.restore stage script save).2.pendingChoices = some []) :
    interpreter.pendingChoices = some [] ∨ save.pendingChoices script = some [] := by
  cases outcome : save.step? script with
  | error refusal =>
      rw [restore_refused interpreter outcome] at barren
      exact .inl barren
  | ok step =>
      rw [restore_eq interpreter outcome, (replay_shown ..).pendingChoices] at barren
      exact .inr barren

theorem perform_barren {operation : Operation}
    (barren : (interpreter.perform stage operation).2.pendingChoices = some []) :
    interpreter.pendingChoices = some [] ∨
      ∃ script save, operation = .restore script save ∧ save.pendingChoices script = some [] := by
  cases operation with
  | start script => exact absurd barren (runUntilSuspended_offers rfl)
  | restore script save =>
      simp only [perform, Prod.map_snd, id_eq] at barren
      exact (restore_barren barren).imp id fun barren => ⟨script, save, rfl, barren⟩
  | move move => exact .inl (makeMove_barren barren)

theorem foldl_reachable (operations : List Operation) {session : Session}
    (reachable : Reachable stage session.interpreter) :
    Reachable stage (operations.foldl (Session.perform stage) session).interpreter := by
  induction operations generalizing session with
  | nil => exact reachable
  | cons operation operations ih => exact ih (reachable.perform operation)

theorem foldl_barren (operations : List Operation) {session : Session}
    (barren : (operations.foldl (Session.perform stage) session).interpreter.pendingChoices =
      some []) :
    session.interpreter.pendingChoices = some [] ∨
      ∃ script save, Operation.restore script save ∈ operations ∧
        save.pendingChoices script = some [] := by
  induction operations generalizing session with
  | nil => exact .inl barren
  | cons operation operations ih =>
      rcases ih barren with first | ⟨script, save, restored, damaged⟩
      · rcases perform_barren first with earlier | ⟨script, save, rfl, damaged⟩
        · exact .inl earlier
        · exact .inr ⟨script, save, List.mem_cons_self, damaged⟩
      · exact .inr ⟨script, save, List.mem_cons_of_mem _ restored, damaged⟩

/-- A run that waits for a choice has just passed it, and the options that it has can be selected.
It has at least one unless a save point was restored that waits at a choice without options. -/
theorem pending_choice_answerable (stage : Stage) (operations : List Operation) :
    let interpreter := (Session.afterOperations stage operations).interpreter
    interpreter.phase = .awaitingChoice → ∃ offset options,
      interpreter.choiceAt = some offset ∧ interpreter.pc = offset + 1 ∧
      interpreter.pendingChoices = some options ∧
      (∀ index, (∃ step after, interpreter.select stage index = (.ok step, after) ∧
        step ≠ .ignored) ↔ index < options.length) ∧
      (options = [] → ∃ script save, Operation.restore script save ∈ operations ∧
        save.pendingChoices script = some []) := by
  intro interpreter awaiting
  have placed : Placed interpreter := (foldl_reachable operations .fresh).placed
  obtain ⟨offset, options, asked, found, pc⟩ := placed.choice awaiting
  have pending := pendingChoices_eq awaiting asked found
  refine ⟨offset, options, asked, pc, pending,
    select_answered_iff awaiting asked found stage, fun none => ?_⟩
  refine (foldl_barren operations (none ▸ pending)).resolve_left ?_
  exact nofun

theorem afterOperations_singleton (stage : Stage) (operation : Operation) :
    (Session.afterOperations stage [operation]).interpreter = (fresh.perform stage operation).2 :=
  rfl

theorem afterRestore_shown (stage : Stage) {script : Script} {save : SavePoint} {step : Step}
    (accepted : save.step? script = .ok step) :
    Shown (fresh.putBack script save)
      (Session.afterOperations stage [.restore script save]).interpreter := by
  rw [afterOperations_singleton]
  simp only [perform, Prod.map_snd, id_eq, restore_eq fresh accepted]
  exact replay_shown ..

theorem pending_choice_answerable_restored :
    let stage : Stage := ⟨{}, .standard, .accepting⟩
    let script : Script := ⟨[.choice [⟨"Left", none, none⟩]]⟩
    let save : SavePoint := ⟨script.fingerprint, 1, .awaitingChoice, .blank, some 0⟩
    let interpreter := (Session.afterOperations stage [.restore script save]).interpreter
    interpreter.phase = .awaitingChoice ∧ interpreter.pendingChoices ≠ some [] ∧
      ∃ step after, interpreter.select stage 0 = (.ok step, after) ∧ step ≠ .ignored := by
  intro stage script save interpreter
  have accepted : save.step? script = .ok .awaitChoice :=
    SavePoint.step?_ok_iff.mpr ⟨rfl, Nat.le_refl 1, .choice 0 _ rfl rfl rfl rfl⟩
  have shown : Shown _ interpreter := afterRestore_shown stage accepted
  have awaiting : interpreter.phase = .awaitingChoice := phase_of_clock shown.clock
  have options : interpreter.pendingChoices = some [⟨"Left", none, none⟩] :=
    shown.pendingChoices.trans rfl
  obtain ⟨offset, found, -, -, pending, answered, -⟩ :=
    pending_choice_answerable stage [.restore script save] awaiting
  have same : found = [⟨"Left", none, none⟩] := Option.some.inj (pending.symm.trans options)
  rw [same] at answered
  exact ⟨awaiting, by simp [options], (answered 0).mpr Nat.one_pos⟩

/-- No answer is possible once a choice without options is restored. -/
theorem restored_choice_unanswerable :
    let stage : Stage := ⟨{}, .standard, .accepting⟩
    let script : Script := ⟨[.choice []]⟩
    let save : SavePoint := ⟨script.fingerprint, 1, .awaitingChoice, .blank, some 0⟩
    let interpreter := (Session.afterOperations stage [.restore script save]).interpreter
    interpreter.phase = .awaitingChoice ∧ interpreter.pendingChoices = some [] ∧
      ¬∃ index step after, interpreter.select stage index = (.ok step, after) ∧
        step ≠ .ignored := by
  intro stage script save interpreter
  have accepted : save.step? script = .ok .awaitChoice :=
    SavePoint.step?_ok_iff.mpr ⟨rfl, Nat.le_refl 1, .choice 0 _ rfl rfl rfl rfl⟩
  have shown : Shown _ interpreter := afterRestore_shown stage accepted
  have awaiting : interpreter.phase = .awaitingChoice := phase_of_clock shown.clock
  have found : interpreter.script.get? 0 = some (.choice []) := by
    rw [shown.script]
    rfl
  refine ⟨awaiting, pendingChoices_eq awaiting shown.choiceAt found, ?_⟩
  rintro ⟨index, answered⟩
  have inside := (select_answered_iff awaiting shown.choiceAt found stage index).mp answered
  exact Nat.not_lt_zero index inside

theorem runUntilSuspended_yield {instruction : Instruction} {step : Step} {next : Interpreter}
    (found : interpreter.script.get? interpreter.pc = some instruction)
    (yields : (interpreter.fetch instruction).execute stage interpreter.pc instruction =
      (.yield step, next)) :
    interpreter.runUntilSuspended stage = (step, next) := by
  unfold runUntilSuspended
  cases interpreter.script.length <;> simp only [runWithin, dispatch_some found, yields]

theorem runUntilSuspended_presents (stage : Stage) {options : List ChoiceOption}
    (found : interpreter.script.get? interpreter.pc = some (.choice options))
    (nonempty : options ≠ []) :
    let after := (interpreter.runUntilSuspended stage).2
    after.phase = .awaitingChoice ∧ after.scene = interpreter.scene ∧
      after.cues = interpreter.cues ++ [.renderChoices (options.map (·.text))] := by
  intro after
  cases options with
  | nil => exact absurd rfl nonempty
  | cons option options =>
      have presented : interpreter.runUntilSuspended stage = (.awaitChoice, _) :=
        runUntilSuspended_yield found rfl
      let fetched := interpreter.fetch (.choice (option :: options))
      let noted := fetched.note (.presentingChoices (option :: options).length interpreter.pc)
      have same : noted.cues = interpreter.cues :=
        (cues_eq_of_history rfl).trans (cues_eq_of_history rfl)
      unfold after
      rw [presented, ← same]
      exact ⟨rfl, rfl, cues_give ..⟩

inductive Completes (interpreter : Interpreter) : Wake → String → Prop where
  | ticks {ticket : Ticket} {shown : String} {offset : Nat} {reveal : Reveal Nat} :
      interpreter.phase = .running →
      interpreter.reveal.tick ticket = (.complete shown offset, reveal) →
      Completes interpreter ⟨interpreter.run, .reveal ticket⟩ shown

namespace Completes

variable {wake : Wake} {text : String} (completes : interpreter.Completes wake text)
include completes

theorem wake_eq (stage : Stage) : ∃ offset reveal,
    interpreter.wake stage wake = (interpreter.tell text reveal).afterReveal stage offset := by
  cases completes with
  | @ticks ticket _ offset reveal running ticked =>
      refine ⟨offset, reveal, ?_⟩
      simp [Interpreter.wake, running, tick, ticked, tell]

theorem line (sound : Sound interpreter) : ∃ offset id speaker,
    interpreter.JustPast offset (.say id text) ∧
      interpreter.scene.dialogue = some ⟨speaker, text⟩ := by
  cases completes with
  | ticks running ticked =>
      obtain ⟨revealing, active, -, rfl⟩ := Reveal.tick_complete ticked
      obtain ⟨id, line, -, -, revealed, past, dialogue, -⟩ := sound.standing.of_active active
      rw [revealed, String.ofList_toList]
      exact ⟨revealing.onComplete, id, line.speaker, past, dialogue⟩

end Completes

/-- The run waits at the line, of which all has been shown since `before`, and at the choice if one
follows. -/
structure Read (before after : Interpreter) (line : Dialogue) : Prop where
  suspended : after.phase.isSuspended
  current : after.scene.dialogue = some line
  cues : ∃ choices, after.cues = before.cues ++ .dialogueText line.text :: choices ∧
    ∀ cue ∈ choices, ∃ texts, cue = .renderChoices texts

theorem afterReveal_read {speaker : Option String} {text : String} (offset : Nat)
    (reveal : Reveal Nat) (dialogue : interpreter.scene.dialogue = some ⟨speaker, text⟩)
    (apart : interpreter.script.get? interpreter.pc ≠ some (.choice [])) :
    Read interpreter ((interpreter.tell text reveal).afterReveal stage offset).2
      ⟨speaker, text⟩ := by
  let told := interpreter.tell text reveal
  have cues : told.cues = interpreter.cues ++ [.dialogueText text] := cues_give ..
  unfold afterReveal
  split
  · next options choice =>
      have nonempty : options ≠ [] := by
        rintro rfl
        exact apart choice
      let noted := told.note (.leadsIntoChoice offset)
      have found : noted.script.get? noted.pc = some (.choice options) := choice
      obtain ⟨phase, scene, given⟩ := runUntilSuspended_presents stage found nonempty
      have same : noted.cues = told.cues := cues_eq_of_history rfl
      constructor
      · rw [phase]
        rfl
      · exact scene ▸ dialogue
      · refine ⟨[.renderChoices (options.map (·.text))], ?_, by simp⟩
        rw [given, same, cues]
        simp
  · refine ⟨rfl, dialogue, [], ?_, nofun⟩
    exact (cues_eq_of_history rfl).trans cues
  · exact ⟨rfl, dialogue, [], cues, nofun⟩

theorem Completes.read {wake : Wake} {text : String} (completes : interpreter.Completes wake text)
    (stage : Stage) (sound : Sound interpreter)
    (apart : interpreter.script.get? interpreter.pc ≠ some (.choice [])) :
    ∃ offset id speaker, interpreter.JustPast offset (.say id text) ∧
      interpreter.scene.dialogue = some ⟨speaker, text⟩ ∧
      Read interpreter (interpreter.wake stage wake).2 ⟨speaker, text⟩ := by
  obtain ⟨said, id, speaker, past, dialogue⟩ := completes.line sound
  obtain ⟨offset, reveal, handled⟩ := completes.wake_eq stage
  rw [handled]
  exact ⟨said, id, speaker, past, dialogue, afterReveal_read offset reveal dialogue apart⟩

theorem afterMoves_sound (stage : Stage) (moves : List (Move Wake)) {interpreter : Interpreter}
    (sound : Sound interpreter) : Sound (interpreter.afterMoves stage moves) := by
  induction moves generalizing interpreter with
  | nil => exact sound
  | cons move moves ih => exact ih (makeMove_sound sound stage move)

/-- When the line of a `say` has been shown to its end the run waits at it, and nothing has taken
its place, unless a choice without options follows. -/
theorem finished_line_read (stage : Stage) (script : Script) (earlier : Interpreter)
    (moves : List (Move Wake)) {wake : Wake} {text : String} :
    let interpreter := (earlier.start stage script).2.afterMoves stage moves
    interpreter.Completes wake text →
    interpreter.script.get? interpreter.pc ≠ some (.choice []) →
    ∃ offset id speaker, interpreter.JustPast offset (.say id text) ∧
      interpreter.scene.dialogue = some ⟨speaker, text⟩ ∧
      Read interpreter (interpreter.wake stage wake).2 ⟨speaker, text⟩ := by
  intro interpreter completes apart
  have sound : Sound interpreter := afterMoves_sound stage moves (start_sound ..)
  exact completes.read stage sound apart

theorem finished_line_read_before_choice :
    let stage : Stage := ⟨{}, .standard, .accepting⟩
    let script : Script := ⟨[.say none "a", .choice [⟨"Left", none, none⟩]]⟩
    let interpreter := (fresh.start stage script).2
    let wake : Wake := ⟨1, .reveal ⟨2⟩⟩
    interpreter.Completes wake "a" ∧
      interpreter.script.get? interpreter.pc ≠ some (.choice []) ∧
      Read interpreter (interpreter.wake stage wake).2 ⟨none, "a"⟩ := by
  intro stage script interpreter wake
  have ticked : interpreter.reveal.tick ⟨2⟩ = (.complete "a" 0, ⟨2, none⟩) := by decide
  have completes : interpreter.Completes wake "a" := .ticks rfl ticked
  have apart : interpreter.script.get? interpreter.pc ≠ some (.choice []) := by decide
  obtain ⟨offset, id, speaker, -, dialogue, read⟩ :=
    finished_line_read stage script fresh [] completes apart
  have narrated : interpreter.scene.dialogue = some ⟨none, "a"⟩ := rfl
  have same : (⟨speaker, "a"⟩ : Dialogue) = ⟨none, "a"⟩ :=
    Option.some.inj (dialogue.symm.trans narrated)
  rw [same] at read
  exact ⟨completes, apart, read⟩

/-- Before a choice without options the line goes unread: the next one takes its place at once. -/
theorem unread_line_before_empty_choice :
    let stage : Stage := ⟨{}, .standard, .accepting⟩
    let script : Script := ⟨[.say none "a", .choice [], .say none "b"]⟩
    let interpreter := (fresh.start stage script).2
    let wake : Wake := ⟨1, .reveal ⟨2⟩⟩
    let after := (interpreter.wake stage wake).2
    interpreter.Completes wake "a" ∧ interpreter.phase = .running ∧ after.phase = .running ∧
      after.scene.dialogue = some ⟨none, "b"⟩ ∧
      after.cues = interpreter.cues ++ [.dialogueText "a", .showDialogue none] := by
  intro stage script interpreter wake after
  have ticked : interpreter.reveal.tick ⟨2⟩ = (.complete "a" 0, ⟨2, none⟩) := by decide
  have completes : interpreter.Completes wake "a" := .ticks rfl ticked
  refine ⟨completes, rfl, by decide, by decide, by decide⟩

end Interpreter

end VisualNovel
