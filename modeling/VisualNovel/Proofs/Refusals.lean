import VisualNovel.Proofs.Alike
import VisualNovel.Proofs.Rehearsing
import VisualNovel.Proofs.Waiting

namespace VisualNovel

/-- A signal was ignored, or a request refused. -/
def Answer.Declines : Answer → Prop
  | .step handed => handed = .ignored
  | .refusal _ => True
  | .nothing => False

namespace Interpreter

section Operations

variable {stage : Stage} {before after : Interpreter}

theorem Moved.alike {move : Move Wake} {answer : Answer}
    (moved : Moved stage before move answer after) (declines : answer.Declines) :
    Alike before after := by
  cases moved with
  | ignored unchanged => exact .of_unchanged unchanged
  | refused awaiting => exact .note _ _
  | @resumed _ ready resumes =>
      exact absurd declines (runUntilSuspended_suspends stage ready).ne_ignored
  | _ => cases declines

theorem start_answered (stage : Stage) (script : Script) (interpreter : Interpreter) :
    (interpreter.start stage script).1 ≠ .ignored :=
  (runUntilSuspended_suspends stage _).ne_ignored

theorem restore_answered {script : Script} {save : SavePoint} {step : Step}
    (accepted : save.step? script = .ok step) : step ≠ .ignored := by
  rintro rfl
  cases (SavePoint.step?_ok_iff.mp accepted).2.2

theorem perform_alike (operation : Operation)
    (declines : (before.perform stage operation).1.Declines) :
    Alike before (before.perform stage operation).2 := by
  cases operation with
  | start script => exact absurd declines (start_answered stage script before)
  | restore script save =>
      cases outcome : save.step? script with
      | error refusal =>
          simp only [perform, Prod.map_snd, id_eq, restore_refused before outcome]
          exact .refl _
      | ok step =>
          simp only [perform, Prod.map_fst, restore_eq before outcome] at declines
          exact absurd declines (restore_answered outcome)
  | move move => exact (moved stage before move).alike declines

end Operations

section Signals

variable (stage : Stage) {interpreter : Interpreter}

theorem advance_ignored_iff :
    (interpreter.advance stage).1 = .ignored ↔ interpreter.phase ≠ .awaitingAdvance := by
  unfold advance
  split
  · next awaiting =>
      have answered := (runUntilSuspended_suspends stage
        { interpreter with phase := .running }).ne_ignored
      exact iff_of_false answered (not_not_intro awaiting)
  · next elsewhere => exact iff_of_true rfl elsewhere

theorem select_asked (placed : Placed interpreter)
    (awaiting : interpreter.phase = .awaitingChoice) :
    ∃ options, interpreter.pendingChoices = some options ∧ ∀ index,
      (index < options.length ∧
        ∃ step, (interpreter.select stage index).1 = .ok step ∧ step ≠ .ignored) ∨
      (options.length ≤ index ∧
        (interpreter.select stage index).1 = .error (.choiceOutOfRange index options.length)) := by
  obtain ⟨offset, options, asked, found, -⟩ := placed.choice awaiting
  refine ⟨options, pendingChoices_eq awaiting asked found, fun index => ?_⟩
  rcases Nat.lt_or_ge index options.length with inside | outside
  · obtain ⟨step, after, answered, solid⟩ :=
      (select_answered_iff awaiting asked found stage index).mpr inside
    exact .inl ⟨inside, step, congrArg Prod.fst answered, solid⟩
  · have missing : options[index]? = none := List.getElem?_eq_none_iff.mpr outside
    have refused := select_none awaiting asked found stage missing
    exact .inr ⟨outside, congrArg Prod.fst refused⟩

theorem select_ignored_iff (placed : Placed interpreter) (index : Nat) :
    (interpreter.select stage index).1 = .ok .ignored ↔ interpreter.phase ≠ .awaitingChoice := by
  constructor
  · intro ignored awaiting
    obtain ⟨options, -, answers⟩ := select_asked stage placed awaiting
    rcases answers index with ⟨-, step, taken, solid⟩ | ⟨-, refused⟩
    · exact solid (Except.ok.inj (taken.symm.trans ignored))
    · cases ignored.symm.trans refused
  · intro elsewhere
    unfold select
    rw [if_neg elsewhere]

theorem select_taken_iff (placed : Placed interpreter)
    (awaiting : interpreter.phase = .awaitingChoice) :
    ∃ options, interpreter.pendingChoices = some options ∧ ∀ index,
      ((∃ step, (interpreter.select stage index).1 = .ok step) ↔ index < options.length) ∧
      (options.length ≤ index → (interpreter.select stage index).1 =
        .error (.choiceOutOfRange index options.length)) := by
  obtain ⟨options, pending, answers⟩ := select_asked stage placed awaiting
  refine ⟨options, pending, fun index => ?_⟩
  rcases answers index with ⟨inside, step, taken, -⟩ | ⟨outside, refused⟩
  · exact ⟨iff_of_true ⟨step, taken⟩ inside,
      fun outside => absurd inside (Nat.not_lt.mpr outside)⟩
  · refine ⟨iff_of_false ?_ (Nat.not_lt.mpr outside), fun _ => refused⟩
    rintro ⟨step, taken⟩
    cases taken.symm.trans refused

end Signals

/-- Reached by any operations, whatever was restored, and though the diagnostics may have been
taken at any time. -/
inductive InUse (stage : Stage) : Interpreter → Prop where
  | fresh : InUse stage .fresh
  | perform {interpreter : Interpreter} (operation : Operation) : InUse stage interpreter →
      InUse stage (interpreter.perform stage operation).2
  | takeDiagnostics {interpreter : Interpreter} : InUse stage interpreter →
      InUse stage interpreter.takeDiagnostics.2

theorem InUse.placed {stage : Stage} {interpreter : Interpreter}
    (inUse : InUse stage interpreter) : Placed interpreter := by
  induction inUse with
  | fresh =>
      have begins : Reachable stage .fresh := .fresh
      exact begins.placed
  | perform operation _ placed => exact perform_placed stage operation placed
  | takeDiagnostics _ placed => exact ⟨⟨placed.targets, placed.pc⟩, placed.choice⟩

end Interpreter

namespace Rehearsal

open Interpreter

variable {stage : Stage} {rehearsal after : Rehearsal} {index : Nat} {refusal : Refusal}

structure Undisturbed (before after : Rehearsal) : Prop where
  interpreter : Alike before.interpreter after.interpreter
  now : after.now = before.now
  pending : after.pending = before.pending
  last : after.last = before.last

theorem select_refused (refused : rehearsal.select stage index = (.error refusal, after)) :
    Undisturbed rehearsal after := by
  rcases outcome : rehearsal.interpreter.select stage index with ⟨result, interpreter⟩
  cases result with
  | ok step =>
      simp only [Rehearsal.select, outcome] at refused
      cases refused
  | error reason =>
      have made : rehearsal.interpreter.makeMove stage (.select index) =
          (.refusal reason, interpreter) := by
        simp only [makeMove, outcome, Prod.map_apply, id_eq, Answer.ofResult]
      simp only [Rehearsal.select, outcome] at refused
      cases refused
      exact ⟨(moved_of_eq made).alike trivial, rfl, rfl, rfl⟩

theorem chooseAndRun_refused_iff :
    rehearsal.chooseAndRun stage index = some (.error refusal, after) ↔
      rehearsal.select stage index = (.error refusal, after) := by
  rcases outcome : rehearsal.select stage index with ⟨result, selected⟩
  cases result with
  | error reason => simp [chooseAndRun, outcome]
  | ok step => cases step <;> simp [chooseAndRun, outcome]

end Rehearsal

namespace Interpreter

/-- Whatever is ignored or refused changes nothing but the journal. -/
theorem declined_unchanged {stage : Stage} {interpreter : Interpreter}
    (inUse : InUse stage interpreter) :
    (∀ operation, (interpreter.perform stage operation).1.Declines →
      Alike interpreter (interpreter.perform stage operation).2) ∧
    ((interpreter.advance stage).1 = .ignored ↔ interpreter.phase ≠ .awaitingAdvance) ∧
    (∀ index, (interpreter.select stage index).1 = .ok .ignored ↔
      interpreter.phase ≠ .awaitingChoice) ∧
    (interpreter.phase = .awaitingChoice → ∃ options,
      interpreter.pendingChoices = some options ∧ ∀ index,
        ((∃ step, (interpreter.select stage index).1 = .ok step) ↔ index < options.length) ∧
        (options.length ≤ index → (interpreter.select stage index).1 =
          .error (.choiceOutOfRange index options.length))) ∧
    ∀ (rehearsal after : Rehearsal) (index : Nat) (refusal : Refusal),
      (rehearsal.chooseAndRun stage index = some (.error refusal, after) ↔
        rehearsal.select stage index = (.error refusal, after)) ∧
      (rehearsal.select stage index = (.error refusal, after) →
        rehearsal.Undisturbed after) := by
  have placed := inUse.placed
  refine ⟨fun operation => perform_alike operation, advance_ignored_iff stage,
    select_ignored_iff stage placed, select_taken_iff stage placed,
    fun rehearsal after index refusal => ?_⟩
  exact ⟨Rehearsal.chooseAndRun_refused_iff, Rehearsal.select_refused⟩

theorem declined_unchanged_at_choice :
    let stage : Stage := ⟨{}, .standard, .accepting⟩
    let script : Script := ⟨[.choice [⟨"Left", none, none⟩]]⟩
    let interpreter := (fresh.start stage script).2
    let rehearsal := Rehearsal.ofInterpreter interpreter
    InUse stage interpreter ∧ (interpreter.advance stage).1 = .ignored ∧
      (interpreter.select stage 1).1 = .error (.choiceOutOfRange 1 1) ∧
      Alike interpreter (interpreter.perform stage (.move (.select 1))).2 ∧
      ∃ after, rehearsal.chooseAndRun stage 1 = some (.error (.choiceOutOfRange 1 1), after) ∧
        rehearsal.Undisturbed after := by
  intro stage script interpreter rehearsal
  have inUse : InUse stage interpreter := .perform (.start script) .fresh
  have awaiting : interpreter.phase = .awaitingChoice := rfl
  have pending : interpreter.pendingChoices = some [⟨"Left", none, none⟩] := rfl
  obtain ⟨alike, ignored, -, asked, rehearsed⟩ := declined_unchanged inUse
  obtain ⟨options, same, answers⟩ := asked awaiting
  cases same.symm.trans pending
  have refused := (answers 1).2 (Nat.le_refl 1)
  have declines : (interpreter.perform stage (.move (.select 1))).1.Declines := trivial
  obtain ⟨chosen, undisturbed⟩ := rehearsed rehearsal _ 1 (.choiceOutOfRange 1 1)
  exact ⟨inUse, ignored.mpr (by simp [awaiting]), refused, alike _ declines,
    _, chosen.mpr rfl, undisturbed rfl⟩

end Interpreter

end VisualNovel
