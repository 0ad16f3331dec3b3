import VisualNovel.Proofs.Dicts
import VisualNovel.Proofs.Moves
import VisualNovel.Proofs.Timers

namespace VisualNovel

namespace Targets

theorem enter_label (targets : Targets) (offset : Nat) (id : String) (rest : List Instruction) :
    (enter targets offset (.label id :: rest)).1 =
      (enter (targets.insert id (offset + 1)) (offset + 1) rest).1 := by
  simp only [enter]
  cases targets.get? id <;> rfl

theorem resolve_enter_le {bound : Nat} (instructions : List Instruction) (targets : Targets)
    (offset : Nat) (inside : offset + instructions.length ≤ bound)
    (known : ∀ label target, targets.resolve label = some target → target ≤ bound)
    (label : String) (target : Nat)
    (found : (enter targets offset instructions).1.resolve label = some target) :
    target ≤ bound := by
  -- The targets entered so far are in bounds, whichever labels are still to come.
  induction instructions generalizing targets offset with
  | nil => exact known label target found
  | cons instruction instructions ih =>
      rw [List.length_cons] at inside
      cases instruction with
      | label id =>
          rw [enter_label] at found
          refine ih _ _ (by omega) ?_ found
          intro label target resolved
          rw [resolve, Dict.get?_insert] at resolved
          split at resolved
          · cases resolved
            omega
          · exact known label target resolved
      | _ => exact ih targets (offset + 1) (by omega) known found

theorem resolve_ofScript_le {script : Script} {label : String} {target : Nat}
    (found : (ofScript script).resolve label = some target) : target ≤ script.length :=
  resolve_enter_le script.instructions .empty 0 (Nat.le_of_eq (Nat.zero_add _)) (fun _ _ => nofun)
    label target found

end Targets

theorem Script.lt_length {script : Script} {offset : Nat} {instruction : Instruction}
    (found : script.get? offset = some instruction) : offset < script.length :=
  (List.getElem?_eq_some_iff.mp found).1

namespace Interpreter

/-- The targets are those of the script, and the run is inside it. -/
structure Inside (interpreter : Interpreter) : Prop where
  targets : interpreter.targets = .ofScript interpreter.script
  pc : interpreter.pc ≤ interpreter.script.length

structure Placed (interpreter : Interpreter) : Prop extends Inside interpreter where
  choice : interpreter.phase = .awaitingChoice → ∃ offset options,
    interpreter.choiceAt = some offset ∧
    interpreter.script.get? offset = some (.choice options) ∧ interpreter.pc = offset + 1

namespace Inside

variable {before after : Interpreter}

theorem staged (inside : Inside before) (staged : Staged before after) : Inside after := by
  constructor
  · rw [staged.targets, staged.script, inside.targets]
  · rw [staged.pc, staged.script]
    exact inside.pc

theorem passed (inside : Inside before) (passed : Passed before after) : Inside after := by
  constructor
  · rw [passed.targets, passed.script, inside.targets]
  · rw [passed.script]
    rcases passed.pc with same | ⟨label, resolved⟩
    · rw [same]
      exact inside.pc
    · rw [inside.targets] at resolved
      exact Targets.resolve_ofScript_le resolved

theorem placed (inside : Inside before) (noChoice : before.phase ≠ .awaitingChoice) :
    Placed before :=
  ⟨inside, fun awaiting => absurd awaiting noChoice⟩

theorem fetch {instruction : Instruction} (inside : Inside before)
    (found : before.script.get? before.pc = some instruction) :
    Inside (before.fetch instruction) :=
  ⟨inside.targets, Script.lt_length found⟩

theorem executed {instruction : Instruction} {flow : Flow} (inside : Inside before)
    (running : before.phase = .running)
    (found : before.script.get? before.pc = some instruction)
    (executed : Executed before.pc (before.fetch instruction) instruction flow after) :
    Placed after := by
  have fetched := inside.fetch found
  have halts {interpreter : Interpreter} (inside : Inside interpreter)
      (phase : interpreter.phase = .running ∨ interpreter.phase = .ended) :
      Placed interpreter :=
    inside.placed fun awaiting => by simp [awaiting] at phase
  cases executed with
  | passed passes passed =>
      have phase := phase_of_clock passed.clock
      exact halts (fetched.passed passed) (.inl (phase.trans running))
  | @settling _ staged time settles same =>
      have phase := phase_of_clock same.clock
      have kept := fetched.staged same
      exact halts ⟨kept.targets, kept.pc⟩ (.inl (phase.trans running))
  | revealing speaker text name time =>
      exact halts ⟨fetched.targets, fetched.pc⟩ (.inl running)
  | presenting options nonempty =>
      exact ⟨⟨fetched.targets, fetched.pc⟩, fun _ => ⟨before.pc, options, rfl, found, rfl⟩⟩
  | finishing endText => exact halts ⟨fetched.targets, fetched.pc⟩ (.inr rfl)

theorem runUntilSuspended (stage : Stage) (inside : Inside before)
    (running : before.phase = .running) : Placed (before.runUntilSuspended stage).2 := by
  apply runUntilSuspended_rule (fun next => Inside next ∧ next.phase = .running)
    (fun _ next => Placed next) before ⟨inside, running⟩
  · intro next instruction flow after ⟨inside, running⟩ found outcome
    have comes := executed_of_eq outcome
    have kept := inside.executed running found comes
    cases flow with
    | onward =>
        have same : after.clock = next.clock := comes.flows
        have phase : after.phase = next.phase := phase_of_clock same
        exact ⟨kept.toInside, phase.trans running⟩
    | yield step => exact kept
  · intro next ⟨inside, running⟩ found
    exact placed ⟨inside.targets, inside.pc⟩ (by simp)
  · intro offset next ⟨inside, running⟩
    exact placed ⟨inside.targets, inside.pc⟩ (by simp)

end Inside

theorem Resumes.inside {interpreter ready : Interpreter} {move : Move Wake}
    (inside : Inside interpreter) (resumes : Resumes interpreter move ready) : Inside ready := by
  cases resumes with
  | advance awaiting => exact ⟨inside.targets, inside.pc⟩
  | @select index offset options option awaiting asked found selected =>
      have noted : Inside (interpreter.note (.choiceSelected index option.text)) :=
        inside.staged (.note rfl _)
      have led := (noted.staged (passSignal_staged option _)).passed
        (goWhereItLeads_passed offset option _)
      exact ⟨led.targets, led.pc⟩
  | settle running settling => exact ⟨inside.targets, inside.pc⟩
  | complete running ticked choice => exact ⟨inside.targets, inside.pc⟩

theorem makeMove_placed (stage : Stage) (move : Move Wake) {interpreter : Interpreter}
    (placed : Placed interpreter) : Placed (interpreter.makeMove stage move).2 := by
  rcases outcome : interpreter.makeMove stage move with ⟨answer, after⟩
  cases moved_of_eq outcome with
  | ignored unchanged =>
      cases unchanged with
      | same => exact placed
      | noted quiet => exact ⟨⟨placed.targets, placed.pc⟩, placed.choice⟩
  | refused awaiting => exact ⟨⟨placed.targets, placed.pc⟩, placed.choice⟩
  | resumed resumes =>
      exact Inside.runUntilSuspended stage (resumes.inside placed.toInside) resumes.running
  | revealing running ticked => exact ⟨⟨placed.targets, placed.pc⟩, placed.choice⟩
  | revealed running ticked apart unchanged =>
      refine Inside.placed ?_ (by simp)
      cases unchanged with
      | same => exact ⟨placed.targets, placed.pc⟩
      | noted quiet => exact ⟨placed.targets, placed.pc⟩
  | stopped running => exact Inside.placed ⟨placed.targets, placed.pc⟩ (by simp)
  | rested resting => exact placed

theorem restore_placed (stage : Stage) (script : Script) (save : SavePoint)
    {interpreter : Interpreter} (placed : Placed interpreter) :
    Placed (interpreter.restore stage script save).2 := by
  cases outcome : save.step? script with
  | error refusal =>
      rw [restore_refused interpreter outcome]
      exact placed
  | ok step =>
      rw [restore_eq interpreter outcome]
      obtain ⟨-, inside, fits⟩ := SavePoint.step?_ok_iff.mp outcome
      have staged := (replay_shown (interpreter.putBack script save) stage).toStaged
      have putBack : Inside (interpreter.putBack script save) := ⟨rfl, inside⟩
      have phase : ((interpreter.putBack script save).replay stage).phase = save.phase :=
        phase_of_clock staged.clock
      refine ⟨putBack.staged staged, ?_⟩
      rw [phase, staged.choiceAt, staged.script, staged.pc]
      intro awaiting
      cases fits with
      | advance advance =>
          rw [advance] at awaiting
          cases awaiting
      | choice offset options choice pending found follows =>
          exact ⟨offset, options, pending, found, follows⟩

theorem perform_placed (stage : Stage) (operation : Operation) {interpreter : Interpreter}
    (placed : Placed interpreter) : Placed (interpreter.perform stage operation).2 := by
  cases operation with
  | start script =>
      simp only [perform, Prod.map_snd, id_eq]
      exact Inside.runUntilSuspended stage ⟨rfl, Nat.zero_le _⟩ rfl
  | restore script save =>
      simp only [perform, Prod.map_snd, id_eq]
      exact restore_placed stage script save placed
  | move move => exact makeMove_placed stage move placed

theorem Reachable.placed {stage : Stage} {interpreter : Interpreter}
    (reachable : Reachable stage interpreter) : Placed interpreter := by
  induction reachable with
  | fresh => exact Inside.placed ⟨rfl, Nat.le_refl _⟩ (nomatch ·)
  | perform operation _ placed => exact perform_placed stage operation placed

end Interpreter

end VisualNovel
