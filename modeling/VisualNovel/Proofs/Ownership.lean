import VisualNovel.Proofs.CanonicalText
import VisualNovel.Proofs.Forecast
import VisualNovel.Proofs.Json.Unambiguous

namespace VisualNovel

open Json

theorem CharacterAction.write_injective : Function.Injective format.write := by
  refine Format.names_injective fun first second same => ?_
  cases first <;> cases second <;> simp_all [name]

theorem MusicAction.write_injective : Function.Injective format.write := by
  refine Format.names_injective fun first second same => ?_
  cases first <;> cases second <;> simp_all [name]

theorem Side.write_injective : Function.Injective format.write := by
  refine Format.names_injective fun first second same => ?_
  cases first <;> cases second <;> simp_all [name]

theorem Signal.write_injective : Function.Injective format.write :=
  Format.record_injective
    (Fields.need_injective Format.text_injective <|
      Fields.optional_injective (by decide) Format.any_injective Fields.done_injective)
    fun _ => rfl

theorem ChoiceOption.write_injective : Function.Injective format.write :=
  Format.record_injective
    (Fields.need_injective Format.text_injective <|
      Fields.optional_injective (by decide) Format.text_injective <|
      Fields.optional_injective (by decide) Signal.write_injective Fields.done_injective)
    fun _ => rfl

namespace Instruction

theorem labelFields_injective : Function.Injective labelFields.write :=
  Fields.need_injective Format.text_injective Fields.done_injective

theorem sayFields_injective : Function.Injective sayFields.write :=
  Fields.optional_injective (by decide) Format.text_injective <|
    Fields.need_injective Format.text_injective Fields.done_injective

theorem backgroundFields_injective : Function.Injective backgroundFields.write :=
  Fields.optional_injective (by decide) Format.boolean_injective <|
    Fields.optional_injective (by decide) Format.text_injective <|
    Fields.optional_injective (by decide) Format.millis_injective Fields.done_injective

theorem characterFields_injective : Function.Injective characterFields.write :=
  Fields.need_injective Format.text_injective <|
    Fields.need_injective CharacterAction.write_injective <|
    Fields.optional_injective (by decide) Format.text_injective <|
    Fields.optional_injective (by decide) Side.write_injective <|
    Fields.optional_injective (by decide) Format.millis_injective Fields.done_injective

theorem choiceFields_injective : Function.Injective choiceFields.write :=
  Fields.need_injective (Format.list_injective ChoiceOption.write_injective)
    Fields.done_injective

theorem waitFields_injective : Function.Injective waitFields.write :=
  Fields.optional_injective (by decide) Format.millis_injective Fields.done_injective

theorem jumpFields_injective : Function.Injective jumpFields.write :=
  Fields.need_injective Format.text_injective Fields.done_injective

theorem musicFields_injective : Function.Injective musicFields.write :=
  Fields.need_injective MusicAction.write_injective <|
    Fields.optional_injective (by decide) Format.text_injective <|
    Fields.optional_injective (by decide) Format.boolean_injective Fields.done_injective

theorem write_injective : Function.Injective format.write := by
  intro first second same
  obtain ⟨kind, members⟩ : first.kind = second.kind ∧ first.members = second.members := by
    simpa [format, Format.tagged] using same
  cases first with
  | label id =>
      cases second with
      | label id' =>
          dsimp only [Instruction.members] at members
          cases labelFields_injective members
          rfl
      | _ => simp [Instruction.kind] at kind
  | say speaker text =>
      cases second with
      | say speaker' text' =>
          dsimp only [Instruction.members] at members
          cases sayFields_injective members
          rfl
      | _ => simp [Instruction.kind] at kind
  | background visible image delay =>
      cases second with
      | background visible' image' delay' =>
          dsimp only [Instruction.members] at members
          cases backgroundFields_injective members
          rfl
      | _ => simp [Instruction.kind] at kind
  | character id action state side delay =>
      cases second with
      | character id' action' state' side' delay' =>
          dsimp only [Instruction.members] at members
          cases characterFields_injective members
          rfl
      | _ => simp [Instruction.kind] at kind
  | choice options =>
      cases second with
      | choice options' =>
          dsimp only [Instruction.members] at members
          cases choiceFields_injective members
          rfl
      | _ => simp [Instruction.kind] at kind
  | wait duration =>
      cases second with
      | wait duration' =>
          dsimp only [Instruction.members] at members
          cases waitFields_injective members
          rfl
      | _ => simp [Instruction.kind] at kind
  | jump target =>
      cases second with
      | jump target' =>
          dsimp only [Instruction.members] at members
          cases jumpFields_injective members
          rfl
      | _ => simp [Instruction.kind] at kind
  | music action track looping =>
      cases second with
      | music action' track' looping' =>
          dsimp only [Instruction.members] at members
          cases musicFields_injective members
          rfl
      | _ => simp [Instruction.kind] at kind
  | ending =>
      cases second with
      | ending => rfl
      | _ => simp [Instruction.kind] at kind
  | unknown =>
      cases second with
      | unknown => rfl
      | _ => simp [Instruction.kind] at kind

end Instruction

namespace Script

theorem write_injective : Function.Injective format.write := by
  intro first second same
  have instructions : first.instructions = second.instructions :=
    Format.list_injective Instruction.write_injective same
  exact congrArg mk instructions

theorem floatFree_write {script : Script}
    (floatFree : ∀ payload ∈ script.payloads, payload.FloatFree) :
    (format.write script).FloatFree := by
  have bounded : ∀ payload ∈ script.payloads,
      payload.Bounded Number.IsInteger (depthOfItems script.payloads) := fun payload given =>
    ⟨depthOfItems_le_iff.mp (Nat.le_refl _) payload given, floatFree payload given⟩
  exact (script.bounded_write (fun _ plain => plain.1) bounded).2

theorem canonicalText_inj {script other : Script}
    (floatFree : ∀ payload ∈ script.payloads, payload.FloatFree)
    (same : script.canonicalText = other.canonicalText) : script = other :=
  write_injective (compact_inj (floatFree_write floatFree) same)

end Script

theorem SavePoint.step?_otherScript_iff {save : SavePoint} {script : Script} :
    save.step? script = .error .otherScript ↔ script.fingerprint ≠ save.fingerprint := by
  refine ⟨fun refused => ?_, fun differs => by simp [step?, differs]⟩
  unfold step? at refused
  split at refused
  · next differs => exact differs
  · grind

namespace Interpreter

theorem fingerprint_of_save {interpreter : Interpreter} {save : SavePoint}
    (saved : interpreter.save = .ok save) :
    save.fingerprint = interpreter.script.fingerprint := by
  unfold Interpreter.save at saved
  split at saved
  · cases saved
    rfl
  · cases saved

theorem RunOf.save_fingerprint {stage : Stage} {script : Script} {earlier interpreter : Interpreter}
    {collected : List Diagnostic} {save : SavePoint}
    (run : RunOf stage script earlier collected interpreter)
    (saved : interpreter.save = .ok save) : save.fingerprint = script.fingerprint := by
  rw [fingerprint_of_save saved, run.unfolds.performs.script]

theorem restore_otherScript_iff (stage : Stage) (script : Script) (save : SavePoint)
    (interpreter : Interpreter) :
    (interpreter.restore stage script save).1 = .error .otherScript ↔
      script.fingerprint ≠ save.fingerprint := by
  rw [← SavePoint.step?_otherScript_iff]
  cases outcome : save.step? script with
  | error refusal => rw [restore_refused interpreter outcome]
  | ok step => rw [restore_eq interpreter outcome]

/-- A save point of a run is never refused as one of another script when it is restored with the
script of the run, and always with any other, as long as the two texts have different digests. -/
theorem restored_by_own_script :
    (∀ script other : Script, (∀ payload ∈ script.payloads, payload.FloatFree) →
      script.canonicalText = other.canonicalText → script = other) ∧
    ∀ {stage stage' : Stage} {script : Script} {earlier interpreter host : Interpreter}
      {collected : List Diagnostic} {save : SavePoint},
      RunOf stage script earlier collected interpreter → interpreter.save = .ok save →
      (host.restore stage' script save).1 ≠ .error .otherScript ∧
        ((∀ payload ∈ script.payloads, payload.FloatFree) → ∀ other : Script,
          (other.canonicalText ≠ script.canonicalText → other.fingerprint ≠ script.fingerprint) →
          other ≠ script → (host.restore stage' other save).1 = .error .otherScript) := by
  refine ⟨fun script other => Script.canonicalText_inj, ?_⟩
  intro stage stage' script earlier interpreter host collected save run saved
  have own := run.save_fingerprint saved
  refine ⟨fun refused => ?_, fun floatFree other distinguished differs => ?_⟩
  · exact (restore_otherScript_iff ..).mp refused own.symm
  · rw [restore_otherScript_iff, own]
    exact distinguished fun same => differs (Script.canonicalText_inj floatFree same.symm).symm

/-- The two scripts differ in a payload only that is `null` in one and absent in the other. -/
theorem restored_by_own_script_null :
    let stage : Stage := ⟨{}, .standard, .accepting⟩
    let script : Script := ⟨[.choice [⟨"Left", none, some ⟨"went", some .null⟩⟩]]⟩
    let other : Script := ⟨[.choice [⟨"Left", none, some ⟨"went", none⟩⟩]]⟩
    let interpreter := (fresh.start stage script).2
    (∀ payload ∈ script.payloads, payload.FloatFree) ∧
      script.canonicalText ≠ other.canonicalText ∧ other.fingerprint ≠ script.fingerprint ∧
      RunOf stage script fresh [] interpreter ∧
      ∃ save, interpreter.save = .ok save ∧
        (interpreter.restore stage script save).1 ≠ .error .otherScript ∧
        (interpreter.restore stage other save).1 = .error .otherScript := by
  intro stage script other interpreter
  have floatFree : ∀ payload ∈ script.payloads, payload.FloatFree := by
    intro payload given
    cases List.mem_singleton.mp given
    simp [FloatFree, numbers]
  have differs : other ≠ script := by decide
  have digests : other.fingerprint ≠ script.fingerprint := by decide +kernel
  have run : RunOf stage script fresh [] interpreter := .start
  have saved : interpreter.save = .ok _ := if_pos rfl
  obtain ⟨apart, opens⟩ := restored_by_own_script
  obtain ⟨accepted, refused⟩ := opens run saved
  exact ⟨floatFree, fun same => differs (apart script other floatFree same).symm, digests, run, _,
    saved, accepted, refused floatFree other (fun _ => digests) differs⟩

end Interpreter

end VisualNovel
