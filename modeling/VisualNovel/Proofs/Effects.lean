import VisualNovel.Proofs.Runs

/-!
Effects: what is asked of the stage, noted and reported while an instruction is executed or a scene
is shown again. `Cued` leaves the scene alone and `Effects` may change it; each handler of an
instruction is taken apart here once, and what it leaves alone follows from the five kinds of
effects there are.

Main statement: `settles_effects`, for the instructions after which the stage settles.
-/

namespace VisualNovel

def Instruction.settles : Instruction → Bool
  | .background .. | .character .. | .wait _ | .music .. => true
  | _ => false

/-- What is wrong with an instruction wherever a run executes it. -/
def Instruction.fault? (targets : Targets) (offset : Nat) : Instruction → Option Diagnostic
  | .jump target =>
      if (targets.resolve target).isSome then none else some (.unknownLabel target offset)
  | .choice [] => some (.missingField "choice" "choices" offset)
  | .character _ .setState none _ _ => some (.missingField "char" "state" offset)
  | .music .play none _ => some (.missingField "bgm" "id" offset)
  | .unknown => some (.unknownInstruction offset)
  | _ => none

/-- What an instruction may report. Whether the table knows a character counts only for those that
are shown: the others may have gone wrong because they never were. -/
inductive Instruction.MayReport (table : AssetTable) (targets : Targets) (offset : Nat)
    (instruction : Instruction) : Diagnostic → Prop where
  | fault {diagnostic : Diagnostic} : instruction.fault? targets offset = some diagnostic →
      MayReport table targets offset instruction diagnostic
  | asset (kind id : String) : MayReport table targets offset instruction (.unresolvedAsset kind id)
  | playback (asset reason : String) :
      MayReport table targets offset instruction (.playbackFailed asset reason)
  | character {id : String} {action : CharacterAction} {state : Option String}
      {side : Option Side} {delay : Option UInt64} :
      instruction = .character id action state side delay →
      (action = .shown → table.hasCharacter id = false) →
      MayReport table targets offset instruction (.unknownCharacter id offset)

def Note.isQuiet : Note → Bool
  | executing .. | choiceSelected .. | problem _ => false
  | _ => true

namespace Interpreter

/-- Cues are given, notes taken, and diagnostics reported where they are allowed. -/
inductive Cued (allowed : Diagnostic → Prop) : Interpreter → Interpreter → Prop where
  | refl (interpreter : Interpreter) : Cued allowed interpreter interpreter
  | trans {first second third : Interpreter} : Cued allowed first second →
      Cued allowed second third → Cued allowed first third
  | give (cue : Cue) (interpreter : Interpreter) : Cued allowed interpreter (interpreter.give cue)
  | note {noted : Note} : noted.isQuiet → (interpreter : Interpreter) →
      Cued allowed interpreter (interpreter.note noted)
  | report {diagnostic : Diagnostic} : allowed diagnostic → (interpreter : Interpreter) →
      Cued allowed interpreter (interpreter.report diagnostic)

section Cued

variable {allowed : Diagnostic → Prop} (interpreter : Interpreter)

theorem assetOrLiteral_cued (kind id : String) (asset : Option String)
    (missing : allowed (.unresolvedAsset kind id)) :
    Cued allowed interpreter (interpreter.assetOrLiteral kind id asset).2 := by
  cases asset with
  | some asset => exact .refl _
  | none => exact .report missing _

theorem requestMusic_cued (stage : Stage) (asset : String) (looping : Bool)
    (fails : ∀ reason, allowed (.playbackFailed asset reason)) :
    Cued allowed interpreter (interpreter.requestMusic stage asset looping) := by
  simp only [requestMusic]
  split
  · exact .give _ _
  · exact .trans (.give _ _) (.report (fails _) _)

end Cued

inductive Effects (allowed : Diagnostic → Prop) : Interpreter → Interpreter → Prop where
  | cued {before after : Interpreter} : Cued allowed before after → Effects allowed before after
  | scene (scene : Scene) (interpreter : Interpreter) :
      Effects allowed interpreter { interpreter with scene := scene }
  | trans {first second third : Interpreter} : Effects allowed first second →
      Effects allowed second third → Effects allowed first third

namespace Effects

variable {allowed : Diagnostic → Prop}

theorem refl (interpreter : Interpreter) : Effects allowed interpreter interpreter :=
  .cued (.refl interpreter)

theorem report {diagnostic : Diagnostic} (permitted : allowed diagnostic)
    (interpreter : Interpreter) : Effects allowed interpreter (interpreter.report diagnostic) :=
  .cued (.report permitted interpreter)

theorem perform (cue : Cue) (scene : Scene) (interpreter : Interpreter) :
    Effects allowed interpreter { interpreter.give cue with scene := scene } :=
  .trans (.cued (.give cue interpreter)) (.scene scene _)

end Effects

section Handlers

variable {stage : Stage} {targets : Targets} {offset : Nat} {instruction : Instruction}
  (interpreter : Interpreter)

theorem showBackdrop_effects {allowed : Diagnostic → Prop} (visible : Option Bool) :
    Effects allowed interpreter (interpreter.showBackdrop visible) := by
  cases visible with
  | none => exact .refl _
  | some visible => exact .perform ..

theorem changeBackdrop_effects (image : Option String) :
    Effects (instruction.MayReport stage.table targets offset) interpreter
      (interpreter.changeBackdrop stage image) := by
  cases image with
  | none => exact .refl _
  | some id => exact .trans (.cued (assetOrLiteral_cued _ _ _ _ (.asset ..))) (.perform ..)

theorem spriteAsset_effects (id : String) (state : Option String) :
    Effects (instruction.MayReport stage.table targets offset) interpreter
      (interpreter.spriteAsset stage id state).2 := by
  cases state with
  | none => exact .refl _
  | some state => exact .cued (assetOrLiteral_cued _ _ _ _ (.asset ..))

theorem showCharacter_effects (id : String) (state : Option String) (side : Option Side)
    (delay : Option UInt64) :
    Effects ((Instruction.character id .shown state side delay).MayReport stage.table targets
      offset) interpreter (interpreter.showCharacter stage offset id state side) := by
  unfold showCharacter
  split
  · exact .trans (spriteAsset_effects ..) (.perform ..)
  · next unknown =>
      have unknown : stage.table.hasCharacter id = false := by simpa using unknown
      exact .trans (.report (.character rfl fun _ => unknown) _)
        (.trans (spriteAsset_effects ..) (.perform ..))

theorem hideCharacter_effects (id : String) (state : Option String) (side : Option Side)
    (delay : Option UInt64) :
    Effects ((Instruction.character id .hidden state side delay).MayReport stage.table targets
      offset) interpreter (interpreter.hideCharacter offset id) := by
  unfold hideCharacter
  split
  · exact .report (.character rfl nofun) _
  · exact .perform ..

theorem changeCharacter_effects (id : String) (state : Option String) (side : Option Side)
    (delay : Option UInt64) :
    Effects ((Instruction.character id .setState state side delay).MayReport stage.table targets
      offset) interpreter (interpreter.changeCharacter stage offset id state) := by
  unfold changeCharacter
  split
  · exact .report (.fault rfl) _
  · exact .report (.character rfl nofun) _
  · exact .trans (.cued (assetOrLiteral_cued _ _ _ _ (.asset ..))) (.perform ..)

theorem playMusic_effects (track : Option String) (looping : Option Bool) :
    Effects ((Instruction.music .play track looping).MayReport stage.table targets offset)
      interpreter (interpreter.playMusic stage offset track looping) := by
  cases track with
  | none => exact .report (.fault rfl) _
  | some track =>
      have requests (asset : String) (looping' : Bool) (asked : Interpreter) :
          Cued ((Instruction.music .play (some track) looping).MayReport stage.table targets offset)
            asked (asked.requestMusic stage asset looping') :=
        requestMusic_cued _ stage asset looping' (.playback _)
      exact .trans (.cued (.trans (assetOrLiteral_cued _ _ _ _ (.asset ..))
        (.trans (.note rfl _) (requests ..)))) (.scene _ _)

theorem settles_effects (stage : Stage) (targets : Targets) (offset : Nat)
    (settles : instruction.settles) :
    ∃ staged time, interpreter.execute stage offset instruction = staged.settle time ∧
      Effects (instruction.MayReport stage.table targets offset) interpreter staged := by
  cases instruction with
  | background visible image delay =>
      exact ⟨_, _, rfl, .trans (showBackdrop_effects ..) (changeBackdrop_effects ..)⟩
  | character id action state side delay =>
      refine ⟨_, _, rfl, ?_⟩
      cases action with
      | shown => exact showCharacter_effects ..
      | hidden => exact hideCharacter_effects ..
      | setState => exact changeCharacter_effects ..
  | wait duration => exact ⟨_, _, rfl, .refl _⟩
  | music action track looping =>
      refine ⟨_, _, rfl, ?_⟩
      cases action with
      | play => exact playMusic_effects ..
      | stop => exact .perform ..
      | pause => exact .perform ..
  | _ => cases settles

end Handlers

end Interpreter

end VisualNovel
