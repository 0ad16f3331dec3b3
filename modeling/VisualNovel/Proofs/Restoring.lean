import VisualNovel.Proofs.Execution

namespace VisualNovel

/-- The save point is one of a run of the script that waits on the reader, and `step` is the step
with which it waits. -/
inductive SavePoint.Fits (save : SavePoint) (script : Script) : Step → Prop where
  | advance : save.phase = .awaitingAdvance → save.Fits script .awaitAdvance
  | choice (offset : Nat) (options : List ChoiceOption) : save.phase = .awaitingChoice →
      save.choiceAt = some offset → script.get? offset = some (.choice options) →
      save.pc = offset + 1 → save.Fits script .awaitChoice

namespace SavePoint

theorem Fits.isSuspended {save : SavePoint} {script : Script} {step : Step}
    (fits : save.Fits script step) : save.phase.isSuspended = true := by
  cases fits with
  | advance phase => rw [phase]; rfl
  | choice offset options phase => rw [phase]; rfl

theorem step?_ok_iff {save : SavePoint} {script : Script} {step : Step} :
    save.step? script = .ok step ↔
      script.fingerprint = save.fingerprint ∧ save.pc ≤ script.length ∧
        save.Fits script step := by
  unfold step?
  split
  · next differs => simp [differs]
  next same =>
  split
  · next past => simp [Nat.not_le.mpr past]
  next inside =>
  have same : script.fingerprint = save.fingerprint := Decidable.not_not.mp same
  have inside : save.pc ≤ script.length := Nat.not_lt.mp inside
  simp only [same, inside, true_and]
  constructor
  · intro accepted
    split at accepted
    · next phase => cases accepted; exact .advance phase
    · next phase =>
        split at accepted
        · cases accepted
        · next offset at_ =>
            split at accepted
            · next options found =>
                split at accepted
                · next follows =>
                    cases accepted
                    exact .choice offset options phase at_ found follows
                · cases accepted
            · cases accepted
    · cases accepted
  · intro fits
    cases fits with
    | advance phase => rw [phase]
    | choice offset options phase at_ found follows =>
        simp only [phase, at_, found, follows, ↓reduceIte]

end SavePoint

inductive Diagnostic.OfPlayback : Diagnostic → Prop where
  | failed (asset reason : String) : OfPlayback (.playbackFailed asset reason)

namespace Interpreter

structure Shown (before after : Interpreter) : Prop extends Staged before after where
  scene : after.scene = before.scene

theorem Cued.shown {allowed : Diagnostic → Prop} {before after : Interpreter}
    (cued : Cued allowed before after) : Shown before after :=
  ⟨cued.staged, cued.scene⟩

variable (interpreter : Interpreter)

theorem replayBackdrop_cued (backdrop : Backdrop) :
    Cued Diagnostic.OfPlayback interpreter (interpreter.replayBackdrop backdrop) := by
  unfold replayBackdrop
  split
  · exact .trans (.give _ _) (.give _ _)
  · exact .give _ _

theorem replaySprite_cued (table : AssetTable) (entry : String × Sprite) :
    Cued Diagnostic.OfPlayback interpreter (interpreter.replaySprite table entry) := by
  obtain ⟨id, sprite⟩ := entry
  simp only [replaySprite]
  split
  · exact .give _ _
  · exact .refl _

theorem replaySprites_cued (table : AssetTable) (entries : List (String × Sprite)) :
    Cued Diagnostic.OfPlayback interpreter (entries.foldl (replaySprite table) interpreter) := by
  induction entries generalizing interpreter with
  | nil => exact .refl _
  | cons entry entries ih => exact .trans (replaySprite_cued ..) (ih _)

theorem replayMusic_cued (stage : Stage) (music : Music) :
    Cued Diagnostic.OfPlayback interpreter (interpreter.replayMusic stage music) := by
  unfold replayMusic
  split
  · split
    · exact .refl _
    · exact requestMusic_cued _ _ _ _ (.failed _)
    · exact .trans (requestMusic_cued _ _ _ _ (.failed _)) (.give _ _)
  · exact .refl _

theorem replayDialogue_cued (dialogue : Option Dialogue) :
    Cued Diagnostic.OfPlayback interpreter (interpreter.replayDialogue dialogue) := by
  unfold replayDialogue
  split
  · exact .trans (.give _ _) (.give _ _)
  · exact .refl _

theorem replayChoices_cued : Cued Diagnostic.OfPlayback interpreter interpreter.replayChoices := by
  unfold replayChoices
  split
  · exact .give _ _
  · exact .refl _

theorem replay_cued (stage : Stage) :
    Cued Diagnostic.OfPlayback interpreter (interpreter.replay stage) :=
  .trans (replayBackdrop_cued ..) <| .trans (replaySprites_cued ..) <|
    .trans (replayMusic_cued ..) <| .trans (replayDialogue_cued ..) (replayChoices_cued _)

theorem replay_shown (stage : Stage) : Shown interpreter (interpreter.replay stage) :=
  (replay_cued interpreter stage).shown

def putBack (script : Script) (save : SavePoint) (interpreter : Interpreter) : Interpreter :=
  let interpreter :=
    { interpreter.reset script with
      pc := save.pc
      phase := save.phase
      scene := save.scene
      choiceAt := save.choiceAt }
  interpreter.note (.restored interpreter.run interpreter.pc)

theorem restore_eq {stage : Stage} {script : Script} {save : SavePoint} {step : Step}
    (accepted : save.step? script = .ok step) :
    interpreter.restore stage script save =
      (.ok step, (interpreter.putBack script save).replay stage) := by
  simp only [restore, accepted]
  rfl

theorem restore_refused {stage : Stage} {script : Script} {save : SavePoint} {refusal : Refusal}
    (refused : save.step? script = .error refusal) :
    interpreter.restore stage script save = (.error refusal, interpreter) := by
  simp only [restore, refused]

theorem restore_ok_iff {stage : Stage} {script : Script} {save : SavePoint} {step : Step}
    {after : Interpreter} :
    interpreter.restore stage script save = (.ok step, after) ↔
      save.step? script = .ok step ∧ after = (interpreter.putBack script save).replay stage := by
  cases outcome : save.step? script with
  | error refusal => simp [restore_refused interpreter outcome]
  | ok handed => simp [restore_eq interpreter outcome, eq_comm]

end Interpreter

end VisualNovel
