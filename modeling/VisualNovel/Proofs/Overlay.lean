import VisualNovel.Proofs.Display
import VisualNovel.Proofs.Restoring

/-!
Restoring shows the saved scene over what is on display. What the scene does not cover stays: an
image if the scene has none, figures that are not visible in it, a line if it has none, choices if
none are pending and music unless it has a track that is not stopped.

Main statement: `restored_views`.
-/

namespace VisualNovel

@[ext] structure View where
  visible : Bool
  image : Option String
  figures : String → Option (Option String × Side)
  dialogue : Option Dialogue
  choices : Option (List String)
  music : Option (String × Bool)

def View.blank : View := ⟨true, none, fun _ => none, none, none, none⟩

def Figure.seen? (figure : Figure) : Option (Option String × Side) :=
  if figure.visible then some (figure.asset, figure.side) else none

namespace Music

def audible (music : Music) : Option (String × Bool) :=
  if music.status = .playing then music.track.map fun track => (track, music.looping) else none

/-- Restoring asks for the music again. -/
def isHeld (music : Music) : Bool :=
  music.track.isSome && music.status ≠ .stopped

theorem audible_of_not_held {music : Music} (silent : music.isHeld = false) :
    music.audible = none := by
  obtain ⟨track, looping, status⟩ := music
  cases track with
  | none => cases status <;> rfl
  | some track =>
      cases status with
      | stopped => rfl
      | playing => cases silent
      | paused => rfl

theorem audible_atop (music : Music) (below : Option (String × Bool)) :
    (if music.isHeld then music.audible else below) =
      (music.audible <|> if music.isHeld then none else below) := by
  cases held : music.isHeld with
  | true => simp
  | false => simp [audible_of_not_held held]

end Music

namespace Display

def seen? (display : Display) (id : String) : Option (Option String × Side) :=
  (display.figures.get? id).bind Figure.seen?

def view (display : Display) : View where
  visible := display.backdrop.visible
  image := display.backdrop.image
  figures := display.seen?
  dialogue := display.dialogue
  choices := display.choices
  music := display.music.audible

end Display

theorem orElse_leftover_inj {α : Type} {above first second : Option α} {covered : Bool}
    (bare : covered = false → above = none) :
    (above <|> if covered then none else first) =
        (above <|> if covered then none else second) ↔
      (if covered then none else first) = if covered then none else second := by
  cases covered with
  | true => simp
  | false => simp [bare rfl]

theorem orElse_leftover_eq {α : Type} {above below : Option α} {covered : Bool}
    (bare : covered = false → above = none) :
    (above <|> if covered then none else below) = above ↔
      (if covered then none else below) = none := by
  cases covered with
  | true => simp
  | false => simp [bare rfl]

theorem none_of_not_isSome {α : Type} {part : Option α} (missing : part.isSome = false) :
    part = none :=
  Option.isNone_iff_eq_none.mp (Option.isSome_eq_false_iff.mp missing)

namespace View

def atop (above below : View) : View where
  visible := above.visible
  image := above.image <|> below.image
  figures id := above.figures id <|> below.figures id
  dialogue := above.dialogue <|> below.dialogue
  choices := above.choices <|> below.choices
  music := above.music <|> below.music

/-- The part of the second view that the first one does not cover; `held` music covers all. -/
def leftover (above : View) (held : Bool) (below : View) : View where
  visible := true
  image := if above.image.isSome then none else below.image
  figures id := if (above.figures id).isSome then none else below.figures id
  dialogue := if above.dialogue.isSome then none else below.dialogue
  choices := if above.choices.isSome then none else below.choices
  music := if held then none else below.music

variable {above : View} {held : Bool} (silent : held = false → above.music = none)
include silent

theorem atop_leftover_inj {first second : View} :
    above.atop (above.leftover held first) = above.atop (above.leftover held second) ↔
      above.leftover held first = above.leftover held second := by
  simp only [atop, leftover, View.mk.injEq, funext_iff, orElse_leftover_inj none_of_not_isSome,
    orElse_leftover_inj silent, true_and]

theorem atop_leftover_eq {below : View} :
    above.atop (above.leftover held below) = above ↔ above.leftover held below = .blank := by
  obtain ⟨visible, image, figures, dialogue, choices, music⟩ := above
  simp only [atop, leftover, blank, View.mk.injEq, funext_iff,
    orElse_leftover_eq none_of_not_isSome, orElse_leftover_eq silent, true_and]

end View

namespace SavePoint

def pendingChoices (script : Script) (save : SavePoint) : Option (List ChoiceOption) :=
  match save.choiceAt.bind script.get? with
  | some (.choice options) => if save.phase = .awaitingChoice then some options else none
  | _ => none

def view (table : AssetTable) (script : Script) (save : SavePoint) : View where
  visible := save.scene.background.visible
  image := save.scene.background.image
  figures id := (save.scene.characters.get? id).bind fun sprite =>
    (sprite.figure table id).seen?
  dialogue := save.scene.dialogue
  choices := (save.pendingChoices script).map (·.map (·.text))
  music := save.scene.audio.audible

def leftover (table : AssetTable) (script : Script) (save : SavePoint) (before : View) : View :=
  (save.view table script).leftover save.scene.audio.isHeld before

end SavePoint

namespace Interpreter

section Replay

variable (interpreter : Interpreter)

theorem replayBackdrop_display (backdrop : Backdrop) :
    (interpreter.replayBackdrop backdrop).display = { interpreter.display with
      backdrop := ⟨backdrop.visible, backdrop.image <|> interpreter.display.backdrop.image⟩ } := by
  obtain ⟨visible, image⟩ := backdrop
  cases image with
  | none => exact display_give ..
  | some image =>
      simp only [replayBackdrop, display_give]
      rfl

theorem replaySprite_display (table : AssetTable) (id : String) (sprite : Sprite) :
    ∃ figures, (interpreter.replaySprite table (id, sprite)).display =
        { interpreter.display with figures := figures } ∧
      ∀ sought, (figures.get? sought).bind Figure.seen? =
        if sought = id then (sprite.figure table id).seen? <|> interpreter.display.seen? sought
        else interpreter.display.seen? sought := by
  obtain ⟨visible, state, side⟩ := sprite
  cases visible with
  | true =>
      refine ⟨_, display_give .., fun sought => ?_⟩
      rw [Dict.get?_insert]
      split
      · rfl
      · rfl
  | false =>
      refine ⟨_, rfl, fun sought => ?_⟩
      split
      · rfl
      · rfl

theorem replaySprites_display (table : AssetTable) (entries : List (String × Sprite))
    (ascending : Ascending entries) :
    ∃ figures, (entries.foldl (replaySprite table) interpreter).display =
        { interpreter.display with figures := figures } ∧
      ∀ id, (figures.get? id).bind Figure.seen? =
        (((entries.lookup id).bind fun sprite => (sprite.figure table id).seen?) <|>
          interpreter.display.seen? id) := by
  induction entries generalizing interpreter with
  | nil => exact ⟨_, rfl, fun _ => rfl⟩
  | cons entry entries ih =>
      obtain ⟨key, sprite⟩ := entry
      -- The keys ascend, so no later entry is for the same character.
      have fresh := lookup_of_ascending ascending
      obtain ⟨first, display, shown⟩ := replaySprite_display interpreter table key sprite
      obtain ⟨figures, display', shown'⟩ :=
        ih (interpreter.replaySprite table (key, sprite)) (List.pairwise_cons.mp ascending).2
      refine ⟨figures, ?_, fun id => ?_⟩
      · rw [List.foldl_cons, display', display]
      · rw [shown', display, lookup_cons_eq]
        simp only [Display.seen?, shown]
        split
        · next same =>
            subst same
            rw [fresh]
            rfl
        · rfl

theorem replayMusic_display (stage : Stage) (music : Music) :
    ∃ heard, (interpreter.replayMusic stage music).display =
        { interpreter.display with music := heard } ∧
      heard.audible =
        if music.isHeld then music.audible else interpreter.display.music.audible := by
  obtain ⟨track, looping, status⟩ := music
  cases track with
  | none => exact ⟨_, rfl, rfl⟩
  | some track =>
      cases status with
      | stopped => exact ⟨_, rfl, rfl⟩
      | playing => exact ⟨_, display_requestMusic .., rfl⟩
      | paused =>
          refine ⟨⟨some track, looping, .paused⟩, ?_, rfl⟩
          simp only [replayMusic, display_give, display_requestMusic]
          rfl

theorem replayDialogue_display (dialogue : Option Dialogue) :
    (interpreter.replayDialogue dialogue).display =
      { interpreter.display with dialogue := dialogue <|> interpreter.display.dialogue } := by
  cases dialogue with
  | none => rfl
  | some dialogue =>
      simp only [replayDialogue, display_give]
      rfl

theorem replayChoices_display : interpreter.replayChoices.display =
    { interpreter.display with choices :=
        interpreter.pendingChoices.map (·.map (·.text)) <|> interpreter.display.choices } := by
  unfold replayChoices
  cases interpreter.pendingChoices with
  | none => rfl
  | some options => exact display_give ..

theorem Shown.pendingChoices {before after : Interpreter} (shown : Shown before after) :
    after.pendingChoices = before.pendingChoices := by
  have phase : after.phase = before.phase := phase_of_clock shown.clock
  simp only [Machine.pendingChoices, shown.choiceAt, shown.script, phase]

theorem replay_display (stage : Stage) :
    ∃ figures heard, (interpreter.replay stage).display =
        ⟨⟨interpreter.scene.background.visible,
            interpreter.scene.background.image <|> interpreter.display.backdrop.image⟩,
          figures, interpreter.scene.dialogue <|> interpreter.display.dialogue,
          interpreter.pendingChoices.map (·.map (·.text)) <|> interpreter.display.choices,
          heard⟩ ∧
      (∀ id, (figures.get? id).bind Figure.seen? =
        (((interpreter.scene.characters.get? id).bind fun sprite =>
            (sprite.figure stage.table id).seen?) <|>
          interpreter.display.seen? id)) ∧
      heard.audible = if interpreter.scene.audio.isHeld then interpreter.scene.audio.audible
        else interpreter.display.music.audible := by
  let scene := interpreter.scene
  let behind := interpreter.replayBackdrop scene.background
  let peopled := scene.characters.entries.foldl (replaySprite stage.table) behind
  let sounding := peopled.replayMusic stage scene.audio
  let spoken := sounding.replayDialogue scene.dialogue
  have shown : Shown interpreter spoken :=
    ((replayBackdrop_cued ..).trans <| (replaySprites_cued ..).trans <|
      (replayMusic_cued ..).trans (replayDialogue_cued ..)).shown
  have display : behind.display = _ := replayBackdrop_display ..
  obtain ⟨figures, display', seen⟩ :=
    replaySprites_display behind stage.table scene.characters.entries scene.characters.ascending
  obtain ⟨heard, display'', audible⟩ := replayMusic_display peopled stage scene.audio
  refine ⟨figures, heard, ?_, ?_, ?_⟩
  · show spoken.replayChoices.display = _
    rw [replayChoices_display, replayDialogue_display, display'', display', display,
      shown.pendingChoices]
  · intro id
    rw [seen, Display.seen?, display]
    rfl
  · rw [audible, display', display]

end Replay

theorem putBack_display (script : Script) (save : SavePoint) (interpreter : Interpreter) :
    (interpreter.putBack script save).display = interpreter.display :=
  (display_note ..).trans (display_eq_of_cues (reset_cues interpreter script))

theorem restore_view {stage : Stage} {script : Script} {save : SavePoint} {step : Step}
    {before after : Interpreter}
    (restored : before.restore stage script save = (.ok step, after)) :
    after.display.view = (save.view stage.table script).atop
      (save.leftover stage.table script before.display.view) := by
  obtain ⟨-, rfl⟩ := (restore_ok_iff before).mp restored
  obtain ⟨figures, heard, display, seen, audible⟩ :=
    replay_display (before.putBack script save) stage
  have same := putBack_display script save before
  rw [same] at display seen audible
  have beneath {α : Type} (above below : Option α) :
      (above <|> below) = (above <|> if above.isSome then none else below) := by
    cases above <;> rfl
  rw [display]
  refine View.ext rfl (beneath ..) ?_ (beneath ..) (beneath ..) ?_
  · funext id
    exact (seen id).trans (beneath ..)
  · exact audible.trans (Music.audible_atop ..)

/-- Of two interpreters that accept a save point each shows it over what it has on display: they
look alike if and only if they do where the save point covers nothing, and one of them looks like
the save point if and only if there is nothing left. -/
theorem restored_views (table : AssetTable) {settings settings' : Settings}
    {playback playback' : Playback} {script : Script} {save : SavePoint} {step step' : Step}
    {first second first' second' : Interpreter}
    (restored : first.restore ⟨table, settings, playback⟩ script save = (.ok step, first'))
    (restored' : second.restore ⟨table, settings', playback'⟩ script save =
      (.ok step', second')) :
    let saved := save.view table script
    let leftover := save.leftover table script
    first'.display.view = saved.atop (leftover first.display.view) ∧
      second'.display.view = saved.atop (leftover second.display.view) ∧
      (first'.display.view = second'.display.view ↔
        leftover first.display.view = leftover second.display.view) ∧
      (first'.display.view = saved ↔ leftover first.display.view = .blank) ∧
      (second'.display.view = saved ↔ leftover second.display.view = .blank) := by
  have silent := @Music.audible_of_not_held save.scene.audio
  have view := restore_view restored
  have view' := restore_view restored'
  refine ⟨view, view', ?_, ?_, ?_⟩
  · rw [view, view']
    exact View.atop_leftover_inj silent
  · rw [view]
    exact View.atop_leftover_eq silent
  · rw [view']
    exact View.atop_leftover_eq silent

theorem restored_views_at_choice :
    let stage : Stage := ⟨{}, .standard, .accepting⟩
    let script : Script := ⟨[.choice [⟨"Left", none, none⟩]]⟩
    let save : SavePoint := ⟨script.fingerprint, 1, .awaitingChoice, .blank, some 0⟩
    let other := (fresh.start stage ⟨[.character "anna" .shown none none none]⟩).2
    ∃ fresh' other', fresh.restore stage script save = (.ok .awaitChoice, fresh') ∧
      other.restore stage script save = (.ok .awaitChoice, other') ∧
      (fresh'.display.view = other'.display.view ↔
        save.leftover stage.table script fresh.display.view =
          save.leftover stage.table script other.display.view) := by
  intro stage script save other
  have accepted : save.step? script = .ok .awaitChoice :=
    SavePoint.step?_ok_iff.mpr ⟨rfl, Nat.le_refl 1, .choice 0 _ rfl rfl rfl rfl⟩
  have restored : fresh.restore stage script save = _ := restore_eq fresh accepted
  have restored' : other.restore stage script save = _ := restore_eq other accepted
  exact ⟨_, _, restored, restored', (restored_views _ restored restored').2.2.1⟩

/-- A figure that was on display before the save point is restored stays there. -/
theorem restored_over_figure :
    let stage : Stage := ⟨{}, .standard, .accepting⟩
    let script : Script := ⟨[.choice [⟨"Left", none, none⟩]]⟩
    let save : SavePoint := ⟨script.fingerprint, 1, .awaitingChoice, .blank, some 0⟩
    let other := (fresh.start stage ⟨[.character "anna" .shown none none none]⟩).2
    (fresh.start stage script).2.save = .ok save ∧
      ∃ fresh' other', fresh.restore stage script save = (.ok .awaitChoice, fresh') ∧
        other.restore stage script save = (.ok .awaitChoice, other') ∧
        fresh'.display.view ≠ other'.display.view ∧
        other'.display.view ≠ save.view stage.table script := by
  intro stage script save other
  have accepted : save.step? script = .ok .awaitChoice :=
    SavePoint.step?_ok_iff.mpr ⟨rfl, Nat.le_refl 1, .choice 0 _ rfl rfl rfl rfl⟩
  have restored : fresh.restore stage script save = _ := restore_eq fresh accepted
  have restored' : other.restore stage script save = _ := restore_eq other accepted
  have view := congrArg (View.figures · "anna") (restore_view restored)
  have view' := congrArg (View.figures · "anna") (restore_view restored')
  refine ⟨rfl, _, _, restored, restored', ?_, ?_⟩
  · intro same
    rw [same] at view
    cases view'.symm.trans view
  · intro same
    rw [same] at view'
    cases view'

end Interpreter

end VisualNovel
