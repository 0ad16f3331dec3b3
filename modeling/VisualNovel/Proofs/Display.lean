import VisualNovel.Proofs.Execution
import VisualNovel.Proofs.Dicts

namespace VisualNovel

structure Figure where
  visible : Bool
  asset : Option String
  side : Side
  deriving DecidableEq

def Sprite.figure (table : AssetTable) (id : String) (sprite : Sprite) : Figure :=
  ⟨sprite.visible, sprite.asset table id, sprite.side⟩

structure Display where
  backdrop : Backdrop
  figures : Dict Figure
  dialogue : Option Dialogue
  choices : Option (List String)
  music : Music
  deriving DecidableEq

namespace Display

def blank : Display := ⟨.blank, .empty, none, none, .silent⟩

def changeFigure (id : String) (change : Figure → Figure) (display : Display) : Display :=
  match display.figures.get? id with
  | some figure => { display with figures := display.figures.insert id (change figure) }
  | none => display

def follow (display : Display) : Cue → Display
  | .backgroundVisible visible => { display with backdrop.visible := visible }
  | .backgroundImage asset => { display with backdrop.image := some asset }
  | .showCharacter id asset side =>
      { display with figures := display.figures.insert id ⟨true, asset, side⟩ }
  | .hideCharacter id => display.changeFigure id fun figure => { figure with visible := false }
  | .characterState id asset =>
      display.changeFigure id fun figure => { figure with asset := some asset }
  | .showDialogue speaker => { display with dialogue := some ⟨speaker, ""⟩ }
  | .dialogueText text =>
      { display with dialogue := display.dialogue.map fun line => { line with text := text } }
  | .clearDialogue => { display with dialogue := none }
  | .renderChoices texts => { display with choices := some texts }
  | .clearChoices => { display with choices := none }
  | .playAudio asset looping => { display with music := ⟨some asset, looping, .playing⟩ }
  | .stopAudio => { display with music := display.music.stop }
  | .pauseAudio => { display with music := display.music.pause }
  | .signal _ | .showEnd _ => display

theorem changeFigure_figures {display : Display} {id : String} {figure : Figure}
    (found : display.figures.get? id = some figure) (change : Figure → Figure) :
    (display.changeFigure id change).figures = display.figures.insert id (change figure) := by
  simp only [changeFigure, found]

theorem changeFigure_eq (display : Display) (id : String) (change : Figure → Figure) :
    display.changeFigure id change =
      { display with figures := (display.changeFigure id change).figures } := by
  unfold changeFigure
  split <;> rfl

theorem contains_changeFigure (display : Display) (id : String) (change : Figure → Figure)
    (sought : String) :
    (display.changeFigure id change).figures.contains sought =
      display.figures.contains sought := by
  unfold changeFigure
  split
  · next figure found =>
      simp only [Dict.contains, Dict.get?_insert]
      split
      · next same => simp [same, found]
      · rfl
  · rfl

theorem contains_figures (cues : List Cue) (display : Display) (id : String) :
    (cues.foldl follow display).figures.contains id = true ↔
      display.figures.contains id = true ∨
        ∃ asset side, Cue.showCharacter id asset side ∈ cues := by
  induction cues generalizing display with
  | nil => simp
  | cons cue cues ih =>
      rw [List.foldl_cons, ih]
      cases cue with
      | showCharacter shown asset side =>
          have contains : (display.follow (.showCharacter shown asset side)).figures.contains id =
              true ↔ id = shown ∨ display.figures.contains id = true := by
            simp only [follow, Dict.contains, Dict.get?_insert]
            split <;> simp [*]
          rw [contains]
          simp only [List.mem_cons, Cue.showCharacter.injEq]
          grind
      | hideCharacter hidden => simp [follow, contains_changeFigure]
      | characterState changed asset => simp [follow, contains_changeFigure]
      | _ => simp [follow]

end Display

namespace Interpreter

def display (interpreter : Interpreter) : Display :=
  interpreter.cues.foldl Display.follow .blank

theorem display_eq_of_cues {before after : Interpreter} (cues : after.cues = before.cues) :
    after.display = before.display := by
  rw [display, cues, display]

section Effects

variable (interpreter : Interpreter)

@[simp] theorem display_give (cue : Cue) :
    (interpreter.give cue).display = interpreter.display.follow cue := by
  simp [display, cues, Event.cue?]

@[simp] theorem display_note (noted : Note) :
    (interpreter.note noted).display = interpreter.display :=
  display_eq_of_cues (cues_eq_of_history rfl)

@[simp] theorem display_report (diagnostic : Diagnostic) :
    (interpreter.report diagnostic).display = interpreter.display :=
  display_eq_of_cues (cues_eq_of_history rfl)

theorem reset_cues (script : Script) :
    (interpreter.reset script).cues = interpreter.cues := by
  simp [cues, reset, List.filterMap_map, Function.comp_def, Event.cue?]

theorem display_requestMusic (stage : Stage) (asset : String) (looping : Bool) :
    (interpreter.requestMusic stage asset looping).display =
      interpreter.display.follow (.playAudio asset looping) := by
  simp only [requestMusic]
  split <;> simp

end Effects

/-- The backdrop, the figures and the music on display are those of the scene. -/
structure InStep (table : AssetTable) (display : Display) (scene : Scene) : Prop where
  backdrop : display.backdrop = scene.background
  figures : display.figures = scene.characters.map fun id sprite => sprite.figure table id
  music : display.music = scene.audio

theorem InStep.lines {table : AssetTable} {display : Display} {scene : Scene}
    (kept : InStep table display scene) (dialogue line : Option Dialogue)
    (choices : Option (List String)) :
    InStep table { display with dialogue := dialogue, choices := choices }
      { scene with dialogue := line } :=
  ⟨kept.backdrop, kept.figures, kept.music⟩

structure Kept (table : AssetTable) (before after : Interpreter) : Prop where
  inStep : InStep table before.display before.scene → InStep table after.display after.scene
  dialogue : after.display.dialogue = before.display.dialogue
  choices : after.display.choices = before.display.choices
  line : after.scene.dialogue = before.scene.dialogue

namespace Kept

variable {table : AssetTable} {before after : Interpreter}

theorem of_same (display : after.display = before.display) (scene : after.scene = before.scene) :
    Kept table before after := by
  constructor
  · rw [display, scene]
    exact id
  · rw [display]
  · rw [display]
  · rw [scene]

theorem refl (interpreter : Interpreter) : Kept table interpreter interpreter :=
  of_same rfl rfl

theorem trans {first second third : Interpreter} (before : Kept table first second)
    (after : Kept table second third) : Kept table first third :=
  ⟨after.inStep ∘ before.inStep, after.dialogue.trans before.dialogue,
    after.choices.trans before.choices, after.line.trans before.line⟩

theorem report (diagnostic : Diagnostic) (interpreter : Interpreter) :
    Kept table interpreter (interpreter.report diagnostic) :=
  of_same (display_report _ _) rfl

theorem backdrop (change : Backdrop → Backdrop)
    (display : after.display =
      { before.display with backdrop := change before.display.backdrop })
    (scene : after.scene =
      { before.scene with background := change before.scene.background }) :
    Kept table before after := by
  constructor
  · intro kept
    rw [display, scene]
    exact ⟨congrArg change kept.backdrop, kept.figures, kept.music⟩
  · rw [display]
  · rw [display]
  · rw [scene]

theorem music (change : Music → Music)
    (display : after.display = { before.display with music := change before.display.music })
    (scene : after.scene = { before.scene with audio := change before.scene.audio }) :
    Kept table before after := by
  constructor
  · intro kept
    rw [display, scene]
    exact ⟨kept.backdrop, kept.figures, congrArg change kept.music⟩
  · rw [display]
  · rw [display]
  · rw [scene]

theorem figure {id : String} {sprite : Sprite} {figures : Dict Figure}
    (display : after.display = { before.display with figures := figures })
    (inserted : InStep table before.display before.scene →
      figures = before.display.figures.insert id (sprite.figure table id))
    (scene : after.scene =
      { before.scene with characters := before.scene.characters.insert id sprite }) :
    Kept table before after := by
  constructor
  · intro kept
    rw [display, scene]
    refine ⟨kept.backdrop, ?_, kept.music⟩
    simp only [inserted kept, kept.figures, Dict.map_insert]
  · rw [display]
  · rw [display]
  · rw [scene]

end Kept

section Handlers

variable (stage : Stage) (offset : Nat) (id : String) (interpreter : Interpreter)

theorem assetOrLiteral_kept (kind : String) (asset : Option String) :
    Kept stage.table interpreter (interpreter.assetOrLiteral kind id asset).2 := by
  cases asset with
  | some asset => exact .refl _
  | none => exact .report _ _

theorem assetOrLiteral_asset (kind : String) (asset : Option String) :
    (interpreter.assetOrLiteral kind id asset).1 = asset.getD id := by
  cases asset <;> rfl

theorem showBackdrop_kept (visible : Option Bool) :
    Kept stage.table interpreter (interpreter.showBackdrop visible) := by
  cases visible with
  | none => exact .refl _
  | some visible =>
      exact .backdrop (fun backdrop => { backdrop with visible := visible }) (display_give ..) rfl

theorem changeBackdrop_kept (image : Option String) :
    Kept stage.table interpreter (interpreter.changeBackdrop stage image) := by
  cases image with
  | none => exact .refl _
  | some id =>
      let resolved := interpreter.assetOrLiteral "background" id (stage.table.background id)
      have kept : Kept stage.table interpreter resolved.2 := assetOrLiteral_kept ..
      refine kept.trans ?_
      exact .backdrop (fun backdrop => { backdrop with image := some resolved.1 })
        (display_give ..) rfl

theorem spriteAsset_kept (state : Option String) :
    Kept stage.table interpreter (interpreter.spriteAsset stage id state).2 := by
  cases state with
  | none => exact .refl _
  | some state => exact assetOrLiteral_kept ..

theorem stateAsset_asset (state : String) :
    (interpreter.stateAsset stage id state).1 = (stage.table.stateAsset id state).getD state :=
  assetOrLiteral_asset ..

theorem spriteAsset_asset (sprite : Sprite) :
    (interpreter.spriteAsset stage id sprite.state).1 = sprite.asset stage.table id := by
  obtain ⟨_, state, _⟩ := sprite
  cases state with
  | none => rfl
  | some state => exact congrArg some (stateAsset_asset ..)

theorem showCharacter_kept (state : Option String) (side : Option Side) :
    Kept stage.table interpreter (interpreter.showCharacter stage offset id state side) := by
  let known :=
    if stage.table.hasCharacter id then interpreter
    else interpreter.report (.unknownCharacter id offset)
  let sprite : Sprite := ⟨true, state <|> stage.table.firstState id, side.getD .center⟩
  let resolved := known.spriteAsset stage id sprite.state
  have reported : Kept stage.table interpreter known := by
    unfold known
    split
    · exact .refl _
    · exact .report _ _
  have kept : Kept stage.table known resolved.2 := spriteAsset_kept ..
  refine (reported.trans kept).trans ?_
  refine .figure (display_give ..) (fun _ => ?_) rfl
  have asset : resolved.1 = sprite.asset stage.table id := spriteAsset_asset ..
  show resolved.2.display.figures.insert id ⟨true, resolved.1, sprite.side⟩ = _
  rw [asset]
  rfl

theorem hideCharacter_kept :
    Kept stage.table interpreter (interpreter.hideCharacter offset id) := by
  unfold hideCharacter
  split
  · exact .report _ _
  · next sprite found =>
      refine .figure ((display_give ..).trans (Display.changeFigure_eq ..)) (fun kept => ?_) rfl
      have figure : interpreter.display.figures.get? id =
          some (sprite.figure stage.table id) := by
        rw [kept.figures, Dict.get?_map, found]
        rfl
      rw [Display.changeFigure_figures figure]
      rfl

theorem changeCharacter_kept (state : Option String) :
    Kept stage.table interpreter (interpreter.changeCharacter stage offset id state) := by
  unfold changeCharacter
  split
  · exact .report _ _
  · exact .report _ _
  · next state sprite found =>
      let resolved := interpreter.stateAsset stage id state
      have kept : Kept stage.table interpreter resolved.2 := assetOrLiteral_kept ..
      have scene : resolved.2.scene = interpreter.scene := by
        unfold resolved stateAsset assetOrLiteral
        split <;> rfl
      refine kept.trans ?_
      refine .figure ((display_give ..).trans (Display.changeFigure_eq ..)) (fun kept => ?_) rfl
      have figure : resolved.2.display.figures.get? id =
          some (sprite.figure stage.table id) := by
        rw [kept.figures, Dict.get?_map, scene, found]
        rfl
      rw [Display.changeFigure_figures figure, stateAsset_asset]
      rfl

theorem playMusic_kept (track : Option String) (looping : Option Bool) :
    Kept stage.table interpreter (interpreter.playMusic stage offset track looping) := by
  cases track with
  | none => exact .report _ _
  | some track =>
      let resolved := interpreter.assetOrLiteral "audio" track (stage.table.audio track)
      let looping := looping.getD stage.settings.loopByDefault
      have kept : Kept stage.table interpreter resolved.2 := assetOrLiteral_kept ..
      refine kept.trans ?_
      let noted := resolved.2.note (.playing resolved.1 looping)
      let asked := noted.requestMusic stage resolved.1 looping
      have display : asked.display = noted.display.follow (.playAudio resolved.1 looping) :=
        display_requestMusic ..
      have scene : asked.scene = noted.scene := requestMusic_scene ..
      rw [display_note] at display
      refine .music (fun _ => ⟨some resolved.1, looping, .playing⟩) display ?_
      show { asked.scene with audio := ⟨some resolved.1, looping, .playing⟩ } = _
      rw [scene]
      rfl

theorem actCharacter_kept (action : CharacterAction) (state : Option String)
    (side : Option Side) (wait : Option UInt64) : Kept stage.table interpreter
      (interpreter.actCharacter stage offset id action state side wait).2 := by
  cases action with
  | shown => exact (showCharacter_kept ..).trans (.of_same rfl rfl)
  | hidden => exact (hideCharacter_kept ..).trans (.of_same rfl rfl)
  | setState => exact (changeCharacter_kept ..).trans (.of_same rfl rfl)

theorem actMusic_kept (action : MusicAction) (track : Option String) (looping : Option Bool) :
    Kept stage.table interpreter
      (interpreter.actMusic stage offset action track looping).2 := by
  cases action with
  | play => exact (playMusic_kept ..).trans (.of_same rfl rfl)
  | stop => exact .music Music.stop (display_give ..) rfl
  | pause => exact .music Music.pause (display_give ..) rfl

theorem settles_kept {instruction : Instruction} (settles : instruction.settles) :
    Kept stage.table interpreter (interpreter.execute stage offset instruction).2 := by
  cases instruction with
  | background visible image delay =>
      exact ((showBackdrop_kept ..).trans (changeBackdrop_kept ..)).trans (.of_same rfl rfl)
  | character id action state side delay => exact actCharacter_kept ..
  | music action track looping => exact actMusic_kept ..
  | wait duration => exact .of_same rfl rfl
  | _ => cases settles

end Handlers

end Interpreter

end VisualNovel
