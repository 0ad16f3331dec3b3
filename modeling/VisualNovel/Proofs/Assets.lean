import Mathlib.Data.List.Forall2
import VisualNovel.Proofs.Playback

/-!
Assets: what a table knows makes no difference to the course of a run. On stages with different
tables the same instructions are executed, the same is waited for and handed back, and the same is
shown but for names, assets and the states in which characters are first shown.

Main statement: `assets_unnoticed`, for all operations.
-/

namespace VisualNovel

/-! ## Without names and assets -/

def Cue.unnamed : Cue → Cue
  | backgroundImage _ => backgroundImage ""
  | showCharacter id _ side => showCharacter id none side
  | characterState id _ => characterState id ""
  | showDialogue speaker => showDialogue (speaker.map fun _ => "")
  | playAudio _ looping => playAudio "" looping
  | cue => cue

def Sprite.unnamed (sprite : Sprite) : Sprite :=
  { sprite with state := none }

def Backdrop.unnamed (backdrop : Backdrop) : Backdrop :=
  { backdrop with image := backdrop.image.map fun _ => "" }

def Music.unnamed (music : Music) : Music :=
  { music with track := music.track.map fun _ => "" }

def Dialogue.unnamed (dialogue : Dialogue) : Dialogue :=
  { dialogue with speaker := dialogue.speaker.map fun _ => "" }

/-- Only the names are left out: which characters there are, visible or not and on which side,
whether the backdrop is visible, how the music plays and what is said is kept. -/
def Scene.unnamed (scene : Scene) : Scene where
  characters := scene.characters.map fun _ sprite => sprite.unnamed
  background := scene.background.unnamed
  audio := scene.audio.unnamed
  dialogue := scene.dialogue.map Dialogue.unnamed

theorem Music.unnamed_pause (music : Music) : music.pause.unnamed = music.unnamed.pause := by
  unfold pause
  split
  · next playing => exact (if_pos playing).symm
  · next silent => exact (if_neg silent).symm

theorem Scene.unnamed_pause (scene : Scene) :
    Scene.unnamed { scene with audio := scene.audio.pause } =
      { scene.unnamed with audio := scene.unnamed.audio.pause } := by
  simp only [unnamed, Music.unnamed_pause]

def SavePoint.unnamed (save : SavePoint) : SavePoint :=
  { save with scene := save.scene.unnamed }

/-- The characters are in the same states, but for states that each table chose for a character that
was shown without one. -/
def FiguresAlike (first second : AssetTable) (figures others : Dict Sprite) : Prop :=
  ∀ id sprite other, figures.get? id = some sprite → others.get? id = some other →
    sprite.state = other.state ∨
      sprite.state = first.firstState id ∧ other.state = second.firstState id

theorem figuresAlike_refl (first second : AssetTable) (figures : Dict Sprite) :
    FiguresAlike first second figures figures := by
  intro id sprite other found found'
  rw [found] at found'
  cases found'
  exact .inl rfl

theorem FiguresAlike.insert {first second : AssetTable} {figures others : Dict Sprite}
    (alike : FiguresAlike first second figures others) {id : String} {sprite other : Sprite}
    (states : sprite.state = other.state ∨
      sprite.state = first.firstState id ∧ other.state = second.firstState id) :
    FiguresAlike first second (figures.insert id sprite) (others.insert id other) := by
  intro sought sprite' other' found found'
  rw [Dict.get?_insert] at found found'
  split at found
  · next same =>
      rw [if_pos same] at found'
      cases found
      cases found'
      rwa [same]
  · next differs =>
      rw [if_neg differs] at found'
      exact alike _ _ _ found found'

/-- The same is done with either table. Each run may restore save points of its own. -/
inductive Operation.Alike (first second : AssetTable) : Operation → Operation → Prop where
  | same (operation : Operation) : Alike first second operation operation
  | restore (script : Script) {save save' : SavePoint} : save.unnamed = save'.unnamed →
      FiguresAlike first second save.scene.characters save'.scene.characters →
      Alike first second (.restore script save) (.restore script save')

def Diagnostic.ofScript : Diagnostic → Bool
  | unknownLabel .. | missingField .. | unknownInstruction _ | stalled _ => true
  | _ => false

namespace Interpreter

def Impression.unnamed (impression : Impression) : Impression where
  script := impression.script
  scene := impression.scene.unnamed
  cues := impression.cues.map Cue.unnamed
  diagnostics := impression.diagnostics.filter (·.ofScript)

structure SameUnnamed (first second : AssetTable) (here there : Content) : Prop where
  impression : here.impression.unnamed = there.impression.unnamed
  figures : FiguresAlike first second here.scene.characters there.scene.characters

section Impressions

variable (interpreter : Interpreter)

theorem unnamed_give (cue : Cue) : (interpreter.give cue).content.impression.unnamed =
    { interpreter.content.impression.unnamed with
      cues := interpreter.content.impression.unnamed.cues ++ [cue.unnamed] } := by
  simp [impression_give, Impression.unnamed]

theorem unnamed_report (diagnostic : Diagnostic) :
    (interpreter.report diagnostic).content.impression.unnamed =
      { interpreter.content.impression.unnamed with
        diagnostics := interpreter.content.impression.unnamed.diagnostics
          ++ [diagnostic].filter (·.ofScript) } := by
  cases diagnostic <;>
    simp [impression_report, Impression.unnamed, Diagnostic.ofPlayback, Diagnostic.ofScript]

end Impressions

theorem parallel_unnamed (first second : AssetTable) : Parallel (SameUnnamed first second) where
  give cue same := ⟨by rw [unnamed_give, unnamed_give, same.impression], same.figures⟩
  note noted same := ⟨by simpa only [impression_note] using same.impression, same.figures⟩
  report diagnostic same :=
    ⟨by rw [unnamed_report, unnamed_report, same.impression], same.figures⟩
  reset {here there} script same := by
    have cues : (here.reset script).cues.map Cue.unnamed =
        (there.reset script).cues.map Cue.unnamed := by
      rw [reset_cues, reset_cues]
      exact congrArg Impression.cues same.impression
    exact ⟨congrArg (fun cues => Impression.mk script Scene.blank.unnamed cues []) cues,
      figuresAlike_refl _ _ _⟩
  scene {here there} scene same :=
    ⟨congrArg (fun seen : Impression => { seen with scene := scene.unnamed }) same.impression,
      figuresAlike_refl _ _ _⟩

/-! ## What is overlooked -/

structure Overlooked (before after : Interpreter) : Prop extends Shown before after where
  impression : after.content.impression.unnamed = before.content.impression.unnamed

namespace Overlooked

theorem refl (interpreter : Interpreter) : Overlooked interpreter interpreter :=
  ⟨⟨.refl _, rfl⟩, rfl⟩

theorem trans {first second third : Interpreter} (before : Overlooked first second)
    (after : Overlooked second third) : Overlooked first third :=
  ⟨⟨before.toStaged.trans after.toStaged, after.scene.trans before.scene⟩,
    after.impression.trans before.impression⟩

theorem report {diagnostic : Diagnostic} (resource : diagnostic.ofScript = false)
    (interpreter : Interpreter) : Overlooked interpreter (interpreter.report diagnostic) :=
  ⟨⟨.report _ _, rfl⟩, by simp [unnamed_report, resource]⟩

theorem note {noted : Note} (silent : (Event.note noted).beginsTimer = false)
    (interpreter : Interpreter) : Overlooked interpreter (interpreter.note noted) :=
  ⟨⟨.note silent _, rfl⟩, by rw [impression_note]⟩

variable (interpreter : Interpreter)

theorem assetOrLiteral (kind id : String) (asset : Option String) :
    Overlooked interpreter (interpreter.assetOrLiteral kind id asset).2 := by
  cases asset with
  | some asset => exact refl _
  | none => exact report rfl _

theorem stateAsset (stage : Stage) (id state : String) :
    Overlooked interpreter (interpreter.stateAsset stage id state).2 :=
  assetOrLiteral ..

theorem spriteAsset (stage : Stage) (id : String) (state : Option String) :
    Overlooked interpreter (interpreter.spriteAsset stage id state).2 := by
  cases state with
  | none => exact refl _
  | some state => exact stateAsset ..

theorem requestMusic (stage : Stage) (asset : String) (looping : Bool) :
    Overlooked (interpreter.give (.playAudio asset looping))
      (interpreter.requestMusic stage asset looping) := by
  simp only [Interpreter.requestMusic]
  split
  · exact refl _
  · exact report rfl _

end Overlooked

/-! ## Scenes that differ in names -/

section Scenes

variable {scene other : Scene}

theorem figure_unnamed (same : scene.unnamed = other.unnamed) (id : String)
    {sprite sprite' : Sprite} (alike : sprite.unnamed = sprite'.unnamed) :
    Scene.unnamed { scene with characters := scene.characters.insert id sprite } =
      Scene.unnamed { other with characters := other.characters.insert id sprite' } := by
  have inserted : ({ scene.unnamed with
        characters := scene.unnamed.characters.insert id sprite.unnamed } : Scene) =
      { other.unnamed with
        characters := other.unnamed.characters.insert id sprite'.unnamed } := by rw [same, alike]
  simpa only [Scene.unnamed, Dict.map_insert] using inserted

theorem get?_unnamed (same : scene.unnamed = other.unnamed) (id : String) :
    (scene.characters.get? id).map Sprite.unnamed =
      (other.characters.get? id).map Sprite.unnamed := by
  have found := congrArg (fun seen : Scene => seen.characters.get? id) same
  simpa only [Scene.unnamed, Dict.get?_map] using found

end Scenes

/-! ## Stages that differ in what their tables know -/

section Unnamed

variable {first second : AssetTable} {settings : Settings} {playback : Playback}
  {here there : Interpreter} (abreast : Abreast (SameUnnamed first second) here there)
include abreast

theorem unnamed_of_abreast :
    here.content.impression.unnamed = there.content.impression.unnamed :=
  abreast.content.impression

theorem scene_of_abreast : here.scene.unnamed = there.scene.unnamed :=
  congrArg Impression.scene abreast.content.impression

theorem overlook {here' there' : Interpreter} (overlooked : Overlooked here here')
    (overlooked' : Overlooked there there') : Abreast (SameUnnamed first second) here' there' := by
  refine abreast.of_staged overlooked.toStaged overlooked'.toStaged ⟨?_, ?_⟩
  · rw [overlooked.impression, overlooked'.impression, unnamed_of_abreast abreast]
  · show FiguresAlike first second here'.scene.characters there'.scene.characters
    rw [overlooked.scene, overlooked'.scene]
    exact abreast.content.figures

theorem gives_unnamed {cue other : Cue} (same : cue.unnamed = other.unnamed) :
    Abreast (SameUnnamed first second) (here.give cue) (there.give other) := by
  refine { abreast with content := ⟨?_, abreast.content.figures⟩ }
  rw [unnamed_give, unnamed_give, unnamed_of_abreast abreast, same]

theorem scene_unnamed {scene other : Scene} (same : scene.unnamed = other.unnamed)
    (figures : FiguresAlike first second scene.characters other.characters) :
    Abreast (SameUnnamed first second) { here with scene := scene }
      { there with scene := other } := by
  refine { abreast with content := ⟨?_, figures⟩ }
  show ({ here.content.impression.unnamed with scene := scene.unnamed } : Impression) =
    { there.content.impression.unnamed with scene := other.unnamed }
  rw [unnamed_of_abreast abreast, same]

theorem performs_unnamed {cue cue' : Cue} (cues : cue.unnamed = cue'.unnamed) {scene scene' : Scene}
    (scenes : scene.unnamed = scene'.unnamed)
    (figures : FiguresAlike first second scene.characters scene'.characters) :
    Abreast (SameUnnamed first second) { here.give cue with scene := scene }
      { there.give cue' with scene := scene' } :=
  scene_unnamed (gives_unnamed abreast cues) scenes figures

theorem requestMusic_unnamed {stage stage' : Stage} (asset asset' : String) (looping : Bool) :
    Abreast (SameUnnamed first second) (here.requestMusic stage asset looping)
      (there.requestMusic stage' asset' looping) := by
  have asked : Abreast (SameUnnamed first second) (here.give (.playAudio asset looping))
      (there.give (.playAudio asset' looping)) := gives_unnamed abreast rfl
  exact overlook asked (.requestMusic ..) (.requestMusic ..)

theorem say_unnamed (offset : Nat) (speaker : Option String) (text : String) :
    FlowsAlike Eq (SameUnnamed first second)
      (here.say ⟨first, settings, playback⟩ offset speaker text)
      (there.say ⟨second, settings, playback⟩ offset speaker text) := by
  have told (name name' : Option String)
      (named : name.map (fun _ => "") = name'.map (fun _ => "")) :
      Abreast (SameUnnamed first second)
        { here.give (.showDialogue name) with scene.dialogue := some ⟨name, text⟩ }
        { there.give (.showDialogue name') with scene.dialogue := some ⟨name', text⟩ } := by
    refine performs_unnamed abreast ?_ ?_ abreast.content.figures
    · exact congrArg Cue.showDialogue named
    · have spoken : ({ here.scene.unnamed with
            dialogue := some ⟨name.map fun _ => "", text⟩ } : Scene) =
          { there.scene.unnamed with dialogue := some ⟨name'.map fun _ => "", text⟩ } := by
        rw [scene_of_abreast abreast, named]
      exact spoken
  have names : (speaker.map fun id => (first.characterName id).getD id).map (fun _ => "") =
      (speaker.map fun id => (second.characterName id).getD id).map (fun _ => "") := by
    simp only [Option.map_map, Function.comp_def]
  unfold say Reveal.start
  rw [← abreast.run, ← abreast.reveal]
  exact .yield rfl { told _ _ names with reveal := rfl, run := abreast.run }

theorem showBackdrop_unnamed (visible : Option Bool) :
    Abreast (SameUnnamed first second) (here.showBackdrop visible)
      (there.showBackdrop visible) := by
  cases visible with
  | none => exact abreast
  | some visible =>
      refine performs_unnamed abreast ?_ ?_ abreast.content.figures
      · rfl
      · exact congrArg (fun seen : Scene => { seen with background.visible := visible })
          (scene_of_abreast abreast)

theorem changeBackdrop_unnamed (image : Option String) :
    Abreast (SameUnnamed first second) (here.changeBackdrop ⟨first, settings, playback⟩ image)
      (there.changeBackdrop ⟨second, settings, playback⟩ image) := by
  cases image with
  | none => exact abreast
  | some id =>
      have resolved := overlook abreast (.assetOrLiteral here "background" id (first.background id))
        (.assetOrLiteral there "background" id (second.background id))
      refine performs_unnamed resolved ?_ ?_ resolved.content.figures
      · rfl
      · exact congrArg (fun seen : Scene => { seen with background.image := some "" })
          (scene_of_abreast resolved)

theorem showCharacter_unnamed (offset : Nat) (id : String) (state : Option String)
    (side : Option Side) :
    Abreast (SameUnnamed first second)
      (here.showCharacter ⟨first, settings, playback⟩ offset id state side)
      (there.showCharacter ⟨second, settings, playback⟩ offset id state side) := by
  have known (table : AssetTable) (interpreter : Interpreter) : Overlooked interpreter
      (if table.hasCharacter id then interpreter
        else interpreter.report (.unknownCharacter id offset)) := by
    split
    · exact .refl _
    · exact .report rfl _
  have resolved := overlook abreast
    ((known first here).trans (.spriteAsset _ ⟨first, settings, playback⟩ id
      (state <|> first.firstState id)))
    ((known second there).trans (.spriteAsset _ ⟨second, settings, playback⟩ id
      (state <|> second.firstState id)))
  have states : (state <|> first.firstState id) = (state <|> second.firstState id) ∨
      (state <|> first.firstState id) = first.firstState id ∧
        (state <|> second.firstState id) = second.firstState id := by
    cases state with
    | none => exact .inr ⟨rfl, rfl⟩
    | some state => exact .inl rfl
  refine performs_unnamed resolved ?_ ?_ (resolved.content.figures.insert states)
  · rfl
  · exact figure_unnamed (scene_of_abreast resolved) id rfl

theorem hideCharacter_unnamed (offset : Nat) (id : String) :
    Abreast (SameUnnamed first second) (here.hideCharacter offset id)
      (there.hideCharacter offset id) := by
  have scenes := scene_of_abreast abreast
  have figures := abreast.content.figures
  have same := get?_unnamed scenes id
  unfold hideCharacter
  cases found : here.scene.characters.get? id <;> cases found' : there.scene.characters.get? id <;>
    rw [found, found'] at same
  case none.none => exact overlook abreast (.report rfl _) (.report rfl _)
  case some.some sprite sprite' =>
    have hidden := congrArg (fun sprite : Sprite => { sprite with visible := false })
      (Option.some.inj same)
    exact performs_unnamed abreast rfl (figure_unnamed scenes id hidden)
      (figures.insert (figures id sprite sprite' found found'))
  all_goals cases same

theorem changeCharacter_unnamed (offset : Nat) (id : String) (state : Option String) :
    Abreast (SameUnnamed first second)
      (here.changeCharacter ⟨first, settings, playback⟩ offset id state)
      (there.changeCharacter ⟨second, settings, playback⟩ offset id state) := by
  cases state with
  | none => exact (parallel_unnamed first second).reports abreast _
  | some state =>
      have same := get?_unnamed (scene_of_abreast abreast) id
      unfold changeCharacter
      cases found : here.scene.characters.get? id <;>
        cases found' : there.scene.characters.get? id <;> rw [found, found'] at same
      case none.none => exact overlook abreast (.report rfl _) (.report rfl _)
      case some.some sprite sprite' =>
        have resolved := overlook abreast
          (.stateAsset here ⟨first, settings, playback⟩ id state)
          (.stateAsset there ⟨second, settings, playback⟩ id state)
        have alike : sprite.unnamed = sprite'.unnamed := Option.some.inj same
        refine performs_unnamed resolved ?_ ?_ (resolved.content.figures.insert (.inl rfl))
        · rfl
        · exact figure_unnamed (scene_of_abreast resolved) id alike
      all_goals cases same

theorem plays_unnamed {stage stage' : Stage} (asset asset' : String) (looping : Bool) :
    Abreast (SameUnnamed first second)
      { (here.note (.playing asset looping)).requestMusic stage asset looping with
        scene.audio := ⟨some asset, looping, .playing⟩ }
      { (there.note (.playing asset' looping)).requestMusic stage' asset' looping with
        scene.audio := ⟨some asset', looping, .playing⟩ } := by
  have noted : Abreast (SameUnnamed first second) (here.note (.playing asset looping))
      (there.note (.playing asset' looping)) :=
    overlook abreast (.note rfl _) (.note rfl _)
  have asked : Abreast (SameUnnamed first second)
      ((here.note (.playing asset looping)).requestMusic stage asset looping)
      ((there.note (.playing asset' looping)).requestMusic stage' asset' looping) :=
    requestMusic_unnamed noted ..
  exact scene_unnamed asked (congrArg
    (fun seen : Scene => { seen with audio := ⟨some "", looping, .playing⟩ })
    (scene_of_abreast asked)) asked.content.figures

theorem playMusic_unnamed (offset : Nat) (track : Option String) (looping : Option Bool) :
    Abreast (SameUnnamed first second)
      (here.playMusic ⟨first, settings, playback⟩ offset track looping)
      (there.playMusic ⟨second, settings, playback⟩ offset track looping) := by
  cases track with
  | none => exact (parallel_unnamed first second).reports abreast _
  | some id =>
      have resolved := overlook abreast (.assetOrLiteral here "audio" id (first.audio id))
        (.assetOrLiteral there "audio" id (second.audio id))
      exact plays_unnamed resolved ..

theorem actMusic_unnamed (offset : Nat) (action : MusicAction) (track : Option String)
    (looping : Option Bool) :
    FlowsAlike Eq (SameUnnamed first second)
      (here.actMusic ⟨first, settings, playback⟩ offset action track looping)
      (there.actMusic ⟨second, settings, playback⟩ offset action track looping) := by
  have scenes := scene_of_abreast abreast
  refine Abreast.settle ?_ fun _ => rfl
  cases action with
  | play => exact playMusic_unnamed abreast offset track looping
  | stop =>
      exact performs_unnamed abreast rfl
        (congrArg (fun seen : Scene => { seen with audio := seen.audio.stop }) scenes)
        abreast.content.figures
  | pause =>
      refine performs_unnamed abreast rfl ?_ abreast.content.figures
      have paused := congrArg (fun seen : Scene => { seen with audio := seen.audio.pause }) scenes
      exact (here.scene.unnamed_pause).trans (paused.trans there.scene.unnamed_pause.symm)

theorem actCharacter_unnamed (offset : Nat) (id : String) (action : CharacterAction)
    (state : Option String) (side : Option Side) (wait : Option UInt64) :
    FlowsAlike Eq (SameUnnamed first second)
      (here.actCharacter ⟨first, settings, playback⟩ offset id action state side wait)
      (there.actCharacter ⟨second, settings, playback⟩ offset id action state side wait) := by
  refine Abreast.settle ?_ fun _ => rfl
  cases action with
  | shown => exact showCharacter_unnamed abreast offset id state side
  | hidden => exact hideCharacter_unnamed abreast offset id
  | setState => exact changeCharacter_unnamed abreast offset id state

theorem execute_unnamed (offset : Nat) {instruction : Instruction}
    (settles : instruction.settles) :
    FlowsAlike Eq (SameUnnamed first second)
      (here.execute ⟨first, settings, playback⟩ offset instruction)
      (there.execute ⟨second, settings, playback⟩ offset instruction) := by
  cases instruction with
  | background visible image delay =>
      have shown := showBackdrop_unnamed abreast visible
      exact (changeBackdrop_unnamed shown image).settle fun _ => rfl
  | character id action state side delay => exact actCharacter_unnamed abreast ..
  | wait duration => exact abreast.settle fun _ => rfl
  | music action track looping => exact actMusic_unnamed abreast ..
  | _ => cases settles

/-! ## Restoring -/

theorem replayBackdrop_unnamed {backdrop backdrop' : Backdrop}
    (same : backdrop.unnamed = backdrop'.unnamed) :
    Abreast (SameUnnamed first second) (here.replayBackdrop backdrop)
      (there.replayBackdrop backdrop') := by
  obtain ⟨visible, image⟩ := backdrop
  obtain ⟨visible', image'⟩ := backdrop'
  simp only [Backdrop.unnamed, Backdrop.mk.injEq] at same
  obtain ⟨rfl, images⟩ := same
  have shown := (parallel_unnamed first second).gives abreast (.backgroundVisible visible)
  cases image with
  | none =>
      cases image' with
      | none => exact shown
      | some image' => cases images
  | some image =>
      cases image' with
      | none => cases images
      | some image' => exact gives_unnamed shown rfl

theorem replaySprite_unnamed {entry entry' : String × Sprite}
    (same : (entry.1, entry.2.unnamed) = (entry'.1, entry'.2.unnamed)) :
    Abreast (SameUnnamed first second) (here.replaySprite first entry)
      (there.replaySprite second entry') := by
  obtain ⟨id, visible, state, side⟩ := entry
  obtain ⟨id', visible', state', side'⟩ := entry'
  simp only [Sprite.unnamed, Prod.mk.injEq, Sprite.mk.injEq, true_and] at same
  obtain ⟨rfl, rfl, rfl⟩ := same
  cases visible with
  | false => exact abreast
  | true => exact gives_unnamed abreast rfl

theorem replayMusic_unnamed {stage stage' : Stage} {music music' : Music}
    (same : music.unnamed = music'.unnamed) :
    Abreast (SameUnnamed first second) (here.replayMusic stage music)
      (there.replayMusic stage' music') := by
  obtain ⟨track, looping, status⟩ := music
  obtain ⟨track', looping', status'⟩ := music'
  simp only [Music.unnamed, Music.mk.injEq] at same
  obtain ⟨tracks, rfl, rfl⟩ := same
  cases track with
  | none =>
      cases track' with
      | none => exact abreast
      | some track' => cases tracks
  | some track =>
      cases track' with
      | none => cases tracks
      | some track' =>
          cases status with
          | stopped => exact abreast
          | playing => exact requestMusic_unnamed abreast ..
          | paused =>
              have parallel := parallel_unnamed first second
              exact parallel.gives (requestMusic_unnamed abreast ..) .pauseAudio

theorem replayDialogue_unnamed {dialogue dialogue' : Option Dialogue}
    (same : dialogue.map Dialogue.unnamed = dialogue'.map Dialogue.unnamed) :
    Abreast (SameUnnamed first second) (here.replayDialogue dialogue)
      (there.replayDialogue dialogue') := by
  cases dialogue with
  | none =>
      cases dialogue' with
      | none => exact abreast
      | some dialogue' => cases same
  | some dialogue =>
      cases dialogue' with
      | none => cases same
      | some dialogue' =>
          have alike : dialogue.unnamed = dialogue'.unnamed := Option.some.inj same
          have speakers : dialogue.speaker.map (fun _ => "") =
              dialogue'.speaker.map (fun _ => "") := congrArg Dialogue.speaker alike
          have texts : dialogue.text = dialogue'.text := (congrArg Dialogue.text alike :)
          refine gives_unnamed (gives_unnamed abreast ?_) ?_
          · exact congrArg Cue.showDialogue speakers
          · exact congrArg Cue.dialogueText texts

omit abreast in
theorem replaySprites_unnamed {entries entries' : List (String × Sprite)}
    (same : entries.map (fun entry => (entry.1, entry.2.unnamed)) =
      entries'.map fun entry => (entry.1, entry.2.unnamed))
    {here there : Interpreter} (abreast : Abreast (SameUnnamed first second) here there) :
    Abreast (SameUnnamed first second) (entries.foldl (replaySprite first) here)
      (entries'.foldl (replaySprite second) there) := by
  induction entries generalizing entries' here there with
  | nil =>
      cases entries' with
      | nil => exact abreast
      | cons entry' entries' => cases same
  | cons entry entries ih =>
      cases entries' with
      | nil => cases same
      | cons entry' entries' =>
          obtain ⟨head, tail⟩ := List.cons.inj same
          exact ih tail (replaySprite_unnamed abreast head)

theorem replay_unnamed :
    Abreast (SameUnnamed first second) (here.replay ⟨first, settings, playback⟩)
      (there.replay ⟨second, settings, playback⟩) := by
  have scenes := scene_of_abreast abreast
  have figures := congrArg (fun scene : Scene => scene.characters.entries) scenes
  apply (parallel_unnamed first second).replayChoices
  apply replayDialogue_unnamed _ (congrArg Scene.dialogue scenes)
  apply replayMusic_unnamed _ (congrArg Scene.audio scenes)
  apply replaySprites_unnamed figures
  exact replayBackdrop_unnamed abreast (congrArg Scene.background scenes)

theorem putBack_unnamed (script : Script) {save save' : SavePoint}
    (same : save.unnamed = save'.unnamed)
    (figures : FiguresAlike first second save.scene.characters save'.scene.characters) :
    Abreast (SameUnnamed first second) (here.putBack script save) (there.putBack script save') := by
  obtain ⟨fingerprint, pc, phase, scene, choiceAt⟩ := save
  obtain ⟨fingerprint', pc', phase', scene', choiceAt'⟩ := save'
  simp only [SavePoint.unnamed, SavePoint.mk.injEq] at same
  obtain ⟨rfl, rfl, rfl, scenes, rfl⟩ := same
  have reset := (parallel_unnamed first second).resets abreast script
  unfold putBack
  simp only [← reset.run]
  apply (parallel_unnamed first second).notes
  exact {
    scene_unnamed reset scenes figures with
    pc := rfl
    phase := rfl
    choiceAt := rfl
    run := rfl }

theorem restore_unnamed (script : Script) {save save' : SavePoint}
    (same : save.unnamed = save'.unnamed)
    (figures : FiguresAlike first second save.scene.characters save'.scene.characters) :
    (here.restore ⟨first, settings, playback⟩ script save).1 =
        (there.restore ⟨second, settings, playback⟩ script save').1 ∧
      Abreast (SameUnnamed first second) (here.restore ⟨first, settings, playback⟩ script save).2
        (there.restore ⟨second, settings, playback⟩ script save').2 := by
  have checks : save.step? script = save'.step? script :=
    (congrArg (fun save : SavePoint => save.step? script) same :)
  cases outcome : save.step? script with
  | error refusal =>
      rw [restore_refused here outcome, restore_refused there (checks ▸ outcome)]
      exact ⟨rfl, abreast⟩
  | ok step =>
      rw [restore_eq here outcome, restore_eq there (checks ▸ outcome)]
      exact ⟨rfl, replay_unnamed (putBack_unnamed abreast script same figures)⟩

end Unnamed

/-! ## Runs on two stages -/

theorem lockstep_unnamed (first second : AssetTable) (settings : Settings) (playback : Playback) :
    Lockstep ⟨first, settings, playback⟩ ⟨second, settings, playback⟩ Eq
      (SameUnnamed first second) where
  toParallel := parallel_unnamed first second
  step _ := rfl
  glyph _ := rfl
  say offset speaker text abreast := say_unnamed abreast offset speaker text
  settles {here there instruction other offset} settles found found' _ abreast := by
    have script : here.script = there.script :=
      congrArg Impression.script abreast.content.impression
    rw [script, found'] at found
    cases found
    exact execute_unnamed abreast offset settles
  finish {here there} offset abreast := by
    have parallel := parallel_unnamed first second
    have ended := parallel.gives (parallel.gives (parallel.gives
      (parallel.notes abreast (.finished offset)) .clearChoices) .clearDialogue)
      (.showEnd settings.endText)
    have scenes : Scene.unnamed { here.scene with dialogue := none } =
        Scene.unnamed { there.scene with dialogue := none } :=
      congrArg (fun seen : Scene => { seen with dialogue := none }) (scene_of_abreast abreast)
    have emptied := scene_unnamed ended scenes abreast.content.figures
    exact .yield rfl
      { emptied with
        phase := rfl
        reveal := congrArg Reveal.cancel abreast.reveal
        settling := rfl
        choiceAt := rfl }
  sprite entry abreast := replaySprite_unnamed abreast rfl
  music music abreast := replayMusic_unnamed abreast rfl

/-! ## The course of a run -/

/-- What a table has no influence on; scene, cues and save point without names. -/
structure Course where
  pc : Nat
  phase : Phase
  reveal : Reveal Nat
  pendingChoices : Option (List ChoiceOption)
  scene : Scene
  diagnostics : List Diagnostic
  cues : List Cue
  save : Except Refusal SavePoint

def course (interpreter : Interpreter) : Course where
  pc := interpreter.pc
  phase := interpreter.phase
  reveal := interpreter.reveal
  pendingChoices := interpreter.pendingChoices
  scene := interpreter.scene.unnamed
  diagnostics := interpreter.diagnostics.filter (·.ofScript)
  cues := interpreter.cues.map Cue.unnamed
  save := interpreter.save.map SavePoint.unnamed

/-- The same is handed back, and the runs have come to the same. -/
structure SameCourse (first second : AssetTable) (here there : Answer × Interpreter) : Prop where
  answer : here.1 = there.1
  course : here.2.course = there.2.course
  figures : FiguresAlike first second here.2.scene.characters there.2.scene.characters

def outcomes (stage : Stage) : List Operation → Interpreter → List (Answer × Interpreter)
  | [], _ => []
  | operation :: operations, interpreter =>
      let outcome := interpreter.perform stage operation
      outcome :: outcome.2.outcomes stage operations

section Courses

variable {first second : AssetTable} {settings : Settings} {playback : Playback}
  {here there : Interpreter} (abreast : Abreast (SameUnnamed first second) here there)
include abreast

theorem course_eq : here.course = there.course := by
  have script : here.script = there.script :=
    congrArg Impression.script abreast.content.impression
  have diagnostics (interpreter : Interpreter) :
      interpreter.content.impression.unnamed.diagnostics =
        interpreter.diagnostics.filter (·.ofScript) := by
    simp only [Impression.unnamed, Content.impression, content, List.filter_filter]
    refine List.filter_congr fun diagnostic _ => ?_
    cases diagnostic <;> rfl
  have reported := congrArg Impression.diagnostics (unnamed_of_abreast abreast)
  rw [diagnostics, diagnostics] at reported
  have saved : here.save.map SavePoint.unnamed = there.save.map SavePoint.unnamed := by
    unfold save
    rw [abreast.phase]
    split
    · simp only [Except.map, SavePoint.unnamed, script, abreast.pc, abreast.choiceAt,
        scene_of_abreast abreast]
    · rfl
  simp only [course, abreast.pc, abreast.phase, abreast.reveal, abreast.pendingChoices,
    scene_of_abreast abreast, reported, saved, Course.mk.injEq, true_and, and_true]
  exact congrArg Impression.cues abreast.content.impression

theorem perform_unnamed {operation other : Operation}
    (alike : Operation.Alike first second operation other) :
    (here.perform ⟨first, settings, playback⟩ operation).1 =
        (there.perform ⟨second, settings, playback⟩ other).1 ∧
      Abreast (SameUnnamed first second)
        (here.perform ⟨first, settings, playback⟩ operation).2
        (there.perform ⟨second, settings, playback⟩ other).2 := by
  cases alike with
  | same =>
      have lockstep := lockstep_unnamed first second settings playback
      exact (lockstep.perform abreast operation).imp_left AnswersAlike.eq
  | restore script same figures =>
      obtain ⟨results, restored⟩ := restore_unnamed abreast script same figures
      exact ⟨congrArg Answer.ofResult results, restored⟩

theorem outcomes_unnamed {operations others : List Operation}
    (alike : List.Forall₂ (Operation.Alike first second) operations others) :
    List.Forall₂ (SameCourse first second)
      (here.outcomes ⟨first, settings, playback⟩ operations)
      (there.outcomes ⟨second, settings, playback⟩ others) := by
  induction alike generalizing here there with
  | nil => exact .nil
  | cons head tail ih =>
      obtain ⟨answers, performed⟩ := perform_unnamed abreast head
      exact .cons ⟨answers, course_eq performed, performed.content.figures⟩ (ih performed)

end Courses

/-- Whatever the table knows, the same is handed back by each operation and the run comes to the
same: but for names and assets the scenes differ only in states that the tables chose. -/
theorem assets_unnoticed (stage : Stage) (table : AssetTable) {operations others : List Operation}
    (alike : List.Forall₂ (Operation.Alike stage.table table) operations others)
    (interpreter : Interpreter) :
    List.Forall₂ (SameCourse stage.table table) (interpreter.outcomes stage operations)
      (interpreter.outcomes { stage with table } others) := by
  have begins : Abreast (SameUnnamed stage.table table) interpreter interpreter :=
    ⟨rfl, rfl, rfl, rfl, rfl, rfl, rfl, rfl, rfl, rfl, figuresAlike_refl _ _ _⟩
  exact outcomes_unnamed begins alike

theorem assets_unnoticed_restored :
    let stage : Stage := ⟨{}, .standard, .accepting⟩
    let table : AssetTable :=
      { characterName := fun _ => some "Anna", firstState := fun _ => some "calm" }
    let script : Script := ⟨[.character "anna" .shown none none none, .say (some "anna") "a"]⟩
    let play : List Operation := [.start script, .move (.wake ⟨1, .settle 1⟩),
      .move (.wake ⟨1, .reveal ⟨2⟩⟩)]
    let save (state : Option String) (name : String) : SavePoint :=
      ⟨script.fingerprint, 2, .awaitingAdvance,
        { Scene.blank with
          characters := Dict.empty.insert "anna" ⟨true, state, .center⟩
          dialogue := some ⟨some name, "a"⟩ }, none⟩
    let restores (state : Option String) (name : String) : List Operation :=
      play ++ [.restore script (save state name), .move .advance]
    (fresh.performAll stage play).2.save.toOption = some (save none "anna") ∧
    (fresh.performAll { stage with table } play).2.save.toOption =
      some (save (some "calm") "Anna") ∧
    List.Forall₂ (Operation.Alike stage.table table) (restores none "anna")
      (restores (some "calm") "Anna") ∧
    List.Forall₂ (SameCourse stage.table table) (fresh.outcomes stage (restores none "anna"))
      (fresh.outcomes { stage with table } (restores (some "calm") "Anna")) := by
  intro stage table script play save restores
  have figures : FiguresAlike stage.table table (save none "anna").scene.characters
      (save (some "calm") "Anna").scene.characters :=
    (figuresAlike_refl _ _ Dict.empty).insert (.inr ⟨rfl, rfl⟩)
  have alike : List.Forall₂ (Operation.Alike stage.table table) (restores none "anna")
      (restores (some "calm") "Anna") :=
    .cons (.same _) <| .cons (.same _) <| .cons (.same _) <|
      .cons (.restore script rfl figures) <| .cons (.same _) .nil
  exact ⟨by decide +kernel, by decide +kernel, alike, assets_unnoticed stage table alike fresh⟩

end Interpreter

end VisualNovel
