import VisualNovel.Proofs.Alike
import VisualNovel.Proofs.Display
import VisualNovel.Proofs.Lockstep

namespace VisualNovel

def Diagnostic.ofPlayback : Diagnostic → Bool
  | playbackFailed .. => true
  | _ => false

namespace Interpreter

structure Impression where
  script : Script
  scene : Scene
  cues : List Cue
  diagnostics : List Diagnostic

def Content.impression (content : Content) : Impression where
  script := content.script
  scene := content.scene
  cues := content.history.toList.filterMap Event.cue?
  diagnostics := content.diagnostics.filter (!·.ofPlayback)

def SameImpression (here there : Content) : Prop :=
  here.impression = there.impression

section Impressions

variable (interpreter : Interpreter)

theorem impression_give (cue : Cue) : (interpreter.give cue).content.impression =
    { interpreter.content.impression with
      cues := interpreter.content.impression.cues ++ [cue] } := by
  simp only [content, Content.impression, give_history]
  simp [give, Event.cue?]

theorem impression_note (noted : Note) :
    (interpreter.note noted).content.impression = interpreter.content.impression := by
  simp only [content, Content.impression, note_history]
  simp [note, Event.cue?]

theorem impression_report (diagnostic : Diagnostic) :
    (interpreter.report diagnostic).content.impression =
      { interpreter.content.impression with
        diagnostics := interpreter.content.impression.diagnostics
          ++ [diagnostic].filter (!·.ofPlayback) } := by
  simp [content, Content.impression, report, Event.cue?]

theorem impression_requestMusic (stage : Stage) (asset : String) (looping : Bool) :
    (interpreter.requestMusic stage asset looping).content.impression =
      (interpreter.give (.playAudio asset looping)).content.impression := by
  simp only [requestMusic]
  split
  · rfl
  · simp [impression_report, Diagnostic.ofPlayback]

end Impressions

theorem parallel_impression : Parallel SameImpression where
  give {here there} cue same := by
    have same : here.content.impression = there.content.impression := same
    simp only [SameImpression, impression_give, same]
  note noted same := by
    simpa only [SameImpression, impression_note] using same
  report {here there} diagnostic same := by
    have same : here.content.impression = there.content.impression := same
    simp only [SameImpression, impression_report, same]
  reset {here there} script same := by
    have cues : (here.reset script).cues = (there.reset script).cues := by
      rw [reset_cues, reset_cues]
      exact congrArg Impression.cues same
    exact congrArg (fun cues => Impression.mk script .blank cues []) cues
  scene {here there} scene same := by
    have same : here.impression = there.impression := same
    exact congrArg (fun impression : Impression => { impression with scene }) same

section Stages

variable {table : AssetTable} {settings : Settings} {first second : Playback}
  {here there : Interpreter}

theorem requestMusic_abreast (abreast : Abreast SameImpression here there) (asset : String)
    (looping : Bool) :
    Abreast SameImpression (here.requestMusic ⟨table, settings, first⟩ asset looping)
      (there.requestMusic ⟨table, settings, second⟩ asset looping) := by
  have staged (stage : Stage) (interpreter : Interpreter) :
      Staged interpreter (interpreter.requestMusic stage asset looping) :=
    (requestMusic_cued interpreter stage asset looping fun _ => trivial :
      Cued (fun _ => True) _ _).staged
  have impression : here.content.impression = there.content.impression := abreast.content
  refine abreast.of_staged (staged ..) (staged ..) ?_
  unfold SameImpression
  rw [impression_requestMusic, impression_requestMusic, impression_give, impression_give,
    impression]

theorem unrecorded_eq (abreast : Abreast SameImpression here there) :
    here.unrecorded = there.unrecorded := by
  have script : here.script = there.script := congrArg Impression.script abreast.content
  have scene : here.scene = there.scene := congrArg Impression.scene abreast.content
  simp only [unrecorded, script, scene, abreast.targets, abreast.pc, abreast.phase, abreast.run,
    abreast.timers, abreast.settling, abreast.reveal, abreast.choiceAt]

theorem records_abreast (same : SameImpression here.content there.content)
    (after : Interpreter) : Abreast SameImpression (here.records.interpreter after)
      (there.records.interpreter after) := by
  have cues := congrArg Impression.cues same
  have diagnostics := congrArg Impression.diagnostics same
  simp only [Content.impression, content] at cues diagnostics
  simp only [records, Past.interpreter_ofRecords]
  refine ⟨rfl, rfl, rfl, rfl, rfl, rfl, rfl, rfl, rfl, ?_⟩
  simp only [SameImpression, Content.impression, content, Array.toList_append,
    List.filterMap_append, List.filter_append, cues, diagnostics]

theorem execute_deaf {instruction : Instruction} {offset : Nat}
    (deaf : ∀ (first second : Playback) (interpreter : Interpreter),
      interpreter.execute ⟨table, settings, first⟩ offset instruction =
        interpreter.execute ⟨table, settings, second⟩ offset instruction)
    (abreast : Abreast SameImpression here there) :
    FlowsAlike Eq SameImpression (here.execute ⟨table, settings, first⟩ offset instruction)
      (there.execute ⟨table, settings, second⟩ offset instruction) := by
  -- The stages differ behind the two pasts too, for the answers may depend on these.
  have answers := deaf (here.records.stage ⟨table, settings, first⟩).playback
    (there.records.stage ⟨table, settings, second⟩).playback there.unrecorded
  rw [execute_records here, execute_records there, unrecorded_eq abreast]
  simp only [Past.stage] at answers ⊢
  rw [answers]
  generalize there.unrecorded.execute _ offset instruction = outcome
  obtain ⟨flow, after⟩ := outcome
  have alike := records_abreast abreast.content after
  cases flow with
  | onward => exact .onward alike
  | yield step => exact .yield rfl alike

theorem scene_abreast (abreast : Abreast SameImpression here there) (change : Scene → Scene) :
    Abreast SameImpression { here with scene := change here.scene }
      { there with scene := change there.scene } := by
  have same : here.content.impression = there.content.impression := abreast.content
  refine { abreast with content := ?_ }
  exact congrArg (fun heard : Impression => { heard with scene := change heard.scene }) same

theorem playMusic_abreast (abreast : Abreast SameImpression here there) (offset : Nat)
    (track : Option String) (looping : Option Bool) :
    Abreast SameImpression (here.playMusic ⟨table, settings, first⟩ offset track looping)
      (there.playMusic ⟨table, settings, second⟩ offset track looping) := by
  have plays {here there : Interpreter} (abreast : Abreast SameImpression here there)
      (asset : String) (looping : Bool) (music : Music) :
      let playing := here.note (.playing asset looping)
      let playing' := there.note (.playing asset looping)
      Abreast SameImpression
        { playing.requestMusic ⟨table, settings, first⟩ asset looping with scene.audio := music }
        { playing'.requestMusic ⟨table, settings, second⟩ asset looping with
          scene.audio := music } :=
    scene_abreast (requestMusic_abreast (parallel_impression.notes abreast _) asset looping)
      fun scene => { scene with audio := music }
  cases track with
  | none => exact parallel_impression.reports abreast _
  | some track =>
      simp only [playMusic]
      cases table.audio track with
      | some asset => exact plays abreast ..
      | none => exact plays (parallel_impression.reports abreast _) ..

theorem execute_abreast (abreast : Abreast SameImpression here there) (offset : Nat)
    (instruction : Instruction) :
    FlowsAlike Eq SameImpression (here.execute ⟨table, settings, first⟩ offset instruction)
      (there.execute ⟨table, settings, second⟩ offset instruction) := by
  cases instruction with
  | music action track looping =>
      cases action with
      | play => exact (playMusic_abreast abreast offset track looping).settle fun _ => rfl
      | _ => exact execute_deaf (fun _ _ _ => rfl) abreast
  | _ => exact execute_deaf (fun _ _ _ => rfl) abreast

theorem replayMusic_abreast (abreast : Abreast SameImpression here there) (music : Music) :
    Abreast SameImpression (here.replayMusic ⟨table, settings, first⟩ music)
      (there.replayMusic ⟨table, settings, second⟩ music) := by
  unfold replayMusic
  cases music.track with
  | none => exact abreast
  | some track =>
      cases music.status with
      | stopped => exact abreast
      | playing => exact requestMusic_abreast abreast track music.looping
      | paused =>
          exact parallel_impression.gives (requestMusic_abreast abreast track music.looping) _

theorem lockstep_playback (table : AssetTable) (settings : Settings) (first second : Playback) :
    Lockstep ⟨table, settings, first⟩ ⟨table, settings, second⟩ Eq SameImpression where
  toParallel := parallel_impression
  step _ := rfl
  glyph _ := rfl
  say offset speaker text abreast := execute_abreast abreast offset (.say speaker text)
  settles {here there instruction other offset} _ found found' _ abreast := by
    have script : here.script = there.script := congrArg Impression.script abreast.content
    rw [script, found'] at found
    cases found
    exact execute_abreast abreast offset instruction
  finish offset abreast := execute_abreast abreast offset .ending
  sprite entry abreast := parallel_impression.replaySprite abreast table entry
  music music abreast := replayMusic_abreast abreast music

theorem save_abreast (abreast : Abreast SameImpression here there) : here.save = there.save := by
  have script : here.script = there.script := congrArg Impression.script abreast.content
  have scene : here.scene = there.scene := congrArg Impression.scene abreast.content
  simp only [save, script, scene, abreast.phase, abreast.pc, abreast.choiceAt]

end Stages

/-- Performs operations; all that is handed back, and the save points that could be taken in
between. -/
def performAll (stage : Stage) :
    List Operation → Interpreter → List (Answer × Except Refusal SavePoint) × Interpreter
  | [], interpreter => ([], interpreter)
  | operation :: operations, interpreter =>
      let (answer, interpreter) := interpreter.perform stage operation
      let (answers, final) := interpreter.performAll stage operations
      ((answer, interpreter.save) :: answers, final)

theorem performAll_abreast {table : AssetTable} {settings : Settings} {first second : Playback}
    {here there : Interpreter} (abreast : Abreast SameImpression here there)
    (operations : List Operation) :
    (here.performAll ⟨table, settings, first⟩ operations).1 =
        (there.performAll ⟨table, settings, second⟩ operations).1 ∧
      Abreast SameImpression (here.performAll ⟨table, settings, first⟩ operations).2
        (there.performAll ⟨table, settings, second⟩ operations).2 := by
  induction operations generalizing here there with
  | nil => exact ⟨rfl, abreast⟩
  | cons operation operations ih =>
      have lockstep := lockstep_playback table settings first second
      obtain ⟨answers, performed⟩ := lockstep.perform abreast operation
      obtain ⟨rest, final⟩ := ih performed
      refine ⟨?_, final⟩
      simp only [performAll]
      rw [answers.eq, rest, save_abreast performed]

/-- Whatever is done, and however the stage answers to music, all that is handed back and saved is
the same, and so are the cues and the machine but for diagnostics that say so. -/
theorem playback_unnoticed (stage : Stage) (playback : Playback) (operations : List Operation)
    (interpreter : Interpreter) :
    let here := interpreter.performAll stage operations
    let there := interpreter.performAll { stage with playback } operations
    here.1 = there.1 ∧ here.2.cues = there.2.cues ∧
    { here.2.toMachine with diagnostics := [] } = { there.2.toMachine with diagnostics := [] } ∧
    here.2.diagnostics.filter (!·.ofPlayback) = there.2.diagnostics.filter (!·.ofPlayback) := by
  have begins : Abreast SameImpression interpreter interpreter :=
    ⟨rfl, rfl, rfl, rfl, rfl, rfl, rfl, rfl, rfl, rfl⟩
  obtain ⟨table, settings, first⟩ := stage
  obtain ⟨answers, final⟩ := performAll_abreast begins operations
  exact ⟨answers, congrArg Impression.cues final.content,
    congrArg Interpreter.toMachine (unrecorded_eq final),
    congrArg Impression.diagnostics final.content⟩

end Interpreter

end VisualNovel
