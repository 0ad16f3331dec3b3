import Mathlib.Data.List.Basic
import Mathlib.Data.List.Induction
import VisualNovel.Proofs.Mirror
import VisualNovel.Proofs.Moves
import VisualNovel.Proofs.Restoring

namespace VisualNovel

/-! ## Lines among cues -/

def line? (cues : List Cue) : Option String :=
  match cues.getLast? with
  | some (.showDialogue _) => some ""
  | some (.dialogueText text) => some text
  | _ => none

/-- More of a line is shown only right after the beginning of the same line. -/
def Orderly (cues : List Cue) : Prop :=
  ∀ before text after, cues = before ++ .dialogueText text :: after →
    ∃ shown rest, line? before = some shown ∧ text = shown ++ rest

section Line

variable (cues : List Cue)

@[simp] theorem line?_showDialogue (speaker : Option String) :
    line? (cues ++ [.showDialogue speaker]) = some "" := by
  simp [line?]

@[simp] theorem line?_dialogueText (text : String) :
    line? (cues ++ [.dialogueText text]) = some text := by
  simp [line?]

theorem line?_texts (speaker : Option String) (texts : List String) :
    line? (cues ++ .showDialogue speaker :: texts.map .dialogueText) =
      some (texts.getLastD "") := by
  obtain rfl | ⟨earlier, text, rfl⟩ := List.eq_nil_or_concat' texts
  · simp
  · rw [List.map_append, ← List.cons_append, ← List.append_assoc, List.getLastD_concat]
    exact line?_dialogueText ..

end Line

namespace Orderly

variable {cues : List Cue}

theorem nil : Orderly [] := by
  intro before text after split
  simp at split

theorem of_append {more : List Cue} (orderly : Orderly (cues ++ more)) : Orderly cues := by
  rintro before text after rfl
  exact orderly before text (after ++ more) (by simp)

theorem snoc {cue : Cue} (orderly : Orderly cues)
    (goesOn : ∀ text, cue = .dialogueText text →
      ∃ shown rest, line? cues = some shown ∧ text = shown ++ rest) :
    Orderly (cues ++ [cue]) := by
  intro before text after split
  obtain rfl | ⟨later, last, rfl⟩ := List.eq_nil_or_concat' after
  · obtain ⟨rfl, last⟩ := List.append_inj' split rfl
    cases last
    exact goesOn text rfl
  · rw [← List.cons_append, ← List.append_assoc] at split
    obtain ⟨rfl, -⟩ := List.append_inj' split rfl
    exact orderly before text later rfl

theorem append {more : List Cue} (orderly : Orderly cues)
    (silent : more.filterMap Cue.dialogueText? = []) : Orderly (cues ++ more) := by
  induction more using List.reverseRecOn with
  | nil => simpa using orderly
  | append_singleton more cue ih =>
      rw [List.filterMap_append, List.append_eq_nil_iff] at silent
      rw [← List.append_assoc]
      refine (ih silent.1).snoc ?_
      rintro text rfl
      simp [Cue.dialogueText?] at silent

theorem more {shown text : String} (orderly : Orderly cues) (line : line? cues = some shown)
    (goesOn : shown.toList <+: text.toList) : Orderly (cues ++ [.dialogueText text]) := by
  refine orderly.snoc ?_
  rintro _ ⟨⟩
  obtain ⟨rest, same⟩ := goesOn
  refine ⟨shown, String.ofList rest, line, ?_⟩
  rw [← String.toList_inj, String.toList_append, String.toList_ofList, same]

/-- What the last cue shows of a line is shown cue after cue since the line has begun. -/
theorem begun {shown : String} (orderly : Orderly cues) (line : line? cues = some shown) :
    ∃ (before : List Cue) (speaker : Option String) (texts : List String),
      cues = before ++ .showDialogue speaker :: texts.map .dialogueText ∧
        texts.getLastD "" = shown := by
  induction cues using List.reverseRecOn generalizing shown with
  | nil => cases line
  | append_singleton cues cue ih =>
      cases cue with
      | showDialogue speaker =>
          rw [line?_showDialogue] at line
          cases line
          exact ⟨cues, speaker, [], rfl, rfl⟩
      | dialogueText text =>
          obtain ⟨sooner, rest, line', rfl⟩ := orderly cues text [] rfl
          rw [line?_dialogueText] at line
          cases line
          obtain ⟨before, speaker, texts, rfl, -⟩ := ih orderly.of_append line'
          exact ⟨before, speaker, texts ++ [sooner ++ rest], by simp, List.getLastD_concat⟩
      | _ => simp [line?] at line

end Orderly

/-! ## What runs show -/

namespace Interpreter

def Wordless (before after : Interpreter) : Prop :=
  ∃ more, after.cues = before.cues ++ more ∧ more.filterMap Cue.dialogueText? = []

namespace Wordless

theorem of_cues {before after : Interpreter} (same : after.cues = before.cues) :
    Wordless before after :=
  ⟨[], by rw [same, List.append_nil], rfl⟩

theorem refl (interpreter : Interpreter) : Wordless interpreter interpreter :=
  of_cues rfl

theorem trans {first second third : Interpreter} (sooner : Wordless first second)
    (later : Wordless second third) : Wordless first third := by
  obtain ⟨more, cues, silent⟩ := sooner
  obtain ⟨still, cues', silent'⟩ := later
  refine ⟨more ++ still, ?_, ?_⟩
  · rw [cues', cues, List.append_assoc]
  · rw [List.filterMap_append, silent, silent', List.append_nil]

theorem give {cue : Cue} (silent : cue.dialogueText? = none) (interpreter : Interpreter) :
    Wordless interpreter (interpreter.give cue) :=
  ⟨[cue], cues_give .., by simp [silent]⟩

theorem report (diagnostic : Diagnostic) (interpreter : Interpreter) :
    Wordless interpreter (interpreter.report diagnostic) :=
  of_cues (cues_eq_of_history rfl)

theorem note (noted : Note) (interpreter : Interpreter) :
    Wordless interpreter (interpreter.note noted) :=
  of_cues (cues_eq_of_history rfl)

theorem orderly {before after : Interpreter} (silent : Wordless before after)
    (orderly : Orderly before.cues) : Orderly after.cues := by
  obtain ⟨more, cues, silent⟩ := silent
  rw [cues]
  exact orderly.append silent

end Wordless

section Wordless

variable (stage : Stage) (offset : Nat) (interpreter : Interpreter)

theorem assetOrLiteral_wordless (kind id : String) (asset : Option String) :
    Wordless interpreter (interpreter.assetOrLiteral kind id asset).2 := by
  cases asset with
  | some asset => exact .refl _
  | none => exact .report ..

theorem spriteAsset_wordless (id : String) (state : Option String) :
    Wordless interpreter (interpreter.spriteAsset stage id state).2 := by
  cases state with
  | none => exact .refl _
  | some state => exact assetOrLiteral_wordless ..

theorem requestMusic_wordless (asset : String) (looping : Bool) :
    Wordless interpreter (interpreter.requestMusic stage asset looping) := by
  simp only [requestMusic]
  split
  · exact .give rfl _
  · exact .trans (.give rfl _) (.report ..)

theorem changeBackdrop_wordless (image : Option String) :
    Wordless interpreter (interpreter.changeBackdrop stage image) := by
  cases image with
  | none => exact .refl _
  | some id => exact .trans (assetOrLiteral_wordless ..) (.give rfl _)

theorem showBackdrop_wordless (visible : Option Bool) :
    Wordless interpreter (interpreter.showBackdrop visible) := by
  cases visible with
  | none => exact .refl _
  | some visible => exact .give rfl _

theorem showCharacter_wordless (id : String) (state : Option String) (side : Option Side) :
    Wordless interpreter (interpreter.showCharacter stage offset id state side) := by
  unfold showCharacter
  split
  · exact .trans (spriteAsset_wordless ..) (.give rfl _)
  · exact .trans (.report ..) (.trans (spriteAsset_wordless ..) (.give rfl _))

theorem hideCharacter_wordless (id : String) :
    Wordless interpreter (interpreter.hideCharacter offset id) := by
  unfold hideCharacter
  split
  · exact .report ..
  · exact .give rfl _

theorem changeCharacter_wordless (id : String) (state : Option String) :
    Wordless interpreter (interpreter.changeCharacter stage offset id state) := by
  unfold changeCharacter
  split
  · exact .report ..
  · exact .report ..
  · exact .trans (assetOrLiteral_wordless ..) (.give rfl _)

theorem playMusic_wordless (track : Option String) (looping : Option Bool) :
    Wordless interpreter (interpreter.playMusic stage offset track looping) := by
  cases track with
  | none => exact .report ..
  | some track =>
      exact .trans (assetOrLiteral_wordless ..) (.trans (.note ..) (requestMusic_wordless ..))

theorem settles_wordless {instruction : Instruction} (settles : instruction.settles) :
    Wordless interpreter (interpreter.execute stage offset instruction).2 := by
  cases instruction with
  | background visible image delay =>
      exact .trans (showBackdrop_wordless ..) (changeBackdrop_wordless ..)
  | character id action state side delay =>
      cases action with
      | shown => exact showCharacter_wordless ..
      | hidden => exact hideCharacter_wordless ..
      | setState => exact changeCharacter_wordless ..
  | wait duration => exact .refl _
  | music action track looping =>
      cases action with
      | play => exact playMusic_wordless ..
      | stop => exact .give rfl _
      | pause => exact .give rfl _
  | _ => cases settles

theorem replaySprites_wordless (table : AssetTable) (entries : List (String × Sprite)) :
    Wordless interpreter (entries.foldl (replaySprite table) interpreter) := by
  induction entries generalizing interpreter with
  | nil => exact .refl _
  | cons entry entries ih =>
      refine .trans ?_ (ih _)
      simp only [replaySprite]
      split
      · exact .give rfl _
      · exact .refl _

theorem replayBackdrop_wordless (backdrop : Backdrop) :
    Wordless interpreter (interpreter.replayBackdrop backdrop) := by
  unfold replayBackdrop
  split
  · exact .trans (.give rfl _) (.give rfl _)
  · exact .give rfl _

theorem replayMusic_wordless (music : Music) :
    Wordless interpreter (interpreter.replayMusic stage music) := by
  unfold replayMusic
  split
  · split
    · exact .refl _
    · exact requestMusic_wordless ..
    · exact .trans (requestMusic_wordless ..) (.give rfl _)
  · exact .refl _

theorem replayChoices_wordless : Wordless interpreter interpreter.replayChoices := by
  unfold replayChoices
  split
  · exact .give rfl _
  · exact .refl _

theorem passSignal_wordless (option : ChoiceOption) :
    Wordless interpreter (interpreter.passSignal option) := by
  unfold passSignal
  split
  · exact .give rfl _
  · exact .refl _

theorem chosen_wordless (option : ChoiceOption) :
    Wordless interpreter (interpreter.chosen offset option) :=
  .trans (passSignal_wordless ..) <|
    .trans (.of_cues (goWhereItLeads_passed ..).cues) (.give rfl _)

end Wordless

/-! ## The invariant -/

/-- What a run shows of lines is in order, and goes on from the last cue while a line is being
revealed. -/
structure Telling (interpreter : Interpreter) : Prop where
  orderly : Orderly interpreter.cues
  line : ∀ revealing, interpreter.reveal.active = some revealing →
    line? interpreter.cues = some revealing.shown

section Telling

variable {stage : Stage} {interpreter : Interpreter}

theorem Telling.of_inactive (orderly : Orderly interpreter.cues)
    (inactive : interpreter.reveal.active = none) : Telling interpreter where
  orderly := orderly
  line := by
    intro revealing active
    rw [inactive] at active
    cases active

theorem Telling.of_same {after : Interpreter} (telling : Telling interpreter)
    (cues : after.cues = interpreter.cues) (reveal : after.reveal = interpreter.reveal) :
    Telling after where
  orderly := by
    rw [cues]
    exact telling.orderly
  line := by
    rw [cues, reveal]
    exact telling.line

theorem Unchanged.cues {after : Interpreter} (unchanged : Unchanged interpreter after) :
    after.cues = interpreter.cues := by
  cases unchanged with
  | same => rfl
  | noted => exact cues_eq_of_history rfl

theorem executed_telling {offset : Nat} {instruction : Instruction} {step : Step}
    {after : Interpreter} (orderly : Orderly interpreter.cues)
    (inactive : interpreter.reveal.active = none)
    (outcome : interpreter.execute stage offset instruction = (.yield step, after)) :
    Telling after := by
  cases executed_of_eq outcome with
  | settling time settles same =>
      have silent := settles_wordless stage offset interpreter settles
      rw [outcome] at silent
      exact .of_inactive (silent.orderly orderly) ((active_of_clock same.clock).trans inactive)
  | revealing speaker text name time =>
      have shown : Wordless interpreter (interpreter.give (.showDialogue name)) := .give rfl _
      refine ⟨shown.orderly orderly, ?_⟩
      rintro _ ⟨⟩
      show line? (interpreter.give (.showDialogue name)).cues = _
      rw [cues_give, line?_showDialogue]
      simp [Revealing.shown]
  | presenting options nonempty =>
      have silent : Wordless interpreter ((interpreter.note (.presentingChoices options.length
          offset)).give (.renderChoices (options.map (·.text)))) := .trans (.note ..) (.give rfl _)
      exact .of_inactive (silent.orderly orderly) inactive
  | finishing endText =>
      have silent : Wordless interpreter ((((interpreter.note (.finished offset)).give
          .clearChoices).give .clearDialogue).give (.showEnd endText)) :=
        .trans (.note ..) <| .trans (.give rfl _) <| .trans (.give rfl _) (.give rfl _)
      exact .of_inactive (silent.orderly orderly) rfl

theorem runUntilSuspended_telling (orderly : Orderly interpreter.cues)
    (inactive : interpreter.reveal.active = none) :
    Telling (interpreter.runUntilSuspended stage).2 := by
  apply runUntilSuspended_rule
    (fun interpreter => Orderly interpreter.cues ∧ interpreter.reveal.active = none)
    fun _ next => Telling next
  · exact ⟨orderly, inactive⟩
  · rintro interpreter instruction flow next ⟨orderly, inactive⟩ found outcome
    have fetched : Orderly (interpreter.fetch instruction).cues :=
      (Wordless.of_cues (cues_eq_of_history rfl)).orderly orderly
    cases flow with
    | yield step => exact executed_telling fetched inactive outcome
    | onward =>
        cases executed_of_eq outcome with
        | passed passes passed =>
            exact ⟨(Wordless.of_cues passed.cues).orderly fetched,
              (active_of_clock passed.clock).trans inactive⟩
  · rintro interpreter ⟨orderly, inactive⟩ found
    exact .of_inactive ((Wordless.note ..).orderly orderly) inactive
  · rintro offset interpreter ⟨orderly, inactive⟩
    exact .of_inactive ((Wordless.report ..).orderly orderly) inactive

theorem Telling.tell {text : String} {revealing : Revealing Nat} (telling : Telling interpreter)
    (active : interpreter.reveal.active = some revealing)
    (goesOn : revealing.shown.toList <+: text.toList) (reveal : Reveal Nat) :
    Orderly (interpreter.tell text reveal).cues := by
  show Orderly (interpreter.give (.dialogueText text)).cues
  rw [cues_give]
  exact telling.orderly.more (telling.line _ active) goesOn

theorem Telling.complete {ticket : Ticket} {text : String} {offset : Nat} {reveal : Reveal Nat}
    (telling : Telling interpreter)
    (ticked : interpreter.reveal.tick ticket = (.complete text offset, reveal)) :
    Orderly (interpreter.tell text reveal).cues ∧ reveal.active = none := by
  obtain ⟨revealing, active, complete, rfl⟩ := Reveal.tick_complete ticked
  refine ⟨telling.tell active ?_ reveal, complete⟩
  rw [String.toList_ofList]
  exact revealing.shown_prefix

theorem resumes_orderly {move : Move Wake} {ready : Interpreter}
    (timely : interpreter.clock.Timely) (telling : Telling interpreter)
    (resumes : Resumes interpreter move ready) :
    Orderly ready.cues ∧ ready.reveal.active = none := by
  cases resumes with
  | advance awaiting =>
      exact ⟨telling.orderly, (timely.halted (by simp [clock, awaiting])).2⟩
  | @select index offset options option awaiting =>
      let noted := interpreter.note (.choiceSelected index option.text)
      have silent : Wordless interpreter (noted.chosen offset option) :=
        .trans (.note ..) (chosen_wordless ..)
      have inactive := (timely.halted (by simp [clock, awaiting])).2
      refine ⟨silent.orderly telling.orderly, ?_⟩
      have same := (goWhereItLeads_passed offset option (noted.passSignal option)).clock
      have signalled : (noted.passSignal option).reveal = interpreter.reveal := by
        unfold passSignal
        split <;> rfl
      show (goWhereItLeads offset option (noted.passSignal option)).reveal.active = none
      rw [active_of_clock same, signalled]
      exact inactive
  | settle running settling =>
      refine ⟨telling.orderly, ?_⟩
      have waits := timely.running running
      simpa [clock, settling] using waits
  | complete running ticked choice =>
      obtain ⟨orderly, inactive⟩ := telling.complete ticked
      exact ⟨(Wordless.note ..).orderly orderly, inactive⟩

theorem moved_telling {move : Move Wake} {answer : Answer} {after : Interpreter}
    (timely : interpreter.clock.Timely) (telling : Telling interpreter)
    (moved : Moved stage interpreter move answer after) : Telling after := by
  cases moved with
  | ignored unchanged =>
      exact telling.of_same unchanged.cues (congrArg Machine.reveal unchanged.toMachine)
  | refused => exact telling.of_same (cues_eq_of_history rfl) rfl
  | resumed resumes =>
      obtain ⟨orderly, inactive⟩ := resumes_orderly timely telling resumes
      exact runUntilSuspended_telling orderly inactive
  | @revealing _ _ text reveal running ticked =>
      obtain ⟨revealing, active, more, rfl⟩ := Reveal.tick_partly ticked
      refine ⟨telling.tell active revealing.shown_prefix_advance reveal, ?_⟩
      intro later active'
      obtain rfl : later = revealing.advance := Option.some.inj (active'.symm.trans more)
      show line? (interpreter.give (.dialogueText _)).cues = _
      rw [cues_give, line?_dialogueText]
  | revealed running ticked apart unchanged =>
      obtain ⟨orderly, inactive⟩ := telling.complete ticked
      refine .of_inactive ?_ ?_
      · exact (Wordless.of_cues unchanged.cues).orderly orderly
      · exact (congrArg (·.reveal.active) unchanged.toMachine).trans inactive
  | stopped running => exact .of_inactive ((Wordless.note ..).orderly telling.orderly) rfl
  | rested => exact telling

theorem start_telling (telling : Telling interpreter) (script : Script) :
    Telling (interpreter.start stage script).2 := by
  have reset : Wordless interpreter (interpreter.reset script) := .of_cues (reset_cues ..)
  refine runUntilSuspended_telling ?_ rfl
  exact (Wordless.note ..).orderly (reset.orderly telling.orderly)

theorem replay_telling (orderly : Orderly interpreter.cues)
    (inactive : interpreter.reveal.active = none) : Telling (interpreter.replay stage) := by
  have shown := replay_shown interpreter stage
  refine .of_inactive ?_ ((active_of_clock shown.clock).trans inactive)
  let scenery := (interpreter.scene.characters.entries.foldl (replaySprite stage.table)
    (interpreter.replayBackdrop interpreter.scene.background)).replayMusic stage
      interpreter.scene.audio
  have silent : Wordless interpreter scenery :=
    .trans (replayBackdrop_wordless ..) <|
      .trans (replaySprites_wordless ..) (replayMusic_wordless ..)
  refine (replayChoices_wordless _).orderly ?_
  cases interpreter.scene.dialogue with
  | none => exact silent.orderly orderly
  | some dialogue =>
      let opened := scenery.give (.showDialogue dialogue.speaker)
      show Orderly (opened.give (.dialogueText dialogue.text)).cues
      have opens : Wordless scenery opened := .give rfl _
      have line : line? opened.cues = some "" := by rw [cues_give, line?_showDialogue]
      rw [cues_give]
      exact (opens.orderly (silent.orderly orderly)).more line (by simp)

theorem restore_telling (telling : Telling interpreter) (script : Script) (save : SavePoint) :
    Telling (interpreter.restore stage script save).2 := by
  cases outcome : save.step? script with
  | error refusal =>
      rw [restore_refused _ outcome]
      exact telling
  | ok step =>
      rw [restore_eq _ outcome]
      have reset : Wordless interpreter (interpreter.reset script) := .of_cues (reset_cues ..)
      refine replay_telling ?_ rfl
      exact (Wordless.of_cues (cues_eq_of_history rfl)).orderly (reset.orderly telling.orderly)

theorem Reachable.telling (reachable : Reachable stage interpreter) : Telling interpreter := by
  induction reachable with
  | fresh => exact .of_inactive .nil rfl
  | @perform interpreter operation reachable telling =>
      cases operation with
      | start script => exact start_telling telling script
      | restore script save => exact restore_telling telling script save
      | move move => exact moved_telling reachable.timely telling (moved stage interpreter move)

end Telling

end Interpreter

end VisualNovel
