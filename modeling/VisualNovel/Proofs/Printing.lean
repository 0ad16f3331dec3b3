import VisualNovel.Proofs.Telling
import VisualNovel.Screen

/-!
How lines of dialogue come out in the plain-text rendition of a performance. The transcript keeps no
more than a count of bytes; as what it is shown of a line goes on from what it was shown before, it
writes what is new and nothing else.

Main statement: `lines_printed_once`.
-/

namespace VisualNovel

namespace Transcript

variable (transcript : Transcript)

def after (cues : List Cue) : Transcript :=
  (transcript.performAll cues).2

def written (cues : List Cue) : String :=
  String.join (transcript.performAll cues).1.flatten

/-- The heading of a line, after a line break if another line has not been broken off. -/
def heading (speaker : Option String) : String :=
  String.join transcript.lineBreak ++ "\n" ++ (speaker.map (· ++ ":\n")).getD ""

@[simp] theorem after_nil : transcript.after [] = transcript := rfl

@[simp] theorem written_nil : transcript.written [] = "" := rfl

@[simp] theorem after_cons (cue : Cue) (cues : List Cue) :
    transcript.after (cue :: cues) = (transcript.perform cue).2.after cues := rfl

@[simp] theorem written_cons (cue : Cue) (cues : List Cue) :
    transcript.written (cue :: cues) =
      String.join (transcript.perform cue).1 ++ (transcript.perform cue).2.written cues := by
  simp [written, performAll, String.join_append]

theorem after_append (before later : List Cue) :
    transcript.after (before ++ later) = (transcript.after before).after later := by
  induction before generalizing transcript with
  | nil => rfl
  | cons cue before ih => simp [ih]

theorem written_append (before later : List Cue) :
    transcript.written (before ++ later) =
      transcript.written before ++ (transcript.after before).written later := by
  induction before generalizing transcript with
  | nil => simp
  | cons cue before ih => simp [ih, String.append_assoc]

theorem perform_showDialogue (speaker : Option String) :
    String.join (transcript.perform (.showDialogue speaker)).1 = transcript.heading speaker ∧
      (transcript.perform (.showDialogue speaker)).2 = start := by
  cases speaker <;> simp [perform, heading, String.join_append, String.append_assoc]

theorem perform_breaks {cue : Cue} (silent : cue.dialogueText? = none)
    (unbroken : 0 < transcript.printed) :
    cue = .clearChoices ∨ ∃ pieces, (transcript.perform cue).1 = "\n" :: pieces := by
  cases cue with
  | dialogueText => cases silent
  | clearChoices => exact .inl rfl
  | backgroundVisible visible => cases visible <;> simp [perform, line, lineBreak, unbroken]
  | showCharacter id asset side => cases asset <;> simp [perform, line, lineBreak, unbroken]
  | showDialogue speaker => cases speaker <;> simp [perform, lineBreak, unbroken]
  | playAudio asset looping => cases looping <;> simp [perform, line, lineBreak, unbroken]
  | signal content =>
      obtain ⟨event, payload⟩ := content
      cases payload <;> simp [perform, line, lineBreak, unbroken]
  | _ => simp [perform, line, lineBreak, unbroken]

theorem printed_of_line {cues : List Cue} {shown : String} (line : line? cues = some shown) :
    (transcript.after cues).printed = Text.size shown.toList := by
  obtain rfl | ⟨before, cue, rfl⟩ := List.eq_nil_or_concat' cues
  · cases line
  · rw [after_append, after_cons, after_nil]
    cases cue with
    | showDialogue speaker =>
        rw [line?_showDialogue] at line
        cases line
        rw [((transcript.after before).perform_showDialogue speaker).2]
        rfl
    | dialogueText text =>
        rw [line?_dialogueText] at line
        cases line
        exact (Text.size_toList _).symm
    | _ => simp [line?] at line

def AtRowStart (screen : String) : Prop :=
  screen = "" ∨ screen.toList.getLast? = some '\n'

def BreaksRow (text : String) : Prop :=
  text = "" ∨ text.toList.head? = some '\n'

theorem AtRowStart.append {screen : String} (start : AtRowStart screen) {text : String}
    (ends : AtRowStart text) : AtRowStart (screen ++ text) := by
  obtain rfl | ends := ends
  · rwa [String.append_empty]
  · right
    rw [String.toList_append, List.getLast?_append, ends, Option.some_or]

theorem atRowStart_numbered (texts : List String) (number : Nat) :
    AtRowStart (String.join (numbered number texts)) := by
  induction texts generalizing number with
  | nil => exact .inl rfl
  | cons text texts ih =>
      rw [numbered, String.join_cons]
      refine AtRowStart.append ?_ (ih _)
      right
      simp [List.getLast?_cons]

theorem line_ends (text : String) :
    (String.join (transcript.line text).1).toList.getLast? = some '\n' := by
  simp [line, String.join_append]

theorem perform_ends {cue : Cue} (silent : cue.dialogueText? = none) :
    (transcript.perform cue).1 = [] ∧ (transcript.perform cue).2.printed = transcript.printed ∨
      (String.join (transcript.perform cue).1).toList.getLast? = some '\n' := by
  cases cue with
  | dialogueText => cases silent
  | clearChoices => exact .inl ⟨rfl, rfl⟩
  | clearDialogue =>
      by_cases unbroken : 0 < transcript.printed
      · right
        simp [perform, lineBreak, unbroken]
      · left
        simp only [perform, lineBreak, unbroken, start, ↓reduceIte, true_and]
        omega
  | renderChoices texts =>
      right
      have heading : AtRowStart (String.join (transcript.lineBreak ++ ["\n--- Choice ---\n"])) := by
        right
        simp [String.join_append]
      obtain empty | ends := heading.append (atRowStart_numbered texts 1)
      · simp [String.join_append] at empty
      · simpa [perform, String.join_append, String.append_assoc] using ends
  | backgroundVisible visible => cases visible <;> exact .inr (line_ends ..)
  | showCharacter id asset side => cases asset <;> exact .inr (line_ends ..)
  | playAudio asset looping => cases looping <;> exact .inr (line_ends ..)
  | signal content =>
      obtain ⟨event, payload⟩ := content
      cases payload <;> exact .inr (line_ends ..)
  | showDialogue speaker =>
      right
      cases speaker <;> simp [perform, String.join_append, List.getLast?_cons]
  | showEnd text =>
      right
      simp [perform, String.join_append, List.getLast?_cons]
  | _ => exact .inr (line_ends ..)

theorem atRowStart_of_printed {cues : List Cue} (none : (start.after cues).printed = 0) :
    AtRowStart (start.written cues) := by
  induction cues using List.reverseRecOn with
  | nil => exact .inl rfl
  | append_singleton cues cue ih =>
      rw [written_append, written_cons, written_nil, String.append_empty]
      rw [after_append, after_cons, after_nil] at none
      by_cases silent : cue.dialogueText? = .none
      · obtain ⟨nothing, same⟩ | ends := (start.after cues).perform_ends silent
        · rw [nothing]
          exact (ih (same ▸ none)).append (.inl rfl)
        · right
          rw [String.toList_append, List.getLast?_append, ends, Option.some_or]
      · obtain ⟨text, rfl⟩ : ∃ text, cue = .dialogueText text := by
          cases cue with
          | dialogueText text => exact ⟨text, rfl⟩
          | _ => exact absurd rfl silent
        obtain rfl : text = "" := String.utf8ByteSize_eq_zero_iff.mp none
        by_cases fresh : (start.after cues).printed = 0
        · refine (ih fresh).append (.inl ?_)
          simp [perform, dialogueText, fresh]
        · -- Only a transcript that lost count gets here.
          obtain ⟨count, counted⟩ := Nat.exists_eq_succ_of_ne_zero fresh
          right
          simp [perform, dialogueText, counted, Text.dropBytes?]

theorem written_breaks {before later : List Cue} (orderly : Orderly (before ++ later))
    (unbroken : 0 < (start.after before).printed)
    (apart : later.head?.bind Cue.dialogueText? = none) :
    BreaksRow ((start.after before).written later) := by
  induction later generalizing before with
  | nil => exact .inl rfl
  | cons cue later ih =>
      obtain rfl | ⟨pieces, breaks⟩ := (start.after before).perform_breaks apart unbroken
      · have orderly' : Orderly ((before ++ [.clearChoices]) ++ later) := by
          simpa using orderly
        have same : start.after (before ++ [.clearChoices]) = start.after before := by
          rw [after_append]
          rfl
        have apart' : later.head?.bind Cue.dialogueText? = none := by
          cases later with
          | nil => rfl
          | cons next later =>
              cases next with
              | dialogueText text =>
                  obtain ⟨shown, rest, line, -⟩ :=
                    orderly' (before ++ [.clearChoices]) text later rfl
                  simp [line?] at line
              | _ => rfl
        have written := ih orderly' (same ▸ unbroken) apart'
        rw [same] at written
        rw [written_cons]
        simpa [perform] using written
      · right
        simp [written_cons, breaks]

theorem perform_dialogueText {before : List Cue} {shown : String} (line : line? before = some shown)
    (rest : String) :
    Text.dropBytes? (start.after before).printed (shown ++ rest).toList = some rest.toList ∧
      ((start.after before).perform (.dialogueText (shown ++ rest))).1 = [rest] := by
  have cut := Text.dropBytes?_size_append shown.toList rest.toList
  rw [← String.toList_append, ← printed_of_line start line] at cut
  refine ⟨cut, ?_⟩
  simp only [perform, dialogueText, cut, String.ofList_toList]

theorem written_line {before : List Cue} {speaker : Option String} {texts : List String}
    (orderly : Orderly (before ++ .showDialogue speaker :: texts.map .dialogueText)) :
    (start.after before).written (.showDialogue speaker :: texts.map .dialogueText) =
      (start.after before).heading speaker ++ texts.getLastD "" := by
  induction texts using List.reverseRecOn with
  | nil => simp [((start.after before).perform_showDialogue speaker).1]
  | append_singleton texts text ih =>
      let opened : List Cue := .showDialogue speaker :: texts.map .dialogueText
      have whole : before ++ .showDialogue speaker :: (texts ++ [text]).map .dialogueText =
          (before ++ opened) ++ [.dialogueText text] := by simp [opened]
      rw [whole] at orderly
      obtain ⟨shown, rest, line, rfl⟩ := orderly _ _ [] rfl
      have shown' : shown = texts.getLastD "" :=
        Option.some.inj (line.symm.trans (line?_texts before speaker texts))
      have opened' : Cue.showDialogue speaker :: (texts ++ [shown ++ rest]).map .dialogueText =
          opened ++ [.dialogueText (shown ++ rest)] := by simp [opened]
      rw [opened', written_append, ih orderly.of_append, ← after_append, written_cons,
        (perform_dialogueText line rest).2, written_nil, List.getLastD_concat, ← shown']
      simp [String.append_assoc]

theorem screen_append (sooner later : List Output) :
    Output.screen (sooner ++ later) = Output.screen sooner ++ Output.screen later := by
  simp [Output.screen, String.join_append]

theorem screen_follow (events : List Event) :
    Output.screen (transcript.follow .working events).1 =
      transcript.written (events.filterMap Event.cue?) := by
  induction events generalizing transcript with
  | nil => rfl
  | cons event events ih =>
      cases event with
      | note noted =>
          have nothing : Output.screen [.record noted.record] = "" := by simp [Output.screen]
          show Output.screen ([.record noted.record] ++ (transcript.follow .working events).1) = _
          rw [screen_append, nothing, ih, String.empty_append]
          rfl
      | cue cue =>
          have pieces (pieces : List String) :
              Output.screen (pieces.flatMap Screen.working.write) = String.join pieces := by
            simp [Output.screen, Screen.write, List.map_flatMap, List.flatMap_singleton']
          show Output.screen ((transcript.perform cue).1.flatMap Screen.working.write ++
            ((transcript.perform cue).2.follow .working events).1) =
              transcript.written (cue :: events.filterMap Event.cue?)
          rw [screen_append, pieces, ih, written_cons]

end Transcript

namespace Interpreter

/-- Every line comes out once: its heading and then what has been shown of it, in pieces that were
each new. What is written later begins on another row. -/
theorem lines_printed_once {stage : Stage} {interpreter : Interpreter}
    (reachable : Reachable stage interpreter) :
    let screen := Transcript.start.after
    Output.screen (Transcript.start.follow .working interpreter.history.toList).1 =
      Transcript.start.written interpreter.cues ∧
    (∀ (before : List Cue) (speaker : Option String) (texts : List String) (after : List Cue),
      interpreter.cues = before ++ .showDialogue speaker :: (texts.map .dialogueText ++ after) →
      let line := .showDialogue speaker :: texts.map .dialogueText
      let text := texts.getLastD ""
      (screen before).written line = (screen before).heading speaker ++ text ∧
      (text ≠ "" → after.head?.bind Cue.dialogueText? = none → ∀ later, later <+: after →
        Transcript.BreaksRow ((screen (before ++ line)).written later))) ∧
    (∀ before text after, interpreter.cues = before ++ .dialogueText text :: after →
      ∃ (earlier : List Cue) (speaker : Option String) (texts : List String) (rest : String),
        before = earlier ++ .showDialogue speaker :: texts.map .dialogueText ∧
        text = texts.getLastD "" ++ rest ∧
        Text.dropBytes? (screen before).printed text.toList = some rest.toList ∧
        ((screen before).perform (.dialogueText text)).1 = [rest]) ∧
    ∀ before cue after, interpreter.cues = before ++ cue :: after → cue.dialogueText? = none →
      Transcript.AtRowStart (Transcript.start.written before) ∨
        Transcript.BreaksRow (String.join ((screen before).perform cue).1) := by
  intro screen
  have orderly := reachable.telling.orderly
  refine ⟨Transcript.screen_follow .., ?_, ?_, ?_⟩
  · intro before speaker texts after split line text
    have split' : interpreter.cues = (before ++ line) ++ after := by simp [split, line]
    rw [split'] at orderly
    refine ⟨Transcript.written_line orderly.of_append, ?_⟩
    rintro nonempty apart later ⟨rest, rfl⟩
    rw [← List.append_assoc] at orderly
    refine Transcript.written_breaks orderly.of_append ?_ ?_
    · have printed := Transcript.printed_of_line .start (line?_texts before speaker texts)
      show 0 < (Transcript.start.after (before ++ line)).printed
      rw [printed, Text.size_toList]
      exact Nat.pos_of_ne_zero fun none => nonempty (String.utf8ByteSize_eq_zero_iff.mp none)
    · cases later with
      | nil => rfl
      | cons cue later => exact apart
  · intro before text after split
    obtain ⟨shown, rest, line, rfl⟩ := orderly before text after split
    rw [split] at orderly
    obtain ⟨earlier, speaker, texts, same, last⟩ := orderly.of_append.begun line
    obtain ⟨cut, writes⟩ := Transcript.perform_dialogueText line rest
    exact ⟨earlier, speaker, texts, rest, same, by rw [last], cut, writes⟩
  · intro before cue after split silent
    by_cases fresh : (screen before).printed = 0
    · exact .inl (Transcript.atRowStart_of_printed fresh)
    · right
      obtain rfl | ⟨pieces, breaks⟩ :=
        (screen before).perform_breaks silent (Nat.pos_of_ne_zero fresh)
      · exact .inl rfl
      · right
        simp [breaks]

theorem line_printed_before_end :
    let stage : Stage := ⟨{}, .standard, .accepting⟩
    let script : Script := ⟨[.say none "né", .ending]⟩
    let interpreter := (fresh.start stage script).2.afterMoves stage
      [.wake ⟨1, .reveal ⟨2⟩⟩, .wake ⟨1, .reveal ⟨2⟩⟩, .advance]
    let line : List Cue := [.showDialogue none, .dialogueText "n", .dialogueText "né"]
    let later : List Cue := [.clearChoices, .clearDialogue, .showEnd stage.settings.endText]
    Reachable stage interpreter ∧ interpreter.cues = line ++ later ∧
      Transcript.start.written line = "\nné" ∧
      Transcript.BreaksRow ((Transcript.start.after line).written later) := by
  intro stage script interpreter line later
  have reachable : Reachable stage interpreter :=
    .perform (.move .advance) <| .perform (.move (.wake ⟨1, .reveal ⟨2⟩⟩)) <|
      .perform (.move (.wake ⟨1, .reveal ⟨2⟩⟩)) <| .perform (.start script) .fresh
  have cues : interpreter.cues = line ++ later := by decide
  have printed := lines_printed_once reachable
  obtain ⟨written, breaks⟩ := printed.2.1 [] none ["n", "né"] later cues
  exact ⟨reachable, cues, written, breaks (by decide) rfl later (List.prefix_refl _)⟩

end Interpreter

end VisualNovel
