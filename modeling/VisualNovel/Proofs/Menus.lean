import VisualNovel.Proofs.Alike
import VisualNovel.Proofs.Plays
import VisualNovel.Proofs.Waiting

namespace VisualNovel

/-! ## Numerals -/

namespace Reply

/-- The text consists of decimal digits, perhaps after a plus sign, and they spell the number. -/
def Numeral (text : String) (number : Nat) : Prop :=
  ∃ digits, (text.toList = digits ∨ text.toList = '+' :: digits) ∧ digits ≠ [] ∧
    (∀ char ∈ digits, char.isDigit) ∧ number = Nat.ofDigitChars 10 digits 0

theorem digit?_eq_some_iff {char : Char} {digit : Nat} :
    digit? char = some digit ↔ char.isDigit ∧ digit = char.toNat - '0'.toNat := by
  unfold digit?
  have same : ('0' ≤ char ∧ char ≤ '9') ↔ char.isDigit = true := by
    unfold Char.isDigit
    rw [Bool.and_eq_true, decide_eq_true_eq, decide_eq_true_eq]
    exact Iff.rfl
  split
  · next within =>
      rw [Option.some.injEq, eq_comm]
      exact (and_iff_right (same.mp within)).symm
  · next beyond => exact iff_of_false nofun fun digital => beyond (same.mpr digital.1)

theorem digits?_eq_some_iff {chars : List Char} {number total : Nat} :
    digits? number chars = some total ↔
      (∀ char ∈ chars, char.isDigit) ∧ total = Nat.ofDigitChars 10 chars number := by
  induction chars generalizing number with
  | nil =>
      rw [digits?, Option.some.injEq, eq_comm]
      simp [Nat.ofDigitChars]
  | cons char chars ih =>
      rw [digits?]
      cases found : digit? char with
      | none =>
          have other : char.isDigit ≠ true := fun digit => by
            cases found.symm.trans (digit?_eq_some_iff.mpr ⟨digit, rfl⟩)
          simp [other]
      | some digit =>
          obtain ⟨digital, rfl⟩ := digit?_eq_some_iff.mp found
          simp only [ih, List.forall_mem_cons, digital, true_and, Nat.ofDigitChars,
            List.foldl_cons]

def unsigned : List Char → List Char
  | '+' :: digits => digits
  | digits => digits

theorem numeral_iff {text : String} {number : Nat} :
    Numeral text number ↔ unsigned text.toList ≠ [] ∧
      (∀ char ∈ unsigned text.toList, char.isDigit) ∧
      number = Nat.ofDigitChars 10 (unsigned text.toList) 0 := by
  constructor
  · rintro ⟨digits, same | same, nonempty, digital, value⟩
    · have unsigned : unsigned text.toList = digits := by
        rw [same]
        unfold Reply.unsigned
        split
        -- A plus sign is no digit, so it cannot be taken for one.
        · exact absurd (digital '+' List.mem_cons_self) (by decide)
        · rfl
      rw [unsigned]
      exact ⟨nonempty, digital, value⟩
    · rw [same]
      exact ⟨nonempty, digital, value⟩
  · rintro ⟨nonempty, digital, value⟩
    refine ⟨unsigned text.toList, ?_, nonempty, digital, value⟩
    unfold unsigned
    split
    · next same => exact .inr same
    · exact .inl rfl

theorem number?_eq (text : String) : number? text =
    if unsigned text.toList = [] then none
    else (digits? 0 (unsigned text.toList)).filter (· < Nat.pow 2 64) := by
  unfold number? unsigned
  dsimp only
  split <;> split <;> simp_all

theorem number?_eq_some_iff {text : String} {number : Nat} :
    number? text = some number ↔ Numeral text number ∧ number < Nat.pow 2 64 := by
  rw [numeral_iff, number?_eq]
  split
  · next empty => simp [empty]
  · next nonempty => simp [Option.filter_eq_some_iff, digits?_eq_some_iff, nonempty]

theorem index?_eq_some_iff {text : String} {index : Nat} :
    index? text = some index ↔ Numeral text (index + 1) ∧ index + 1 < Nat.pow 2 64 := by
  rw [← number?_eq_some_iff, index?]
  split
  · next found => simp [found]
  · next other => exact iff_of_false nofun (other index)

/-! ## Lines -/

theorem ofLine_eq (line : String) :
    ofLine line = if Text.trim line = "" then .next else if Text.trim line = "q" then .quit
      else .other (Text.trim line) := by
  unfold ofLine
  split <;> simp_all

theorem trim_of_solid {text : String}
    (solid : ∀ char ∈ text.toList, Text.isBlank char = false) : Text.trim text = text := by
  have keeps (chars : List Char) (solid : ∀ char ∈ chars, Text.isBlank char = false) :
      chars.dropWhile Text.isBlank = chars := by
    cases chars with
    | nil => rfl
    | cons char chars => simp [solid]
  rw [Text.trim, keeps _ solid, keeps _ (by simpa using solid), List.reverse_reverse,
    String.ofList_toList]

theorem numeral_toString (number : Nat) : Numeral (toString number) number := by
  have spelled : (toString number).toList = Nat.toDigits 10 number := by simp
  refine ⟨Nat.toDigits 10 number, .inl spelled, Nat.toDigits_ne_nil, ?_, ?_⟩
  · exact fun char member => Nat.isDigit_of_mem_toDigits (by decide) (by decide) member
  · exact Nat.ofDigitChars_ten_toDigits.symm

theorem ofLine_toString (number : Nat) : ofLine (toString number) = .other (toString number) := by
  have digital (char : Char) (member : char ∈ (toString number).toList) :
      char.isDigit = true := by
    rw [Nat.toString_eq_ofList_toDigits, String.toList_ofList] at member
    exact Nat.isDigit_of_mem_toDigits (by decide) (by decide) member
  have solid : Text.trim (toString number) = toString number :=
    trim_of_solid fun char member => by
      have within := digital char member
      simp only [Char.isDigit, Bool.and_eq_true, decide_eq_true_eq, ge_iff_le,
        UInt32.le_iff_toNat_le] at within
      have zero : '0'.val.toNat = 48 := rfl
      have nine : '9'.val.toNat = 57 := rfl
      have code : char.toNat = char.val.toNat := rfl
      simp [Text.isBlank]
      omega
  have notQuit : toString number ≠ "q" := fun quit =>
    absurd (digital 'q' (by simp [quit])) (by decide)
  have nonempty : toString number ≠ "" := fun empty => by
    rw [Nat.toString_eq_ofList_toDigits, ← String.toList_inj, String.toList_ofList] at empty
    exact Nat.toDigits_ne_nil empty
  rw [ofLine_eq, solid, if_neg nonempty, if_neg notQuit]

end Reply

namespace Interpreter

/-! ## The last cue -/

def AtMenu (interpreter : Interpreter) : Prop :=
  ∀ options, interpreter.pendingChoices = some options →
    ∃ before, interpreter.cues = before ++ [.renderChoices (options.map (·.text))]

section AtMenu

variable {stage : Stage} {interpreter : Interpreter}

theorem atMenu_of_phase (elsewhere : interpreter.phase ≠ .awaitingChoice) :
    AtMenu interpreter := by
  intro options pending
  rw [pendingChoices_of_phase elsewhere] at pending
  cases pending

theorem AtMenu.of_same {after : Interpreter} (atMenu : AtMenu interpreter)
    (machine : after.toMachine = interpreter.toMachine) (cues : after.cues = interpreter.cues) :
    AtMenu after := by
  unfold AtMenu
  rw [machine, cues]
  exact atMenu

theorem runUntilSuspended_atMenu (running : interpreter.phase = .running) :
    AtMenu (interpreter.runUntilSuspended stage).2 := by
  apply runUntilSuspended_rule (fun interpreter => interpreter.phase = .running)
    fun _ next => AtMenu next
  · exact running
  · intro interpreter instruction flow next running found outcome
    have running : (interpreter.fetch instruction).phase = .running := running
    cases executed_of_eq outcome with
    | passed passes passed => exact (phase_of_clock passed.clock).trans running
    | settling time settles same =>
        refine atMenu_of_phase ?_
        show _ ≠ _
        simp [phase_of_clock same.clock, running]
    | revealing speaker text name time => exact atMenu_of_phase (by simp [give, running])
    | presenting options nonempty =>
        intro shown pending
        obtain rfl : options = shown := by
          refine Option.some.inj (Eq.trans (Eq.symm ?_) pending)
          exact pendingChoices_eq rfl rfl found
        exact ⟨_, cues_give ..⟩
    | finishing endText => exact atMenu_of_phase (by simp)
  · intro interpreter running found
    exact atMenu_of_phase (by simp)
  · intro offset interpreter running
    exact atMenu_of_phase (by simp)

theorem moved_atMenu {move : Move Wake} {answer : Answer} {after : Interpreter}
    (atMenu : AtMenu interpreter) (moved : Moved stage interpreter move answer after) :
    AtMenu after := by
  cases moved with
  | ignored unchanged =>
      cases unchanged with
      | same => exact atMenu
      | noted => exact atMenu.of_same rfl (cues_eq_of_history rfl)
  | refused => exact atMenu.of_same rfl (cues_eq_of_history rfl)
  | resumed resumes => exact runUntilSuspended_atMenu resumes.running
  | revealing running => exact atMenu_of_phase (by simp [tell, give, running])
  | revealed => exact atMenu_of_phase (by simp)
  | stopped => exact atMenu_of_phase (by simp)
  | rested => exact atMenu

theorem replayChoices_atMenu (interpreter : Interpreter) : AtMenu interpreter.replayChoices := by
  unfold replayChoices
  split
  · next options pending =>
      intro shown pending'
      obtain rfl : options = shown := Option.some.inj (pending.symm.trans pending')
      exact ⟨_, cues_give ..⟩
  · next none =>
      intro options pending
      cases none.symm.trans pending

theorem restore_atMenu (atMenu : AtMenu interpreter) (script : Script) (save : SavePoint) :
    AtMenu (interpreter.restore stage script save).2 := by
  cases outcome : save.step? script with
  | error refusal =>
      rw [restore_refused _ outcome]
      exact atMenu
  | ok step =>
      rw [restore_eq _ outcome]
      exact replayChoices_atMenu _

theorem Reachable.atMenu (reachable : Reachable stage interpreter) : AtMenu interpreter := by
  induction reachable with
  | fresh => exact atMenu_of_phase nofun
  | @perform interpreter operation _ atMenu =>
      cases operation with
      | start script => exact runUntilSuspended_atMenu rfl
      | restore script save => exact restore_atMenu atMenu script save
      | move move => exact moved_atMenu atMenu (moved stage interpreter move)

end AtMenu

theorem makeMove_history (stage : Stage) (move : Move Wake) (interpreter : Interpreter) :
    ∃ events, (interpreter.makeMove stage move).2.history = interpreter.history ++ events := by
  rw [makeMove_records]
  simp only [Prod.map_snd, records, Past.interpreter_ofRecords]
  exact ⟨_, rfl⟩

end Interpreter

namespace Player

open Interpreter

/-! ## What stands on the screen -/

def Shows (player : Player) (cue : Cue) : Prop :=
  ∃ transcript : Transcript,
    (transcript.perform cue).1.map Output.text <:+: player.output.toList

def ShowsAll (player : Player) : Prop :=
  ∀ cue ∈ player.interpreter.cues, player.Shows cue

section Shows

variable {stage : Stage} {debug : Bool} {player : Player}

theorem Shows.mono {after : Player} {cue : Cue} (shows : player.Shows cue)
    (grows : player.output.toList <+: after.output.toList) : after.Shows cue := by
  obtain ⟨transcript, inside⟩ := shows
  exact ⟨transcript, inside.trans grows.isInfix⟩

theorem ShowsAll.mono {after : Player} (shows : player.ShowsAll)
    (cues : after.interpreter.cues = player.interpreter.cues)
    (grows : player.output.toList <+: after.output.toList) : after.ShowsAll := by
  intro cue given
  rw [cues] at given
  exact (shows cue given).mono grows

theorem print_grows (text : String) (player : Player) :
    player.output.toList <+: (player.print text).output.toList := by
  simp [print]

theorem ask_grows (debug : Bool) (player : Player) :
    player.output.toList <+: (player.ask debug).output.toList := by
  unfold ask
  cases debug <;> cases player.awaited <;> simp [print]

theorem follow_contains (transcript : Transcript) {events : List Event} {cue : Cue}
    (given : cue ∈ events.filterMap Event.cue?) :
    ∃ earlier : Transcript, (earlier.perform cue).1.map Output.text <:+:
      (transcript.follow .working events).1 := by
  induction events generalizing transcript with
  | nil => cases given
  | cons event events ih =>
      cases event with
      | note noted =>
          obtain ⟨earlier, inside⟩ := ih transcript given
          exact ⟨earlier, inside.trans (List.suffix_cons ..).isInfix⟩
      | cue first =>
          have written : (transcript.perform first).1.map Output.text =
              (transcript.perform first).1.flatMap Screen.working.write := List.map_eq_flatMap
          have begins : (transcript.follow .working (.cue first :: events)).1 =
              (transcript.perform first).1.map Output.text ++
                ((transcript.perform first).2.follow .working events).1 := by
            rw [written]
            rfl
          rw [begins]
          obtain rfl | later := List.mem_cons.mp given
          · exact ⟨transcript, (List.prefix_append ..).isInfix⟩
          · obtain ⟨earlier, inside⟩ := ih (transcript.perform first).2 later
            exact ⟨earlier, inside.trans (List.suffix_append ..).isInfix⟩

theorem follow_showsAll {interpreter : Interpreter} {events : Array Event}
    (shows : player.ShowsAll)
    (history : interpreter.history = player.interpreter.history ++ events) :
    (player.follow interpreter).ShowsAll := by
  have grows : (player.follow interpreter).output.toList =
      player.output.toList ++ (player.transcript.follow .working events.toList).1 := by
    simp [follow, history]
  intro cue given
  have split : interpreter.cues =
      player.interpreter.cues ++ events.toList.filterMap Event.cue? := by
    simp [Interpreter.cues, history]
  rw [follow_interpreter, split] at given
  obtain sooner | later := List.mem_append.mp given
  · exact (shows cue sooner).mono (by rw [grows]; exact List.prefix_append ..)
  · obtain ⟨earlier, inside⟩ := follow_contains player.transcript later
    refine ⟨earlier, ?_⟩
    rw [grows]
    exact inside.trans (List.suffix_append ..).isInfix

theorem take_showsAll {outcome : Step × Interpreter} {events : Array Event}
    (shows : player.ShowsAll)
    (history : outcome.2.history = player.interpreter.history ++ events) :
    (player.take debug outcome).ShowsAll :=
  (follow_showsAll shows history).mono (by simp)
    (ask_grows debug { player.follow outcome.2 with awaited := .ofStep outcome.2.phase outcome.1 })

theorem ShowsAll.tell (shows : player.ShowsAll) (text : String) :
    ((player.print text).ask debug).ShowsAll :=
  shows.mono (by simp) ((print_grows text player).trans (ask_grows debug _))

theorem choose_showsAll (shows : player.ShowsAll) (text : String) :
    (player.choose stage debug text).ShowsAll := by
  unfold choose
  split
  · exact shows.tell _
  · next index _ =>
      obtain ⟨events, history⟩ := makeMove_history stage (.select index) player.interpreter
      split
      · next step interpreter selected =>
          rw [makeMove, selected] at history
          exact take_showsAll shows history
      · next refusal interpreter refused =>
          rw [makeMove, refused] at history
          exact (follow_showsAll shows history).tell _

theorem enter_showsAll (shows : player.ShowsAll) (reply : Reply) :
    (player.enter stage debug reply).ShowsAll := by
  unfold enter
  split
  · obtain ⟨events, history⟩ := makeMove_history stage .advance player.interpreter
    exact take_showsAll shows history
  · exact shows.tell _
  · exact shows.mono (by simp) (ask_grows debug player)
  · exact choose_showsAll shows _
  · exact shows
  · exact shows

theorem InPlay.showsAll {script : Script} (inPlay : InPlay stage debug script player) :
    player.ShowsAll := by
  induction inPlay with
  | start =>
      have blank : (ready.print banner).ShowsAll := nofun
      have history : (fresh.start stage script).2.history =
          (ready.print banner).interpreter.history ++ (fresh.start stage script).2.history := by
        simp [ready, fresh]
      exact take_showsAll blank history
  | @fire player after wake _ awaited shows =>
      obtain ⟨events, history⟩ := makeMove_history stage (.wake wake) player.interpreter
      exact take_showsAll shows history
  | enter reply _ prompts shows => exact enter_showsAll shows reply

/-! ## Menus -/

theorem numbered_getElem? {texts : List String} {text : String} (number : Nat) {index : Nat}
    (found : texts[index]? = some text) :
    (Transcript.numbered number texts)[index]? =
      some (toString (number + index) ++ ". " ++ text ++ "\n") := by
  induction texts generalizing number index with
  | nil => simp at found
  | cons first texts ih =>
      cases index with
      | zero =>
          cases found
          rfl
      | succ index =>
          have found : texts[index]? = some text := found
          rw [Transcript.numbered, List.getElem?_cons_succ, ih (number + 1) found]
          congr 5
          omega

/-- The options of a choice stand on the screen, numbered from one, and the number beside an option
selects it. -/
structure Offers (stage : Stage) (debug : Bool) (player : Player) (offset : Nat)
    (options : List ChoiceOption) : Prop where
  asked : player.interpreter.choiceAt = some offset
  found : player.interpreter.script.get? offset = some (.choice options)
  presented : player.interpreter.cues.getLast? = some (.renderChoices (options.map (·.text)))
  shown : (Transcript.numbered 1 (options.map (·.text))).map Output.text <:+: player.output.toList
  numbered : ∀ index option, options[index]? = some option →
    (Transcript.numbered 1 (options.map (·.text)))[index]? =
      some (toString (index + 1) ++ ". " ++ option.text ++ "\n")
  selects : ∀ index option, options[index]? = some option → index + 1 < Nat.pow 2 64 →
    player.enter stage debug (.ofLine (toString (index + 1))) =
      player.take debug ((player.interpreter.note
        (.choiceSelected index option.text)).takeOption stage offset option)

theorem menu_shown {script : Script} (inPlay : InPlay stage debug script player)
    (awaited : player.awaited = .choice) :
    ∃ offset options, Offers stage debug player offset options := by
  have tuned := inPlay.tuned
  have awaiting := tuned.choice awaited
  obtain ⟨offset, options, asked, found, -⟩ := tuned.reachable.placed.choice awaiting
  have pending := pendingChoices_eq awaiting asked found
  obtain ⟨before, cues⟩ := tuned.reachable.atMenu options pending
  refine ⟨offset, options, asked, found, by simp [cues], ?_, ?_, ?_⟩
  · obtain ⟨transcript, inside⟩ := inPlay.showsAll (.renderChoices (options.map (·.text)))
      (by simp [cues])
    refine List.IsInfix.trans ?_ inside
    simp only [Transcript.perform, List.map_append, List.map_cons]
    exact ((List.suffix_cons ..).trans (List.suffix_append ..)).isInfix
  · intro index option selected
    rw [numbered_getElem? 1 (by simpa using congrArg (Option.map (·.text)) selected),
      Nat.add_comm 1]
  · intro index option selected fits
    have index? : Reply.index? (toString (index + 1)) = some index :=
      Reply.index?_eq_some_iff.mpr ⟨Reply.numeral_toString _, fits⟩
    rw [Reply.ofLine_toString]
    simp only [enter, awaited, choose, index?]
    rw [select_eq awaiting asked found selected]
    rfl

end Shows

end Player

end VisualNovel
