import VisualNovel.Proofs.Menus
import VisualNovel.Proofs.Refusals

namespace VisualNovel

namespace Player

open Interpreter

def optionCount (player : Player) : Nat :=
  (player.interpreter.pendingChoices.getD []).length

/-- The line makes no sense at the prompt, blanks at its ends apart. -/
def Mistyped (player : Player) (line : String) : Prop :=
  let text := Text.trim line
  match player.awaited with
  | .advance => text ≠ "" ∧ text ≠ "q"
  | .choice => text = "" ∨ text ≠ "q" ∧
      ∀ number, Reply.Numeral text number → number = 0 ∨ player.optionCount < number
  | _ => False

theorem Mistyped.prompts {player : Player} {line : String} (mistyped : player.Mistyped line) :
    player.Prompts := by
  unfold Mistyped at mistyped
  unfold Prompts
  split at mistyped <;> simp_all

/-- The second lines are the first ones, and mistyped lines at any prompts of the play. -/
inductive Interspersed (stage : Stage) (debug : Bool) :
    Player → List Line → List Line → Prop where
  | same (player : Player) (lines : List Line) : Interspersed stage debug player lines lines
  | fires {player : Player} {lines more : List Line} {after : Nat} {wake : Wake} :
      player.awaited = .timer after wake →
      Interspersed stage debug (player.fire stage debug wake) lines more →
      Interspersed stage debug player lines more
  | insert {player : Player} {lines more : List Line} {content : String} :
      player.Mistyped content → Interspersed stage debug player lines more →
      Interspersed stage debug player lines (.text content :: more)
  | keep {player : Player} {lines more : List Line} {content : String} : player.Prompts →
      Interspersed stage debug (player.enter stage debug (.ofLine content)) lines more →
      Interspersed stage debug player (.text content :: lines) (.text content :: more)

structure Alongside (here there : Player) : Prop where
  awaited : here.awaited = there.awaited
  alike : Alike here.interpreter there.interpreter

namespace Alongside

variable {stage : Stage} {debug : Bool} {here there : Player}

theorem refl (player : Player) : Alongside player player :=
  ⟨rfl, .refl _⟩

theorem trans {first second third : Player} (before : Alongside first second)
    (after : Alongside second third) : Alongside first third :=
  ⟨before.awaited.trans after.awaited, before.alike.trans after.alike⟩

theorem print_ask (player : Player) (text : String) :
    Alongside player ((player.print text).ask debug) :=
  ⟨by simp, by simpa using Alike.refl _⟩

theorem of_ask (alongside : Alongside here there) :
    Alongside (here.ask debug) (there.ask debug) :=
  ⟨by simpa using alongside.awaited, by simpa using alongside.alike⟩

theorem of_print_ask (alongside : Alongside here there) (text : String) :
    Alongside ((here.print text).ask debug) ((there.print text).ask debug) :=
  ⟨by simpa using alongside.awaited, by simpa using alongside.alike⟩

theorem take {mine yours : Step × Interpreter} (steps : mine.1 = yours.1)
    (alike : Alike mine.2 yours.2) : Alongside (here.take debug mine) (there.take debug yours) := by
  have phase : mine.2.phase = yours.2.phase := congrArg Machine.phase alike.machine
  exact ⟨by simp [phase, steps], by simpa using alike⟩

theorem fire (alongside : Alongside here there) (wake : Wake) :
    Alongside (here.fire stage debug wake) (there.fire stage debug wake) := by
  obtain ⟨answers, alike⟩ := alongside.alike.makeMove stage (.wake wake)
  exact take (Answer.step.inj answers) alike

theorem choose (alongside : Alongside here there) (text : String) :
    Alongside (here.choose stage debug text) (there.choose stage debug text) := by
  unfold Player.choose
  cases Reply.index? text with
  | none => exact alongside.of_print_ask _
  | some index =>
      obtain ⟨answers, alike⟩ := alongside.alike.makeMove stage (.select index)
      simp only [makeMove, Prod.map_fst, Prod.map_snd, id_eq] at answers alike
      dsimp only
      generalize here.interpreter.select stage index = mine at answers alike ⊢
      generalize there.interpreter.select stage index = yours at answers alike ⊢
      obtain ⟨result, mine⟩ := mine
      obtain ⟨result', yours⟩ := yours
      obtain rfl : result = result' := by
        cases result <;> cases result' <;> cases answers <;> rfl
      cases result with
      | ok step => exact take rfl alike
      | error refusal =>
          have followed : Alongside (here.follow mine) (there.follow yours) :=
            ⟨by simpa using alongside.awaited, by simpa using alike⟩
          exact followed.of_print_ask _

theorem enter (alongside : Alongside here there) (reply : Reply) :
    Alongside (here.enter stage debug reply) (there.enter stage debug reply) := by
  have awaited := alongside.awaited
  have advanced : Alongside (here.take debug (here.interpreter.advance stage))
      (there.take debug (there.interpreter.advance stage)) := by
    obtain ⟨answers, alike⟩ := alongside.alike.makeMove stage .advance
    exact take (Answer.step.inj answers) alike
  unfold Player.enter
  rw [← awaited]
  split
  · exact advanced
  · exact alongside.of_print_ask _
  · exact alongside.of_ask
  · exact alongside.choose _
  · exact ⟨rfl, alongside.alike⟩
  · exact alongside

theorem finish (alongside : Alongside here there) :
    Alike here.finish.interpreter there.finish.interpreter :=
  (alongside.alike.makeMove ⟨{}, .standard, .accepting⟩ .stop).2

theorem prompts (alongside : Alongside here there) (prompts : here.Prompts) : there.Prompts := by
  unfold Prompts
  rw [← alongside.awaited]
  exact prompts

theorem plays {lines : List Line} {ending : Ending} {final : Player}
    (alongside : Alongside here there) (plays : Plays stage debug here lines ending final) :
    ∃ final', Plays stage debug there lines ending final' ∧
      Alike final.interpreter final'.interpreter := by
  induction plays generalizing there with
  | fires awaited _ ih =>
      obtain ⟨final', plays, alike⟩ := ih (alongside.fire _)
      exact ⟨final', .fires (alongside.awaited ▸ awaited) plays, alike⟩
  | halts lines nothing =>
      exact ⟨_, .halts lines (alongside.awaited ▸ nothing), alongside.finish⟩
  | inputEnds prompts => exact ⟨_, .inputEnds (alongside.prompts prompts), alongside.finish⟩
  | enters prompts _ ih =>
      obtain ⟨final', plays, alike⟩ := ih (alongside.enter _)
      exact ⟨final', .enters (alongside.prompts prompts) plays, alike⟩
  | unreadable fault lines prompts =>
      exact ⟨there, .unreadable fault lines (alongside.prompts prompts), alongside.alike⟩

end Alongside

section Mistyped

variable {stage : Stage} {debug : Bool} {script : Script} {player : Player}

theorem select_outside (tuned : Tuned stage player) (awaited : player.awaited = .choice)
    {index : Nat} (outside : player.optionCount ≤ index) :
    ∃ refusal, (player.interpreter.select stage index).1 = .error refusal := by
  obtain ⟨options, pending, answers⟩ :=
    select_asked stage tuned.reachable.placed (tuned.choice awaited)
  have count : player.optionCount = options.length := by
    rw [optionCount, pending]
    rfl
  rw [count] at outside
  obtain ⟨inside, -⟩ | ⟨-, refused⟩ := answers index
  · exact absurd inside (Nat.not_lt.mpr outside)
  · exact ⟨_, refused⟩

theorem choose_mistyped (tuned : Tuned stage player) (awaited : player.awaited = .choice)
    {text : String}
    (wrong : ∀ number, Reply.Numeral text number → number = 0 ∨ player.optionCount < number) :
    Alongside player (player.choose stage debug text) := by
  unfold choose
  split
  · exact .print_ask player _
  · next index found =>
      have numeral := (Reply.index?_eq_some_iff.mp found).1
      have outside : player.optionCount ≤ index := by
        obtain zero | beyond := wrong _ numeral
        · cases zero
        · omega
      obtain ⟨refusal, refused⟩ := select_outside tuned awaited outside
      rcases selected : player.interpreter.select stage index with ⟨result, after⟩
      rw [selected] at refused
      cases refused
      have outcome : player.interpreter.makeMove stage (.select index) =
          (.refusal refusal, after) := by simp [makeMove, selected, Answer.ofResult]
      have alike := (moved_of_eq outcome).alike trivial
      exact ⟨by simp, by simpa using alike⟩

theorem enter_mistyped (tuned : Tuned stage player) {line : String}
    (mistyped : player.Mistyped line) :
    Alongside player (player.enter stage debug (.ofLine line)) := by
  obtain awaited | awaited := mistyped.prompts
  · simp only [Mistyped, awaited] at mistyped
    rw [Reply.ofLine_eq, if_neg mistyped.1, if_neg mistyped.2]
    simp only [enter, awaited]
    exact .print_ask player _
  · simp only [Mistyped, awaited] at mistyped
    rw [Reply.ofLine_eq]
    by_cases blank : Text.trim line = ""
    · rw [if_pos blank]
      simp only [enter, awaited]
      exact ⟨by simp, by simpa using Alike.refl _⟩
    · obtain ⟨notQuit, wrong⟩ := mistyped.resolve_left blank
      rw [if_neg blank, if_neg notQuit]
      simp only [enter, awaited]
      exact choose_mistyped tuned awaited wrong

theorem Interspersed.plays {there final : Player} {lines more : List Line} {ending : Ending}
    (interspersed : Interspersed stage debug player lines more) (tuned : Tuned stage player)
    (alongside : Alongside player there) (plays : Plays stage debug player lines ending final) :
    ∃ final', Plays stage debug there more ending final' ∧
      Alike final.interpreter final'.interpreter := by
  induction interspersed generalizing there with
  | same => exact alongside.plays plays
  | fires awaited _ ih =>
      cases plays with
      | fires awaited' plays =>
          obtain ⟨rfl, rfl⟩ := Awaited.timer.inj (awaited.symm.trans awaited')
          obtain ⟨final', plays, alike⟩ := ih (fire_tuned tuned _) (alongside.fire _) plays
          exact ⟨final', .fires (alongside.awaited ▸ awaited) plays, alike⟩
      | halts _ nothing => cases awaited.symm.trans nothing
      | inputEnds prompts => exact absurd awaited prompts.not_timer
      | enters prompts => exact absurd awaited prompts.not_timer
      | unreadable _ _ prompts => exact absurd awaited prompts.not_timer
  | @insert player lines more content mistyped _ ih =>
      -- The other play takes the line and is as far as before.
      have unnoticed : Alongside player (there.enter stage debug (.ofLine content)) :=
        (enter_mistyped tuned mistyped).trans (alongside.enter _)
      obtain ⟨final', plays, alike⟩ := ih tuned unnoticed plays
      exact ⟨final', .enters (alongside.prompts mistyped.prompts) plays, alike⟩
  | keep prompts _ ih =>
      cases plays with
      | fires awaited => exact absurd awaited prompts.not_timer
      | halts _ nothing => exact absurd nothing prompts.not_nothing
      | enters _ plays =>
          obtain ⟨final', plays, alike⟩ := ih (enter_tuned tuned _) (alongside.enter _) plays
          exact ⟨final', .enters (alongside.prompts prompts) plays, alike⟩

end Mistyped

/-- Mistyped lines change nothing about a play that ends, apart from the words of advice on the
screen. Each prompt takes one line, and the number beside an option selects that option. -/
theorem mistyping_unnoticed (stage : Stage) (debug : Bool) (script : Script) :
    (∀ lines more ending final,
      Interspersed stage debug (start stage debug script) lines more →
      play stage debug script lines = some (ending, final) →
      ∃ final', play stage debug script more = some (ending, final') ∧
        final'.interpreter.cues = final.interpreter.cues ∧
        final'.interpreter.toMachine = final.interpreter.toMachine ∧
        final'.interpreter.diagnostics = final.interpreter.diagnostics) ∧
    (∀ lines ending final, play stage debug script lines = some (ending, final) ↔
      Plays stage debug (start stage debug script) lines ending final) ∧
    ∀ player, InPlay stage debug script player → player.awaited = .choice →
      ∃ offset options, Offers stage debug player offset options := by
  have comesTo (lines : List Line) (ending : Ending) (final : Player) :
      play stage debug script lines = some (ending, final) ↔
        Plays stage debug (start stage debug script) lines ending final :=
    playOn_eq_some_iff .start
  refine ⟨?_, comesTo, fun player => menu_shown⟩
  intro lines more ending final interspersed played
  obtain ⟨final', plays, alike⟩ := interspersed.plays (start_tuned stage debug script)
    (.refl _) ((comesTo ..).mp played)
  exact ⟨final', (comesTo ..).mpr plays, alike.cues.symm, alike.machine.symm,
    congrArg (·.diagnostics) alike.machine.symm⟩

theorem mistyping_unnoticed_at_menu :
    let stage : Stage := ⟨{}, .standard, .accepting⟩
    let script : Script :=
      ⟨[.choice [⟨"Left", none, none⟩, ⟨"Right", none, none⟩], .ending]⟩
    let player := start stage false script
    Interspersed stage false player [.text "2"] [.text " x ", .text "3", .text "2"] ∧
      (∃ ending final, play stage false script [.text "2"] = some (ending, final) ∧
        ∃ final', play stage false script [.text " x ", .text "3", .text "2"] =
            some (ending, final') ∧
          final'.interpreter.cues = final.interpreter.cues) ∧
      ∃ offset options, Offers stage false player offset options := by
  intro stage script player
  have awaited : player.awaited = .choice := rfl
  have letter : player.Mistyped " x " := by
    simp only [Mistyped, awaited]
    refine .inr ⟨by decide, fun number numeral => ?_⟩
    obtain ⟨-, digital, -⟩ := Reply.numeral_iff.mp numeral
    exact absurd (digital 'x' (by decide)) (by decide)
  have beyond : player.Mistyped "3" := by
    simp only [Mistyped, awaited]
    refine .inr ⟨by decide, fun number numeral => .inr ?_⟩
    obtain ⟨-, -, rfl⟩ := Reply.numeral_iff.mp numeral
    decide
  have interspersed : Interspersed stage false player [.text "2"]
      [.text " x ", .text "3", .text "2"] :=
    .insert letter (.insert beyond (.same ..))
  obtain ⟨unnoticed, -, menus⟩ := mistyping_unnoticed stage false script
  have ends : (play stage false script [.text "2"]).isSome = true := by decide
  obtain ⟨⟨ending, final⟩, played⟩ := Option.isSome_iff_exists.mp ends
  obtain ⟨final', played', cues, -⟩ := unnoticed _ _ ending final interspersed played
  exact ⟨interspersed, ⟨ending, final, played, final', played', cues⟩,
    menus player .start awaited⟩

end Player

end VisualNovel
