import VisualNovel.Proofs.Display
import VisualNovel.Proofs.Positions

namespace VisualNovel

inductive Dialogue.PartOf : Option Dialogue → Option Dialogue → Prop where
  | none : PartOf none none
  | line (speaker : Option String) {shown text : String} :
      shown.toList <+: text.toList → PartOf (some ⟨speaker, shown⟩) (some ⟨speaker, text⟩)

theorem Dialogue.PartOf.refl (dialogue : Option Dialogue) : PartOf dialogue dialogue := by
  cases dialogue with
  | none => exact .none
  | some dialogue => exact .line dialogue.speaker (List.prefix_refl _)

namespace Reveal

variable {α : Type} {reveal after : Reveal α} {ticket : Ticket} {shown : String}

theorem tick_partly {next : Ticket} (ticked : reveal.tick ticket = (.partly shown next, after)) :
    ∃ revealing, reveal.active = some revealing ∧
      after.active = some revealing.advance ∧ shown = revealing.advance.shown := by
  unfold tick at ticked
  split at ticked
  · cases ticked
  split at ticked
  · cases ticked
  next revealing active =>
  dsimp only at ticked
  split at ticked
  · cases ticked
    exact ⟨revealing, active, rfl, rfl⟩
  · cases ticked

theorem tick_complete {offset : α} (ticked : reveal.tick ticket = (.complete shown offset, after)) :
    ∃ revealing, reveal.active = some revealing ∧ after.active = none ∧
      shown = String.ofList revealing.text := by
  unfold tick at ticked
  split at ticked
  · cases ticked
  split at ticked
  · cases ticked
  next revealing active =>
  dsimp only at ticked
  split at ticked
  · cases ticked
  · cases ticked
    exact ⟨revealing, active, rfl, congrArg String.ofList revealing.text_advance⟩

end Reveal

/-- The texts of the choice that was presented last, if no option has been taken. -/
def Machine.presented (machine : Machine) : Option (List String) :=
  match machine.choiceAt.bind machine.script.get? with
  | some (.choice options) => some (options.map (·.text))
  | _ => none

namespace Interpreter

/-! ## The invariant -/

inductive LineShown (interpreter : Interpreter) : Prop where
  | whole : interpreter.reveal.active = none →
      interpreter.display.dialogue = interpreter.scene.dialogue → LineShown interpreter
  | revealing (speaker : Option String) (revealing : Revealing Nat) :
      interpreter.reveal.active = some revealing →
      interpreter.scene.dialogue = some ⟨speaker, String.ofList revealing.text⟩ →
      interpreter.display.dialogue = some ⟨speaker, revealing.shown⟩ → LineShown interpreter
  | cut : interpreter.phase = .stopped → interpreter.reveal.active = none →
      Dialogue.PartOf interpreter.display.dialogue interpreter.scene.dialogue →
      LineShown interpreter

structure Mirrored (table : AssetTable) (interpreter : Interpreter) : Prop where
  inStep : InStep table interpreter.display interpreter.scene
  line : LineShown interpreter
  choices : interpreter.display.choices = interpreter.presented
  unasked : interpreter.phase ≠ .awaitingChoice → interpreter.phase ≠ .stopped →
    interpreter.choiceAt = none

structure Ready (table : AssetTable) (interpreter : Interpreter) : Prop where
  inStep : InStep table interpreter.display interpreter.scene
  phase : interpreter.phase = .running
  active : interpreter.reveal.active = none
  dialogue : interpreter.display.dialogue = interpreter.scene.dialogue
  choices : interpreter.display.choices = none
  choiceAt : interpreter.choiceAt = none

theorem presented_of_none {machine : Machine} (unasked : machine.choiceAt = none) :
    machine.presented = none := by
  simp only [Machine.presented, unasked, Option.bind_none]

theorem LineShown.partOf {interpreter : Interpreter} (line : LineShown interpreter) :
    Dialogue.PartOf interpreter.display.dialogue interpreter.scene.dialogue := by
  cases line with
  | whole active same =>
      rw [same]
      exact .refl _
  | revealing speaker revealing active scene display =>
      rw [scene, display]
      refine .line speaker ?_
      rw [String.toList_ofList]
      exact revealing.shown_prefix
  | cut stopped active part => exact part

theorem LineShown.whole_of_active {interpreter : Interpreter} (line : LineShown interpreter)
    (active : interpreter.reveal.active = none) (going : interpreter.phase ≠ .stopped) :
    interpreter.display.dialogue = interpreter.scene.dialogue := by
  cases line with
  | whole _ same => exact same
  | revealing speaker revealing revealed =>
      rw [active] at revealed
      cases revealed
  | cut stopped => exact absurd stopped going

theorem LineShown.of_active {interpreter : Interpreter} {revealing : Revealing Nat}
    (line : LineShown interpreter) (active : interpreter.reveal.active = some revealing) :
    ∃ speaker, interpreter.scene.dialogue = some ⟨speaker, String.ofList revealing.text⟩ ∧
      interpreter.display.dialogue = some ⟨speaker, revealing.shown⟩ := by
  cases line with
  | whole none => simp [active] at none
  | revealing speaker revealed active' scene display =>
      obtain rfl : revealed = revealing := Option.some.inj (active'.symm.trans active)
      exact ⟨speaker, scene, display⟩
  | cut stopped none => simp [active] at none

/-! ## What a display does not mirror -/

structure Unmoved (before after : Interpreter) : Prop where
  display : after.display = before.display
  scene : after.scene = before.scene
  active : after.reveal.active = before.reveal.active
  phase : after.phase = before.phase
  choiceAt : after.choiceAt = before.choiceAt
  script : after.script = before.script

namespace Unmoved

theorem note (noted : Note) (interpreter : Interpreter) :
    Unmoved interpreter (interpreter.note noted) :=
  ⟨display_note .., rfl, rfl, rfl, rfl, rfl⟩

theorem report (diagnostic : Diagnostic) (interpreter : Interpreter) :
    Unmoved interpreter (interpreter.report diagnostic) :=
  ⟨display_report .., rfl, rfl, rfl, rfl, rfl⟩

theorem fetch (instruction : Instruction) (interpreter : Interpreter) :
    Unmoved interpreter (interpreter.fetch instruction) :=
  ⟨display_note .., rfl, rfl, rfl, rfl, rfl⟩

variable {table : AssetTable} {before after : Interpreter}

theorem passed (passed : Passed before after) : Unmoved before after where
  display := display_eq_of_cues passed.cues
  scene := passed.scene
  active := active_of_clock passed.clock
  phase := phase_of_clock passed.clock
  choiceAt := passed.choiceAt
  script := passed.script

theorem ready (unmoved : Unmoved before after) (ready : Ready table before) :
    Ready table after := by
  obtain ⟨display, scene, active, phase, choiceAt, _⟩ := unmoved
  constructor
  · rw [display, scene]
    exact ready.inStep
  · rw [phase, ready.phase]
  · rw [active, ready.active]
  · rw [display, scene, ready.dialogue]
  · rw [display, ready.choices]
  · rw [choiceAt, ready.choiceAt]

theorem presented (unmoved : Unmoved before after) : after.presented = before.presented := by
  simp only [Machine.presented, unmoved.choiceAt, unmoved.script]

theorem lineShown (unmoved : Unmoved before after) (line : LineShown before) :
    LineShown after := by
  obtain ⟨display, scene, active, phase, _, _⟩ := unmoved
  cases line with
  | whole none same =>
      exact .whole (active.trans none) (by rw [display, scene, same])
  | revealing speaker revealing revealed text shown =>
      exact .revealing speaker revealing (active.trans revealed) (by rw [scene, text])
        (by rw [display, shown])
  | cut stopped none part =>
      exact .cut (phase.trans stopped) (active.trans none) (by rwa [display, scene])

theorem mirrored (unmoved : Unmoved before after) (mirrored : Mirrored table before) :
    Mirrored table after := by
  constructor
  · rw [unmoved.display, unmoved.scene]
    exact mirrored.inStep
  · exact unmoved.lineShown mirrored.line
  · rw [unmoved.display, mirrored.choices, unmoved.presented]
  · rw [unmoved.phase, unmoved.choiceAt]
    exact mirrored.unasked

end Unmoved

section Moves

variable {stage : Stage} {interpreter : Interpreter}

/-! ## Executing instructions -/

theorem Ready.halt (ready : Ready stage.table interpreter) (phase : Phase) :
    Mirrored stage.table { interpreter with phase := phase } where
  inStep := ready.inStep
  line := .whole ready.active ready.dialogue
  choices := ready.choices.trans (presented_of_none ready.choiceAt).symm
  unasked _ _ := ready.choiceAt

theorem Ready.reveals (ready : Ready stage.table interpreter) (speaker : Option String)
    (text : String) (generation offset : Nat) :
    Mirrored stage.table { interpreter.give (.showDialogue speaker) with
      scene.dialogue := some ⟨speaker, text⟩
      reveal := ⟨generation, some ⟨text.toList, 0, offset⟩⟩ } := by
  have display : (interpreter.give (.showDialogue speaker)).display =
      { interpreter.display with dialogue := some ⟨speaker, ""⟩ } := display_give ..
  refine ⟨?_, .revealing speaker ⟨text.toList, 0, offset⟩ rfl ?_ ?_, ?_,
    fun _ _ => ready.choiceAt⟩
  · show InStep _ (interpreter.give _).display _
    rw [display]
    exact ready.inStep.lines ..
  · rw [String.ofList_toList]
  · have nothing : Revealing.shown ⟨text.toList, 0, offset⟩ = "" := by simp [Revealing.shown]
    rw [nothing]
    exact congrArg Display.dialogue display
  · have choices := (congrArg Display.choices display).trans ready.choices
    exact choices.trans (presented_of_none ready.choiceAt).symm

theorem Ready.presents (ready : Ready stage.table interpreter) {offset : Nat}
    {options : List ChoiceOption}
    (found : interpreter.script.get? offset = some (.choice options)) :
    Mirrored stage.table { interpreter.give (.renderChoices (options.map (·.text))) with
      choiceAt := some offset
      phase := .awaitingChoice } := by
  let texts := options.map (·.text)
  have display : (interpreter.give (.renderChoices texts)).display =
      { interpreter.display with choices := some texts } := display_give ..
  refine ⟨?_, .whole ready.active ?_, ?_, fun elsewhere => absurd rfl elsewhere⟩
  · show InStep _ (interpreter.give (.renderChoices texts)).display _
    rw [display]
    exact ready.inStep.lines ..
  · exact (congrArg Display.dialogue display).trans ready.dialogue
  · have presented : Machine.presented { interpreter.toMachine with
        choiceAt := some offset } = some texts := by
      simp only [Machine.presented, Option.bind_some, found]
      rfl
    exact (congrArg Display.choices display).trans presented.symm

theorem Ready.finishes (ready : Ready stage.table interpreter) (endText : String) :
    Mirrored stage.table { interpreter.give .clearChoices
        |>.give .clearDialogue
        |>.give (.showEnd endText) with
      phase := .ended
      reveal := interpreter.reveal.cancel
      settling := none
      choiceAt := none
      scene.dialogue := none } := by
  let cleared := (interpreter.give .clearChoices).give .clearDialogue
  have display : (cleared.give (.showEnd endText)).display =
      { interpreter.display with dialogue := none, choices := none } := by
    rw [display_give, display_give, display_give]
    rfl
  refine ⟨?_, .whole rfl (congrArg Display.dialogue display), congrArg Display.choices display,
    fun _ _ => rfl⟩
  show InStep _ (cleared.give _).display _
  rw [display]
  exact ready.inStep.lines ..

theorem Ready.yields {instruction : Instruction} {step : Step} {next : Interpreter}
    (ready : Ready stage.table interpreter)
    (found : interpreter.script.get? interpreter.pc = some instruction)
    (outcome : (interpreter.fetch instruction).execute stage interpreter.pc instruction =
      (.yield step, next)) :
    Mirrored stage.table next := by
  have fetched := (Unmoved.fetch instruction interpreter).ready ready
  cases executed_of_eq outcome with
  | @settling _ staged time settles same =>
      have kept := settles_kept stage interpreter.pc (interpreter.fetch instruction) settles
      rw [outcome] at kept
      have active : staged.reveal.active = none :=
        (active_of_clock same.clock).trans fetched.active
      have unasked : staged.choiceAt = none := same.choiceAt.trans fetched.choiceAt
      refine ⟨kept.inStep fetched.inStep, .whole active ?_, ?_, fun _ _ => unasked⟩
      · rw [kept.dialogue, kept.line, fetched.dialogue]
      · exact (kept.choices.trans fetched.choices).trans (presented_of_none unasked).symm
  | revealing speaker text name time => exact fetched.reveals ..
  | presenting options nonempty => exact ((Unmoved.note ..).ready fetched).presents found
  | finishing endText => exact ((Unmoved.note ..).ready fetched).finishes endText

theorem Ready.runUntilSuspended (ready : Ready stage.table interpreter) :
    Mirrored stage.table (interpreter.runUntilSuspended stage).2 := by
  apply runUntilSuspended_rule (Ready stage.table) fun _ next => Mirrored stage.table next
  · exact ready
  · intro interpreter instruction flow next ready found outcome
    cases flow with
    | onward =>
        have fetched := (Unmoved.fetch instruction interpreter).ready ready
        cases executed_of_eq outcome with
        | passed passes passed => exact (Unmoved.passed passed).ready fetched
    | yield step => exact ready.yields found outcome
  · intro interpreter ready found
    exact ((Unmoved.note ..).ready ready).halt .ended
  · intro offset interpreter ready
    exact ((Unmoved.report ..).ready ready).halt .stopped

/-! ## Moves -/

theorem Mirrored.ready (mirrored : Mirrored stage.table interpreter)
    (active : interpreter.reveal.active = none) (going : interpreter.phase ≠ .stopped)
    (unasked : interpreter.choiceAt = none) :
    Ready stage.table { interpreter with phase := .running } where
  inStep := mirrored.inStep
  phase := rfl
  active := active
  dialogue := mirrored.line.whole_of_active active going
  choices := mirrored.choices.trans (presented_of_none unasked)
  choiceAt := unasked

theorem Mirrored.chosen (mirrored : Mirrored stage.table interpreter)
    (active : interpreter.reveal.active = none) (going : interpreter.phase ≠ .stopped)
    (offset : Nat) (option : ChoiceOption) :
    Ready stage.table (interpreter.chosen offset option) := by
  have dialogue := mirrored.line.whole_of_active active going
  let signalled := interpreter.passSignal option
  have passed : signalled.display = interpreter.display ∧ signalled.scene = interpreter.scene ∧
      signalled.reveal = interpreter.reveal := by
    unfold signalled passSignal
    split
    · exact ⟨display_give .., rfl, rfl⟩
    · exact ⟨rfl, rfl, rfl⟩
  let led := signalled.goWhereItLeads offset option
  have unmoved : Unmoved signalled led := .passed (goWhereItLeads_passed ..)
  have display : (led.give .clearChoices).display =
      { interpreter.display with choices := none } := by
    rw [display_give, unmoved.display, passed.1]
    rfl
  have scene : led.scene = interpreter.scene := unmoved.scene.trans passed.2.1
  constructor
  · show InStep _ (led.give .clearChoices).display led.scene
    rw [display, scene]
    exact mirrored.inStep.lines ..
  · rfl
  · show led.reveal.active = none
    rw [unmoved.active, passed.2.2, active]
  · show (led.give .clearChoices).display.dialogue = led.scene.dialogue
    rw [display, scene, dialogue]
  · exact congrArg Display.choices display
  · rfl

theorem stop_mirrored (mirrored : Mirrored stage.table interpreter) :
    Mirrored stage.table interpreter.stop := by
  unfold stop
  split
  · have display : (interpreter.note (.stopped interpreter.pc)).display = interpreter.display :=
      display_note ..
    constructor
    · show InStep _ (interpreter.note _).display _
      rw [display]
      exact mirrored.inStep
    · -- A line that was being revealed is never shown to its end.
      refine .cut rfl rfl ?_
      show Dialogue.PartOf (interpreter.note _).display.dialogue _
      rw [display]
      exact mirrored.line.partOf
    · exact (congrArg Display.choices display).trans mirrored.choices
    · exact fun _ going => absurd rfl going
  · exact mirrored

theorem Ready.afterReveal (ready : Ready stage.table interpreter) (offset : Nat) :
    Mirrored stage.table (interpreter.afterReveal stage offset).2 := by
  unfold Interpreter.afterReveal
  split
  · exact ((Unmoved.note ..).ready ready).runUntilSuspended
  · exact ((Unmoved.note ..).ready ready).halt .awaitingAdvance
  · exact ready.halt .awaitingAdvance

theorem Mirrored.showMore (mirrored : Mirrored stage.table interpreter)
    (running : interpreter.phase = .running) {revealing : Revealing Nat}
    (active : interpreter.reveal.active = some revealing) (text : String) :
    InStep stage.table (interpreter.give (.dialogueText text)).display interpreter.scene ∧
      (interpreter.give (.dialogueText text)).display.choices = none ∧
      interpreter.choiceAt = none ∧
      ∃ speaker, interpreter.scene.dialogue = some ⟨speaker, String.ofList revealing.text⟩ ∧
        (interpreter.give (.dialogueText text)).display.dialogue = some ⟨speaker, text⟩ := by
  have unasked := mirrored.unasked (by simp [running]) (by simp [running])
  obtain ⟨speaker, scene, shown⟩ := mirrored.line.of_active active
  have display : (interpreter.give (.dialogueText text)).display =
      { interpreter.display with dialogue := some ⟨speaker, text⟩ } := by
    rw [display_give, Display.follow, shown]
    rfl
  rw [display]
  exact ⟨mirrored.inStep.lines .., mirrored.choices.trans (presented_of_none unasked), unasked,
    speaker, scene, rfl⟩

theorem tick_mirrored (mirrored : Mirrored stage.table interpreter)
    (running : interpreter.phase = .running) (ticket : Ticket) :
    Mirrored stage.table (interpreter.tick stage ticket).2 := by
  unfold tick
  split
  · exact mirrored
  · next text next reveal ticked =>
      obtain ⟨revealing, active, more, rfl⟩ := Reveal.tick_partly ticked
      obtain ⟨inStep, choices, unasked, speaker, scene, line⟩ :=
        mirrored.showMore running active _
      have whole : some ⟨speaker, String.ofList revealing.advance.text⟩ =
          interpreter.scene.dialogue := by rw [revealing.text_advance, scene]
      refine ⟨inStep, .revealing speaker _ more whole.symm line, ?_, fun _ _ => unasked⟩
      exact choices.trans (presented_of_none unasked).symm
  · next text offset reveal ticked =>
      obtain ⟨revealing, active, complete, shown⟩ := Reveal.tick_complete ticked
      obtain ⟨inStep, choices, unasked, speaker, scene, line⟩ :=
        mirrored.showMore running active text
      rw [← shown] at scene
      refine Ready.afterReveal ?_ offset
      exact ⟨inStep, running, complete, line.trans scene.symm, choices, unasked⟩

variable (timely : interpreter.clock.Timely) (mirrored : Mirrored stage.table interpreter)
include timely mirrored

theorem advance_mirrored : Mirrored stage.table (interpreter.advance stage).2 := by
  unfold advance
  split
  · next awaiting =>
      have active := (timely.halted (by simp [clock, awaiting])).2
      have unasked := mirrored.unasked (by simp [awaiting]) (by simp [awaiting])
      exact (mirrored.ready active (by simp [awaiting]) unasked).runUntilSuspended
  · exact (Unmoved.note ..).mirrored mirrored

theorem select_mirrored (index : Nat) :
    Mirrored stage.table (interpreter.select stage index).2 := by
  unfold select
  split
  · next awaiting =>
      split
      · exact mirrored
      split
      · split
        · next option found =>
            have active := (timely.halted (by simp [clock, awaiting])).2
            have noted := (Unmoved.note (.choiceSelected index option.text) interpreter).mirrored
              mirrored
            exact (noted.chosen active (by simp [awaiting]) _ option).runUntilSuspended
        · exact (Unmoved.note ..).mirrored mirrored
      · exact mirrored
  · exact (Unmoved.note ..).mirrored mirrored

theorem wake_mirrored (wake : Wake) : Mirrored stage.table (interpreter.wake stage wake).2 := by
  unfold Interpreter.wake
  split
  · exact (Unmoved.note ..).mirrored mirrored
  · next current =>
      have running : interpreter.phase = .running :=
        Decidable.not_not.mp (not_or.mp current).2
      have unasked := mirrored.unasked (by simp [running]) (by simp [running])
      split
      · split
        · next sequence timer settling =>
            have active : interpreter.reveal.active = none := by
              have waits := timely.running running
              simpa [clock, settling] using waits
            have dialogue := mirrored.line.whole_of_active active (by simp [running])
            have ready : Ready stage.table { interpreter with settling := none } :=
              ⟨mirrored.inStep, running, active, dialogue,
                mirrored.choices.trans (presented_of_none unasked), unasked⟩
            exact ready.runUntilSuspended
        · exact mirrored
      · exact tick_mirrored mirrored running _

theorem makeMove_mirrored (move : Move Wake) :
    Mirrored stage.table (interpreter.makeMove stage move).2 := by
  cases move with
  | advance => exact advance_mirrored timely mirrored
  | select index => exact select_mirrored timely mirrored index
  | wake wake => exact wake_mirrored timely mirrored wake
  | stop => exact stop_mirrored mirrored

end Moves

/-! ## Runs -/

theorem start_mirrored (stage : Stage) (script : Script) :
    Mirrored stage.table (fresh.start stage script).2 := by
  let reset := fresh.reset script
  let noted := reset.note (.started reset.run script.length reset.targets.size)
  have display : noted.display = .blank :=
    (display_note ..).trans (display_eq_of_cues (reset_cues fresh script))
  refine Ready.runUntilSuspended ⟨?_, rfl, rfl, ?_, ?_, rfl⟩
  · show InStep _ noted.display .blank
    rw [display]
    exact ⟨rfl, rfl, rfl⟩
  · exact congrArg Display.dialogue display
  · exact congrArg Display.choices display

/-- The display mirrors the run: the backdrop, the figures and the music are those of the scene,
the box for lines holds the beginning of the line, and all of it while the run waits on the
reader, and the choices are those from which the reader is to choose. -/
structure Mirrors (table : AssetTable) (interpreter : Interpreter) : Prop where
  backdrop : interpreter.display.backdrop = interpreter.scene.background
  music : interpreter.display.music = interpreter.scene.audio
  figures : interpreter.display.figures = interpreter.scene.characters.map fun id sprite =>
    ⟨sprite.visible, sprite.asset table id, sprite.side⟩
  shown : ∀ id, interpreter.scene.characters.contains id ↔
    ∃ asset side, Cue.showCharacter id asset side ∈ interpreter.cues
  dialogue : Dialogue.PartOf interpreter.display.dialogue interpreter.scene.dialogue
  whole : interpreter.phase.isSuspended →
    interpreter.display.dialogue = interpreter.scene.dialogue
  choices : interpreter.phase = .awaitingChoice → ∃ options,
    interpreter.pendingChoices = some options ∧
      interpreter.display.choices = some (options.map (·.text))
  noChoices : interpreter.phase ≠ .awaitingChoice → interpreter.phase ≠ .stopped →
    interpreter.display.choices = none
  presented : interpreter.display.choices = interpreter.presented

theorem Mirrored.mirrors {table : AssetTable} {interpreter : Interpreter}
    (mirrored : Mirrored table interpreter) (timely : interpreter.clock.Timely)
    (placed : Placed interpreter) : Mirrors table interpreter where
  backdrop := mirrored.inStep.backdrop
  music := mirrored.inStep.music
  figures := mirrored.inStep.figures
  shown := by
    intro id
    have same : interpreter.display.figures.contains id =
        interpreter.scene.characters.contains id := by
      rw [mirrored.inStep.figures, Dict.contains, Dict.get?_map, Option.isSome_map, Dict.contains]
    have noneYet : Display.blank.figures.contains id = false := rfl
    rw [← same, display, Display.contains_figures, noneYet]
    simp
  dialogue := mirrored.line.partOf
  whole := by
    intro suspended
    have halted : interpreter.phase ≠ .running ∧ interpreter.phase ≠ .stopped := by
      constructor <;> intro phase <;> simp [phase, Phase.isSuspended] at suspended
    exact mirrored.line.whole_of_active (timely.halted halted.1).2 halted.2
  choices := by
    intro awaiting
    obtain ⟨offset, options, pending, found, -⟩ := placed.choice awaiting
    refine ⟨options, ?_, ?_⟩
    · simp only [Machine.pendingChoices, pending, Option.bind_some, found, awaiting, ↓reduceIte]
    · rw [mirrored.choices]
      simp only [Machine.presented, pending, Option.bind_some, found]
  noChoices := by
    intro elsewhere going
    rw [mirrored.choices, presented_of_none (mirrored.unasked elsewhere going)]
  presented := mirrored.choices

theorem afterMoves_mirrored {stage : Stage} {interpreter : Interpreter}
    (reachable : Reachable stage interpreter) (mirrored : Mirrored stage.table interpreter)
    (moves : List (Move Wake)) :
    Reachable stage (interpreter.afterMoves stage moves) ∧
      Mirrored stage.table (interpreter.afterMoves stage moves) := by
  induction moves generalizing interpreter with
  | nil => exact ⟨reachable, mirrored⟩
  | cons move moves ih =>
      exact ih (.perform (.move move) reachable) (makeMove_mirrored reachable.timely mirrored move)

theorem display_mirrors (stage : Stage) (script : Script) (moves : List (Move Wake)) :
    Mirrors stage.table ((fresh.start stage script).2.afterMoves stage moves) := by
  have started : Reachable stage (fresh.start stage script).2 := .perform (.start script) .fresh
  obtain ⟨reachable, mirrored⟩ :=
    afterMoves_mirrored started (start_mirrored stage script) moves
  exact mirrored.mirrors reachable.timely reachable.placed

end Interpreter

end VisualNovel
