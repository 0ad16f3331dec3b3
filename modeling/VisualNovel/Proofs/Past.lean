import VisualNovel.Proofs.Execution

/-!
Pasts: what an interpreter did before. A run does the same after any past; only the counters go on
from those of the past, and what is asked for, noted and reported comes after what was before.

Main statements: `makeMove_past` for the moves of a host, and `Session.play_past` for a host that
names wakes by the order in which they were handed out.
-/

namespace VisualNovel

structure Past where
  run : Nat
  timers : Nat
  generation : Nat
  diagnostics : List Diagnostic
  history : Array Event

namespace Past

variable (past : Past)

/-! ## Counting on -/

def ticket (ticket : Ticket) : Ticket :=
  ⟨past.generation + ticket.generation⟩

def timer : Timer → Timer
  | .settle sequence => .settle (past.timers + sequence)
  | .reveal ticket => .reveal (past.ticket ticket)

def wake (wake : Wake) : Wake :=
  ⟨past.run + wake.run, past.timer wake.timer⟩

def step : Step → Step
  | .resume after wake => .resume after (past.wake wake)
  | step => step

def flow : Interpreter.Flow → Interpreter.Flow
  | .onward => .onward
  | .yield step => .yield (past.step step)

def answer : Answer → Answer
  | .step step => .step (past.step step)
  | answer => answer

def note : Note → Note
  | .started run instructions labels => .started (past.run + run) instructions labels
  | .restored run pc => .restored (past.run + run) pc
  | .staleWake wake phase => .staleWake (past.wake wake) phase
  | note => note

def event : Event → Event
  | .cue cue => .cue cue
  | .note note => .note (past.note note)

def reveal (reveal : Reveal Nat) : Reveal Nat :=
  ⟨past.generation + reveal.generation, reveal.active⟩

def tick : Tick Nat → Tick Nat
  | .partly shown next => .partly shown (past.ticket next)
  | tick => tick

def move : Move Wake → Move Wake
  | .wake wake => .wake (past.wake wake)
  | move => move

/-- The interpreter with the past before it. -/
def interpreter (interpreter : Interpreter) : Interpreter where
  script := interpreter.script
  targets := interpreter.targets
  pc := interpreter.pc
  phase := interpreter.phase
  run := past.run + interpreter.run
  timers := past.timers + interpreter.timers
  settling := interpreter.settling.map (past.timers + ·)
  reveal := past.reveal interpreter.reveal
  scene := interpreter.scene
  choiceAt := interpreter.choiceAt
  diagnostics := past.diagnostics ++ interpreter.diagnostics
  history := past.history ++ interpreter.history.map past.event

def cues : List Cue :=
  past.history.toList.filterMap Event.cue?

def stage (stage : Stage) : Stage :=
  { stage with playback := fun before => stage.playback (past.cues ++ before) }

theorem cue?_event (event : Event) : (past.event event).cue? = event.cue? := by
  cases event <;> rfl

theorem cues_interpreter (interpreter : Interpreter) :
    (past.interpreter interpreter).cues = past.cues ++ interpreter.cues := by
  have same : Event.cue? ∘ past.event = Event.cue? := funext past.cue?_event
  simp only [Interpreter.cues, Past.interpreter, cues, Array.toList_append, Array.toList_map,
    List.filterMap_append, List.filterMap_map, same]

theorem tick_reveal (reveal : Reveal Nat) (ticket : Ticket) :
    (past.reveal reveal).tick (past.ticket ticket) =
      (reveal.tick ticket).map past.tick past.reveal := by
  -- Both generations are shifted alike, so the same tickets are stale.
  have generation : past.generation + ticket.generation = past.generation + reveal.generation ↔
      ticket.generation = reveal.generation := Nat.add_left_cancel_iff
  obtain ⟨_, active⟩ := reveal
  simp only [Reveal.tick, Past.reveal, Past.ticket, ne_eq, generation]
  split
  · rfl
  cases active with
  | none => rfl
  | some revealing =>
      simp only
      split <;> rfl

end Past

namespace Interpreter

variable (past : Past) (stage : Stage) (interpreter : Interpreter)

/-! ## Cues, notes and diagnostics -/

theorem push_past (event : Event) : (past.interpreter interpreter).history.push (past.event event) =
    past.history ++ (interpreter.history.push event).map past.event := by
  simp [Past.interpreter]

theorem give_past (cue : Cue) :
    (past.interpreter interpreter).give cue = past.interpreter (interpreter.give cue) := by
  have history := push_past past interpreter (.cue cue)
  simp only [Past.event] at history
  simp only [give, history]
  rfl

theorem note_past (noted : Note) : (past.interpreter interpreter).note (past.note noted) =
    past.interpreter (interpreter.note noted) := by
  have history := push_past past interpreter (.note noted)
  simp only [Past.event] at history
  simp only [note, history]
  rfl

theorem note_past_of_eq (noted : Note) (same : past.note noted = noted) :
    (past.interpreter interpreter).note noted = past.interpreter (interpreter.note noted) := by
  have kept := note_past past interpreter noted
  rwa [same] at kept

theorem report_past (diagnostic : Diagnostic) :
    (past.interpreter interpreter).report diagnostic =
      past.interpreter (interpreter.report diagnostic) := by
  have history := push_past past interpreter (.note (.problem diagnostic))
  simp only [Past.event, Past.note] at history
  simp only [report, history]
  simp [Past.interpreter]

/-! ## Instructions -/

theorem assetOrLiteral_past (kind name : String) (asset : Option String) :
    (past.interpreter interpreter).assetOrLiteral kind name asset =
      (interpreter.assetOrLiteral kind name asset).map id past.interpreter := by
  cases asset with
  | some asset => rfl
  | none =>
      simp only [assetOrLiteral, report_past]
      rfl

theorem showBackdrop_past (visible : Option Bool) :
    (past.interpreter interpreter).showBackdrop visible =
      past.interpreter (interpreter.showBackdrop visible) := by
  cases visible with
  | none => rfl
  | some visible =>
      simp only [showBackdrop, give_past]
      rfl

theorem changeBackdrop_past (image : Option String) :
    (past.interpreter interpreter).changeBackdrop stage image =
      past.interpreter (interpreter.changeBackdrop (past.stage stage) image) := by
  cases image with
  | none => rfl
  | some name =>
      simp only [changeBackdrop, assetOrLiteral_past, Prod.map, give_past]
      rfl

theorem spriteAsset_past (name : String) (state : Option String) :
    (past.interpreter interpreter).spriteAsset stage name state =
      (interpreter.spriteAsset (past.stage stage) name state).map id past.interpreter := by
  cases state with
  | none => rfl
  | some state =>
      simp only [spriteAsset, stateAsset, assetOrLiteral_past, Prod.map]
      rfl

theorem showCharacter_past (offset : Nat) (name : String) (state : Option String)
    (side : Option Side) :
    (past.interpreter interpreter).showCharacter stage offset name state side =
      past.interpreter (interpreter.showCharacter (past.stage stage) offset name state side) := by
  have table : (past.stage stage).table = stage.table := rfl
  by_cases known : stage.table.hasCharacter name
  · simp only [showCharacter, table, known, ↓reduceIte, spriteAsset_past, Prod.map, give_past]
    rfl
  · simp only [showCharacter, table, known, Bool.false_eq_true, ↓reduceIte, report_past,
      spriteAsset_past, Prod.map, give_past]
    rfl

theorem hideCharacter_past (offset : Nat) (name : String) :
    (past.interpreter interpreter).hideCharacter offset name =
      past.interpreter (interpreter.hideCharacter offset name) := by
  have scene : (past.interpreter interpreter).scene = interpreter.scene := rfl
  simp only [hideCharacter, scene]
  split
  · exact report_past ..
  · rw [give_past]
    rfl

theorem changeCharacter_past (offset : Nat) (name : String) (state : Option String) :
    (past.interpreter interpreter).changeCharacter stage offset name state =
      past.interpreter (interpreter.changeCharacter (past.stage stage) offset name state) := by
  have scene : (past.interpreter interpreter).scene = interpreter.scene := rfl
  simp only [changeCharacter, scene]
  split
  · exact report_past ..
  · exact report_past ..
  · simp only [stateAsset, assetOrLiteral_past, Prod.map, give_past]
    rfl

theorem requestMusic_past (asset : String) (looping : Bool) :
    (past.interpreter interpreter).requestMusic stage asset looping =
      past.interpreter (interpreter.requestMusic (past.stage stage) asset looping) := by
  have answer : (past.stage stage).playback interpreter.cues asset looping =
      stage.playback (past.interpreter interpreter).cues asset looping := by
    rw [Past.cues_interpreter]
    rfl
  simp only [requestMusic, answer, give_past]
  split
  · rfl
  · exact report_past ..

theorem playMusic_past (offset : Nat) (track : Option String) (looping : Option Bool) :
    (past.interpreter interpreter).playMusic stage offset track looping =
      past.interpreter (interpreter.playMusic (past.stage stage) offset track looping) := by
  cases track with
  | none => exact report_past ..
  | some track =>
      have noted (asset : String) (looping : Bool) (interpreter : Interpreter) :
          (past.interpreter interpreter).note (.playing asset looping) =
            past.interpreter (interpreter.note (.playing asset looping)) :=
        note_past_of_eq past interpreter _ rfl
      simp only [playMusic, assetOrLiteral_past, Prod.map, noted, requestMusic_past]
      rfl

theorem settle_past (time : Nat) : (past.interpreter interpreter).settle time =
    (interpreter.settle time).map past.flow past.interpreter := rfl

theorem actCharacter_past (offset : Nat) (name : String) (action : CharacterAction)
    (state : Option String) (side : Option Side) (wait : Option UInt64) :
    (past.interpreter interpreter).actCharacter stage offset name action state side wait =
      (interpreter.actCharacter (past.stage stage) offset name action state side wait).map
        past.flow past.interpreter := by
  cases action with
  | shown =>
      simp only [actCharacter, showCharacter_past]
      rfl
  | hidden =>
      simp only [actCharacter, hideCharacter_past]
      rfl
  | setState =>
      simp only [actCharacter, changeCharacter_past]
      rfl

theorem actMusic_past (offset : Nat) (action : MusicAction) (track : Option String)
    (looping : Option Bool) :
    (past.interpreter interpreter).actMusic stage offset action track looping =
      (interpreter.actMusic (past.stage stage) offset action track looping).map
        past.flow past.interpreter := by
  cases action with
  | play =>
      simp only [actMusic, playMusic_past]
      rfl
  | stop =>
      simp only [actMusic, give_past]
      rfl
  | pause =>
      simp only [actMusic, give_past]
      rfl

theorem presentChoices_past (offset : Nat) (options : List ChoiceOption) :
    (past.interpreter interpreter).presentChoices offset options =
      (interpreter.presentChoices offset options).map past.flow past.interpreter := by
  cases options with
  | nil =>
      simp only [presentChoices, List.isEmpty_nil, ↓reduceIte, report_past]
      rfl
  | cons option options =>
      have noted := note_past_of_eq past interpreter
        (.presentingChoices (option :: options).length offset) rfl
      simp only [presentChoices, List.isEmpty_cons, Bool.false_eq_true, ↓reduceIte, noted,
        give_past]
      rfl

theorem jump_past (offset : Nat) (label : String) :
    (past.interpreter interpreter).jump offset label =
      past.interpreter (interpreter.jump offset label) := by
  have targets : (past.interpreter interpreter).targets = interpreter.targets := rfl
  simp only [jump, targets]
  split
  · rw [note_past_of_eq _ _ _ rfl]
    rfl
  · exact report_past ..

theorem finish_past (offset : Nat) : (past.interpreter interpreter).finish stage offset =
    (interpreter.finish (past.stage stage) offset).map past.flow past.interpreter := by
  simp only [finish, note_past_of_eq past interpreter (.finished offset) rfl, give_past]
  rfl

theorem execute_past (offset : Nat) (instruction : Instruction) :
    (past.interpreter interpreter).execute stage offset instruction =
      (interpreter.execute (past.stage stage) offset instruction).map
        past.flow past.interpreter := by
  cases instruction with
  | label name =>
      simp only [execute, note_past_of_eq past interpreter (.passingLabel name offset) rfl]
      rfl
  | say speaker text =>
      simp only [execute, say, give_past]
      rfl
  | background visible image delay =>
      simp only [execute, setBackdrop, showBackdrop_past, changeBackdrop_past, settle_past]
      rfl
  | character name action state side delay => exact actCharacter_past ..
  | choice options => exact presentChoices_past ..
  | wait duration => exact settle_past ..
  | jump target =>
      simp only [execute, jump_past]
      rfl
  | music action track looping => exact actMusic_past ..
  | ending => exact finish_past ..
  | unknown =>
      simp only [execute, report_past]
      rfl

/-! ## Running -/

theorem dispatch_past {onward onward' : Nat → Interpreter → Step × Interpreter}
    (goesOn : ∀ offset interpreter, onward offset (past.interpreter interpreter) =
      (onward' offset interpreter).map past.step past.interpreter) :
    (past.interpreter interpreter).dispatch stage onward =
      (interpreter.dispatch (past.stage stage) onward').map past.step past.interpreter := by
  have same : (past.interpreter interpreter).script.get? (past.interpreter interpreter).pc =
      interpreter.script.get? interpreter.pc := rfl
  cases found : interpreter.script.get? interpreter.pc with
  | none =>
      rw [dispatch_none found, dispatch_none (same.trans found), note_past_of_eq _ _ _ rfl]
      rfl
  | some instruction =>
      have fetched : (past.interpreter interpreter).fetch instruction =
          past.interpreter (interpreter.fetch instruction) := by
        rw [fetch, note_past_of_eq _ _ _ rfl]
        rfl
      have pc : (past.interpreter interpreter).pc = interpreter.pc := rfl
      rw [dispatch_some found, dispatch_some (same.trans found), fetched, execute_past, pc]
      rcases (interpreter.fetch instruction).execute (past.stage stage) interpreter.pc instruction
        with ⟨flow, next⟩
      cases flow with
      | onward => exact goesOn ..
      | yield step => rfl

theorem runWithin_past (budget : Nat) :
    (past.interpreter interpreter).runWithin stage budget =
      (interpreter.runWithin (past.stage stage) budget).map past.step past.interpreter := by
  induction budget generalizing interpreter with
  | zero =>
      apply dispatch_past
      intro offset next
      simp only [stall, report_past]
      rfl
  | succ budget ih => exact dispatch_past past stage interpreter fun _ next => ih next

theorem runUntilSuspended_past : (past.interpreter interpreter).runUntilSuspended stage =
    (interpreter.runUntilSuspended (past.stage stage)).map past.step past.interpreter :=
  runWithin_past ..

/-! ## Moves -/

theorem advance_past : (past.interpreter interpreter).advance stage =
    (interpreter.advance (past.stage stage)).map past.step past.interpreter := by
  have phase : (past.interpreter interpreter).phase = interpreter.phase := rfl
  unfold advance
  rw [phase]
  split
  · exact runUntilSuspended_past past stage { interpreter with phase := .running }
  · rw [note_past_of_eq _ _ _ rfl]
    rfl

theorem takeOption_past (offset : Nat) (option : ChoiceOption) :
    (past.interpreter interpreter).takeOption stage offset option =
      (interpreter.takeOption (past.stage stage) offset option).map
        past.step past.interpreter := by
  have signalled : (past.interpreter interpreter).passSignal option =
      past.interpreter (interpreter.passSignal option) := by
    unfold passSignal
    split
    · exact give_past ..
    · rfl
  have led (interpreter : Interpreter) :
      (past.interpreter interpreter).goWhereItLeads offset option =
        past.interpreter (interpreter.goWhereItLeads offset option) := by
    unfold goWhereItLeads
    split
    · exact jump_past ..
    · rfl
  have chosen : (past.interpreter interpreter).chosen offset option =
      past.interpreter (interpreter.chosen offset option) := by
    simp only [chosen, signalled, led, give_past]
    rfl
  rw [takeOption_eq, takeOption_eq, chosen, runUntilSuspended_past]

theorem select_past (index : Nat) : (past.interpreter interpreter).select stage index =
    (interpreter.select (past.stage stage) index).map (Except.map past.step)
      past.interpreter := by
  have same : (past.interpreter interpreter).phase = interpreter.phase ∧
    (past.interpreter interpreter).choiceAt = interpreter.choiceAt ∧
    (past.interpreter interpreter).script = interpreter.script := ⟨rfl, rfl, rfl⟩
  unfold select
  rw [same.1, same.2.1, same.2.2]
  split
  · split
    · rfl
    split
    · split
      · rw [note_past_of_eq _ _ _ rfl, takeOption_past]
        rfl
      · rw [note_past_of_eq _ _ _ rfl]
        rfl
    · rfl
  · rw [note_past_of_eq _ _ _ rfl]
    rfl

theorem afterReveal_past (offset : Nat) :
    (past.interpreter interpreter).afterReveal stage offset =
      (interpreter.afterReveal (past.stage stage) offset).map past.step past.interpreter := by
  have same : (past.interpreter interpreter).script.get? (past.interpreter interpreter).pc =
      interpreter.script.get? interpreter.pc := rfl
  unfold afterReveal
  rw [same]
  split
  · rw [note_past_of_eq _ _ _ rfl, runUntilSuspended_past]
  · rw [note_past_of_eq _ _ _ rfl]
    rfl
  · rfl

theorem tick_past (ticket : Ticket) :
    (past.interpreter interpreter).tick stage (past.ticket ticket) =
      (interpreter.tick (past.stage stage) ticket).map past.step past.interpreter := by
  have reveal : (past.interpreter interpreter).reveal = past.reveal interpreter.reveal := rfl
  have shown (text : String) (reveal : Reveal Nat) :
      { (past.interpreter interpreter).give (.dialogueText text) with
        reveal := past.reveal reveal } =
      past.interpreter { interpreter.give (.dialogueText text) with reveal := reveal } := by
    rw [give_past]
    rfl
  unfold tick
  rw [reveal, Past.tick_reveal]
  rcases interpreter.reveal.tick ticket with ⟨outcome, reveal⟩
  cases outcome with
  | stale => rfl
  | partly text next =>
      simp only [Prod.map, Past.tick, shown]
      rfl
  | complete text offset =>
      simp only [Prod.map, Past.tick, shown]
      exact afterReveal_past ..

theorem wake_past (wake : Wake) : (past.interpreter interpreter).wake stage (past.wake wake) =
    (interpreter.wake (past.stage stage) wake).map past.step past.interpreter := by
  have run : past.run + wake.run = past.run + interpreter.run ↔ wake.run = interpreter.run :=
    Nat.add_left_cancel_iff
  have same : (past.wake wake).run ≠ (past.interpreter interpreter).run ∨
      (past.interpreter interpreter).phase ≠ .running ↔
      wake.run ≠ interpreter.run ∨ interpreter.phase ≠ .running :=
    or_congr (not_congr run) Iff.rfl
  have phase : (past.interpreter interpreter).phase = interpreter.phase := rfl
  unfold Interpreter.wake
  simp only [same]
  split
  · have noted := note_past past interpreter (.staleWake wake interpreter.phase)
    simp only [Past.note] at noted
    rw [phase, noted]
    rfl
  obtain ⟨_, timer⟩ := wake
  cases timer with
  | reveal ticket => exact tick_past ..
  | settle sequence =>
      have settling : (past.interpreter interpreter).settling = some (past.timers + sequence) ↔
          interpreter.settling = some sequence := by
        simp [Past.interpreter]
      simp only [Past.wake, Past.timer]
      by_cases settled : interpreter.settling = some sequence
      · rw [if_pos (settling.mpr settled), if_pos settled]
        exact runUntilSuspended_past past stage { interpreter with settling := none }
      · rw [if_neg (settled ∘ settling.mp), if_neg settled]
        rfl

theorem stop_past :
    (past.interpreter interpreter).stop = past.interpreter interpreter.stop := by
  have phase : (past.interpreter interpreter).phase = interpreter.phase := rfl
  unfold stop
  rw [phase]
  split
  · rw [note_past_of_eq _ _ _ rfl]
    rfl
  · rfl

/-- Moves hand back the same after any past, but for the counters in wakes. -/
theorem makeMove_past (move : Move Wake) :
    (past.interpreter interpreter).makeMove stage (past.move move) =
      (interpreter.makeMove (past.stage stage) move).map past.answer past.interpreter := by
  cases move with
  | advance =>
      simp only [makeMove, Past.move, advance_past]
      rfl
  | select index =>
      simp only [makeMove, Past.move, select_past]
      rcases interpreter.select (past.stage stage) index with ⟨_ | _, _⟩ <;> rfl
  | wake wake =>
      simp only [makeMove, Past.move, wake_past]
      rfl
  | stop =>
      simp only [makeMove, Past.move, stop_past]
      rfl

end Interpreter

/-! ## Sessions -/

namespace Past

variable (past : Past)

def issue (issue : Issue) : Issue :=
  ⟨past.wake issue.wake, past.history.toList.countP Event.beginsTimer + issue.timer⟩

def session (session : Session) : Session :=
  ⟨past.interpreter session.interpreter, session.issues.map past.issue⟩

theorem beginsTimer_event (event : Event) :
    (past.event event).beginsTimer = event.beginsTimer := by
  rcases event with cue | note
  · rfl
  · cases note <;> rfl

theorem timersBegun_interpreter (interpreter : Interpreter) :
    (past.interpreter interpreter).timersBegun =
      past.history.toList.countP Event.beginsTimer + interpreter.timersBegun := by
  simp [Interpreter.timersBegun, Past.interpreter, List.countP_map, Function.comp_def,
    beginsTimer_event]

theorem wake?_answer (answer : Answer) :
    (past.answer answer).wake? = answer.wake?.map past.wake := by
  rcases answer with step | _ | _
  · cases step <;> rfl
  · rfl
  · rfl

theorem take_session (outcome : Answer × Interpreter) (session : Session) :
    (past.session session).take (outcome.map past.answer past.interpreter) =
      past.session (session.take outcome) := by
  obtain ⟨answer, interpreter⟩ := outcome
  simp only [Session.take, Past.session, Prod.map, wake?_answer, timersBegun_interpreter]
  cases answer.wake? <;> simp [issue]

end Past

namespace Session

variable (past : Past) (stage : Stage)

theorem lookUp_past (move : Move Nat) (issues : List Issue) :
    (move.lookUp fun k => (issues.map past.issue)[k]?.map (·.wake)) =
      (move.lookUp fun k => issues[k]?.map (·.wake)).map past.move := by
  cases move with
  | wake k =>
      simp only [Move.lookUp, List.getElem?_map]
      cases issues[k]? <;> rfl
  | _ => rfl

theorem makeMove_past (move : Move Nat) (session : Session) :
    (past.session session).makeMove stage move =
      (session.makeMove (past.stage stage) move).map past.answer past.session := by
  have found := lookUp_past past move session.issues
  unfold makeMove
  rw [Past.session, found]
  cases move.lookUp fun k => session.issues[k]?.map (·.wake) with
  | none => rfl
  | some move =>
      simp only [Option.map_some, Interpreter.makeMove_past, Prod.map]
      exact congrArg _ (Past.take_session past _ session)

theorem play_past (moves : List (Move Nat)) (session : Session) :
    (past.session session).play stage moves =
      (session.play (past.stage stage) moves).map (List.map past.answer) past.session := by
  induction moves generalizing session with
  | nil => rfl
  | cons move moves ih =>
      simp only [play, makeMove_past, Prod.map, ih, List.map_cons]

end Session

end VisualNovel
