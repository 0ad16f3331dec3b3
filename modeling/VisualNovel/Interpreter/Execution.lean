import VisualNovel.Interpreter.State

/-!
The execution of instructions. Most instructions yield to the host: a line until it is revealed, a
change on the stage until it has settled, a choice until an option is selected. Labels, jumps,
empty choices and unknown instructions go straight on; more of these in a row than the script has
instructions means that they go round in a circle, and the run stops.
-/

namespace VisualNovel.Interpreter

def give (cue : Cue) (interpreter : Interpreter) : Interpreter :=
  { interpreter with history := interpreter.history.push (.cue cue) }

def note (note : Note) (interpreter : Interpreter) : Interpreter :=
  { interpreter with history := interpreter.history.push (.note note) }

def report (diagnostic : Diagnostic) (interpreter : Interpreter) : Interpreter :=
  { interpreter with
    diagnostics := interpreter.diagnostics ++ [diagnostic]
    history := interpreter.history.push (.note (.problem diagnostic)) }

def assetOrLiteral (kind id : String) (asset : Option String) (interpreter : Interpreter) :
    String × Interpreter :=
  match asset with
  | some asset => (asset, interpreter)
  | none => (id, interpreter.report (.unresolvedAsset kind id))

def stateAsset (stage : Stage) (id state : String) (interpreter : Interpreter) :
    String × Interpreter :=
  assetOrLiteral ("state of '" ++ id ++ "'") state (stage.table.stateAsset id state) interpreter

inductive Flow where
  | onward
  | yield (step : Step)
  deriving DecidableEq

def settle (after : Nat) (interpreter : Interpreter) : Flow × Interpreter :=
  let sequence := interpreter.timers + 1
  (.yield (.resume after ⟨interpreter.run, .settle sequence⟩),
    { interpreter with timers := sequence, settling := some sequence })

def say (stage : Stage) (offset : Nat) (speaker : Option String) (text : String)
    (interpreter : Interpreter) : Flow × Interpreter :=
  let speaker := speaker.map fun id => (stage.table.characterName id).getD id
  let (ticket, reveal) := interpreter.reveal.start text offset
  (.yield (.resume stage.settings.glyphTime ⟨interpreter.run, .reveal ticket⟩),
    { interpreter.give (.showDialogue speaker) with
      scene.dialogue := some ⟨speaker, text⟩
      reveal := reveal })

def showBackdrop (visible : Option Bool) (interpreter : Interpreter) : Interpreter :=
  match visible with
  | none => interpreter
  | some visible =>
      { interpreter.give (.backgroundVisible visible) with scene.background.visible := visible }

def changeBackdrop (stage : Stage) (image : Option String) (interpreter : Interpreter) :
    Interpreter :=
  match image with
  | none => interpreter
  | some id =>
      let (asset, interpreter) :=
        interpreter.assetOrLiteral "background" id (stage.table.background id)
      { interpreter.give (.backgroundImage asset) with scene.background.image := some asset }

def setBackdrop (stage : Stage) (visible : Option Bool) (image : Option String)
    (wait : Option UInt64) (interpreter : Interpreter) : Flow × Interpreter :=
  interpreter.showBackdrop visible
    |>.changeBackdrop stage image
    |>.settle (stage.settings.transitionTime wait)

def spriteAsset (stage : Stage) (id : String) (state : Option String)
    (interpreter : Interpreter) : Option String × Interpreter :=
  match state with
  | none => (none, interpreter)
  | some state =>
      let (asset, interpreter) := interpreter.stateAsset stage id state
      (some asset, interpreter)

def showCharacter (stage : Stage) (offset : Nat) (id : String) (state : Option String)
    (side : Option Side) (interpreter : Interpreter) : Interpreter :=
  let interpreter :=
    if stage.table.hasCharacter id then interpreter
    else interpreter.report (.unknownCharacter id offset)
  let state := state <|> stage.table.firstState id
  let (asset, interpreter) := interpreter.spriteAsset stage id state
  let side := side.getD .center
  { interpreter.give (.showCharacter id asset side) with
    scene.characters := interpreter.scene.characters.insert id ⟨true, state, side⟩ }

def hideCharacter (offset : Nat) (id : String) (interpreter : Interpreter) : Interpreter :=
  match interpreter.scene.characters.get? id with
  | none => interpreter.report (.unknownCharacter id offset)
  | some sprite =>
      { interpreter.give (.hideCharacter id) with
        scene.characters :=
          interpreter.scene.characters.insert id { sprite with visible := false } }

def changeCharacter (stage : Stage) (offset : Nat) (id : String) (state : Option String)
    (interpreter : Interpreter) : Interpreter :=
  match state, interpreter.scene.characters.get? id with
  | none, _ => interpreter.report (.missingField "char" "state" offset)
  | some _, none => interpreter.report (.unknownCharacter id offset)
  | some state, some sprite =>
      let (asset, interpreter) := interpreter.stateAsset stage id state
      { interpreter.give (.characterState id asset) with
        scene.characters :=
          interpreter.scene.characters.insert id { sprite with state := some state } }

def actCharacter (stage : Stage) (offset : Nat) (id : String) (action : CharacterAction)
    (state : Option String) (side : Option Side) (wait : Option UInt64)
    (interpreter : Interpreter) : Flow × Interpreter :=
  let interpreter := match action with
    | .shown => interpreter.showCharacter stage offset id state side
    | .hidden => interpreter.hideCharacter offset id
    | .setState => interpreter.changeCharacter stage offset id state
  interpreter.settle (stage.settings.transitionTime wait)

def presentChoices (offset : Nat) (options : List ChoiceOption) (interpreter : Interpreter) :
    Flow × Interpreter :=
  if options.isEmpty then
    (.onward, interpreter.report (.missingField "choice" "choices" offset))
  else
    (.yield .awaitChoice,
      { interpreter.note (.presentingChoices options.length offset)
          |>.give (.renderChoices (options.map (·.text))) with
        choiceAt := some offset
        phase := .awaitingChoice })

def jump (offset : Nat) (label : String) (interpreter : Interpreter) : Interpreter :=
  match interpreter.targets.resolve label with
  | some target => { interpreter.note (.jumping offset target label) with pc := target }
  | none => interpreter.report (.unknownLabel label offset)

def requestMusic (stage : Stage) (asset : String) (looping : Bool) (interpreter : Interpreter) :
    Interpreter :=
  let answer := stage.playback interpreter.cues asset looping
  let interpreter := interpreter.give (.playAudio asset looping)
  match answer with
  | none => interpreter
  | some fault => interpreter.report (.playbackFailed asset fault.message)

def playMusic (stage : Stage) (offset : Nat) (track : Option String) (looping : Option Bool)
    (interpreter : Interpreter) : Interpreter :=
  match track with
  | none => interpreter.report (.missingField "bgm" "id" offset)
  | some id =>
      let (asset, interpreter) := interpreter.assetOrLiteral "audio" id (stage.table.audio id)
      let looping := looping.getD stage.settings.loopByDefault
      { interpreter.note (.playing asset looping) |>.requestMusic stage asset looping with
        scene.audio := ⟨some asset, looping, .playing⟩ }

def actMusic (stage : Stage) (offset : Nat) (action : MusicAction) (track : Option String)
    (looping : Option Bool) (interpreter : Interpreter) : Flow × Interpreter :=
  let interpreter := match action with
    | .play => interpreter.playMusic stage offset track looping
    | .stop => { interpreter.give .stopAudio with scene.audio := interpreter.scene.audio.stop }
    | .pause => { interpreter.give .pauseAudio with scene.audio := interpreter.scene.audio.pause }
  interpreter.settle stage.settings.audioTime

def finish (stage : Stage) (offset : Nat) (interpreter : Interpreter) : Flow × Interpreter :=
  (.yield .ended,
    { interpreter.note (.finished offset)
        |>.give .clearChoices
        |>.give .clearDialogue
        |>.give (.showEnd stage.settings.endText) with
      phase := .ended
      reveal := interpreter.reveal.cancel
      settling := none
      choiceAt := none
      scene.dialogue := none })

def execute (stage : Stage) (offset : Nat) (instruction : Instruction)
    (interpreter : Interpreter) : Flow × Interpreter :=
  match instruction with
  | .label id => (.onward, interpreter.note (.passingLabel id offset))
  | .say speaker text => interpreter.say stage offset speaker text
  | .background visible image wait => interpreter.setBackdrop stage visible image wait
  | .character id action state side wait =>
      interpreter.actCharacter stage offset id action state side wait
  | .choice options => interpreter.presentChoices offset options
  | .wait duration => interpreter.settle (stage.settings.waitTime duration)
  | .jump label => (.onward, interpreter.jump offset label)
  | .music action track looping => interpreter.actMusic stage offset action track looping
  | .ending => interpreter.finish stage offset
  | .unknown => (.onward, interpreter.report (.unknownInstruction offset))

def dispatch (stage : Stage) (onward : (offset : Nat) → Interpreter → Step × Interpreter)
    (interpreter : Interpreter) : Step × Interpreter :=
  let offset := interpreter.pc
  match interpreter.script.get? offset with
  | none => (.ended, { interpreter.note (.reachedEnd offset) with phase := .ended })
  | some instruction =>
      let next := { interpreter.note (.executing offset instruction.kind) with pc := offset + 1 }
      match next.execute stage offset instruction with
      | (.yield step, interpreter) => (step, interpreter)
      | (.onward, interpreter) => onward offset interpreter

def stall (offset : Nat) (interpreter : Interpreter) : Step × Interpreter :=
  (.stopped, { interpreter.report (.stalled offset) with phase := .stopped })

/-- Runs until an instruction yields, going straight on at most `budget` times. -/
def runWithin (stage : Stage) : (budget : Nat) → Interpreter → Step × Interpreter
  | 0 => dispatch stage stall
  | budget + 1 => dispatch stage fun _ => runWithin stage budget

def runUntilSuspended (stage : Stage) (interpreter : Interpreter) : Step × Interpreter :=
  interpreter.runWithin stage interpreter.script.length

end VisualNovel.Interpreter
