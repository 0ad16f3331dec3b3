import VisualNovel.Proofs.Rehearsing
import Mathlib.Data.List.Nodup
import Mathlib.Data.List.Perm.Subperm

/-!
The course of a run: where in its script it goes on, and where it waits for a timer. Both depend on
the script and the place alone, so a run that comes to a place again never ends without the reader.

* `Track.lt_length`: places that follow each other up to a last one are all different.
* `runUntilSuspended_comes` and `wake_comes`: where a run comes to wait next.
* `Reachable.onCourse`: a run that goes on by itself waits at a spot of its script.
-/

namespace VisualNovel

/-! ## Places that follow each other -/

/-- The places that follow, up to one after which there is none. -/
inductive Track {α : Type} (next? : α → Option α) : α → List α → Prop where
  | last {place : α} : next? place = none → Track next? place []
  | step {place next : α} {rest : List α} : next? place = some next → Track next? next rest →
      Track next? place (next :: rest)

namespace Track

variable {α : Type} {next? : α → Option α} {place : α} {rest places : List α}

theorem unique {other : List α} (track : Track next? place rest)
    (track' : Track next? place other) : rest = other := by
  induction track generalizing other with
  | last none =>
      cases track' with
      | last => rfl
      | step some => cases none.symm.trans some
  | step some _ ih =>
      cases track' with
      | last none => cases none.symm.trans some
      | step again track =>
          cases some.symm.trans again
          rw [ih track]

theorem fewer (track : Track next? place rest) :
    ∀ other ∈ rest, ∃ later, Track next? other later ∧ later.length < rest.length := by
  induction track with
  | last none => exact nofun
  | step some track ih =>
      intro other member
      rcases List.mem_cons.mp member with rfl | member
      · exact ⟨_, track, Nat.lt_succ_self _⟩
      · obtain ⟨later, track, less⟩ := ih other member
        exact ⟨later, track, Nat.lt_succ_of_lt less⟩

theorem nodup (track : Track next? place rest) : (place :: rest).Nodup := by
  induction track with
  | last none => exact List.nodup_singleton _
  | @step place next rest some track ih =>
      refine List.nodup_cons.mpr ⟨fun member => ?_, ih⟩
      have here : Track next? place (next :: rest) := .step some track
      -- From every place that is still to come there are fewer to go than from here.
      obtain ⟨later, track, less⟩ := here.fewer place member
      rw [track.unique here] at less
      exact Nat.lt_irrefl _ less

theorem subset (track : Track next? place rest) (begins : place ∈ places)
    (stays : ∀ {place next}, place ∈ places → next? place = some next → next ∈ places) :
    place :: rest ⊆ places := by
  induction track with
  | last none => exact List.cons_subset.mpr ⟨begins, List.nil_subset _⟩
  | step some _ ih => exact List.cons_subset.mpr ⟨begins, ih (stays begins some)⟩

theorem lt_length (track : Track next? place rest) (begins : place ∈ places)
    (stays : ∀ {place next}, place ∈ places → next? place = some next → next ∈ places) :
    rest.length < places.length :=
  (List.subperm_of_subset track.nodup (track.subset begins stays)).length_le

end Track

/-! ## Places in scripts -/

def Instruction.successor (targets : Targets) (offset : Nat) : Instruction → Nat
  | .jump target => (targets.resolve target).getD (offset + 1)
  | _ => offset + 1

/-- The time until the timer of an instruction is due; for a line, until its first character. -/
def Instruction.delay (settings : Settings) : Instruction → Nat
  | .say .. => settings.glyphTime
  | .background _ _ pause | .character _ _ _ _ pause => settings.transitionTime pause
  | .wait duration => settings.waitTime duration
  | .music .. => settings.audioTime
  | _ => 0

/-- Where a run waits for a timer: after the instruction at an offset, when so many characters of
its line are shown. -/
structure Spot where
  offset : Nat
  shown : Nat
  deriving DecidableEq

namespace Script

def onward? (script : Script) (offset : Nat) : Option Nat :=
  ((script.get? offset).filter (·.passesOn)).map (·.successor (.ofScript script) offset)

def haltWithin (script : Script) : (budget : Nat) → (offset : Nat) → Option Nat
  | 0, offset => if (script.onward? offset).isNone then some offset else none
  | budget + 1, offset =>
      match script.onward? offset with
      | none => some offset
      | some next => script.haltWithin budget next

def spotAt? (script : Script) (offset : Nat) : Option Spot :=
  if (script.get? offset).any (0 < ·.fires) then some ⟨offset, 0⟩ else none

def waitFrom? (script : Script) (offset : Nat) : Option Spot :=
  (script.haltWithin script.length offset).bind script.spotAt?

/-- Where the run waits when the timer has fired, if it still goes on without the reader. -/
def next? (script : Script) (spot : Spot) : Option Spot :=
  match script.get? spot.offset with
  | some (.say _ text) =>
      if spot.shown + 1 < text.length then some ⟨spot.offset, spot.shown + 1⟩
      else
        match script.get? (spot.offset + 1) with
        | some (.choice _) => script.waitFrom? (spot.offset + 1)
        | _ => none
  | _ => script.waitFrom? (spot.offset + 1)

def delayAt (script : Script) (settings : Settings) (offset : Nat) : Nat :=
  ((script.get? offset).map (·.delay settings)).getD 0

def spotsFrom : Nat → List Instruction → List Spot
  | _, [] => []
  | offset, instruction :: rest =>
      (List.range instruction.fires).map (Spot.mk offset) ++ spotsFrom (offset + 1) rest

def spots (script : Script) : List Spot :=
  spotsFrom 0 script.instructions

section Found

variable {script : Script} {offset : Nat} {instruction : Instruction}

theorem onward?_of_passesOn (found : script.get? offset = some instruction)
    (passes : instruction.passesOn) :
    script.onward? offset = some (instruction.successor (.ofScript script) offset) := by
  simp [onward?, found, passes]

theorem onward?_of_halts (found : script.get? offset = some instruction)
    (halts : instruction.passesOn = false) : script.onward? offset = none := by
  simp [onward?, found, halts]

theorem spotAt?_of_found (found : script.get? offset = some instruction) :
    script.spotAt? offset = if 0 < instruction.fires then some ⟨offset, 0⟩ else none := by
  simp [spotAt?, found]

theorem delayAt_of_found (found : script.get? offset = some instruction) (settings : Settings) :
    script.delayAt settings offset = instruction.delay settings := by
  simp [delayAt, found]

end Found

/-! ## Spots -/

theorem length_spotsFrom (offset : Nat) (instructions : List Instruction) :
    (spotsFrom offset instructions).length =
      instructions.foldr (fun instruction fires => instruction.fires + fires) 0 := by
  induction instructions generalizing offset with
  | nil => rfl
  | cons instruction instructions ih => simp [spotsFrom, ih]

theorem length_spots (script : Script) : script.spots.length = script.fires :=
  length_spotsFrom 0 script.instructions

theorem mem_spotsFrom {instructions : List Instruction} {instruction : Instruction}
    {index shown : Nat} (offset : Nat) (found : instructions[index]? = some instruction)
    (less : shown < instruction.fires) :
    ⟨offset + index, shown⟩ ∈ spotsFrom offset instructions := by
  induction instructions generalizing offset index with
  | nil => simp at found
  | cons first rest ih =>
      rw [spotsFrom, List.mem_append]
      cases index with
      | zero =>
          cases found
          exact .inl (List.mem_map.mpr ⟨shown, List.mem_range.mpr less, rfl⟩)
      | succ index =>
          have found : rest[index]? = some instruction := found
          have later := ih (offset + 1) found
          rw [Nat.add_right_comm] at later
          exact .inr later

theorem mem_spots {script : Script} {spot : Spot} {instruction : Instruction}
    (found : script.get? spot.offset = some instruction)
    (less : spot.shown < instruction.fires) : spot ∈ script.spots := by
  have listed := mem_spotsFrom 0 found less
  rwa [Nat.zero_add] at listed

theorem mem_spots_of_spotAt? {script : Script} {offset : Nat} {spot : Spot}
    (waits : script.spotAt? offset = some spot) : spot ∈ script.spots := by
  unfold spotAt? at waits
  split at waits
  · next fires =>
      obtain ⟨instruction, found, fires⟩ := (Option.any_eq_true ..).mp fires
      cases waits
      exact mem_spots found (of_decide_eq_true fires)
  · cases waits

theorem mem_spots_of_waitFrom? {script : Script} {offset : Nat} {spot : Spot}
    (waits : script.waitFrom? offset = some spot) : spot ∈ script.spots := by
  obtain ⟨halt, -, waits⟩ := Option.bind_eq_some_iff.mp waits
  exact mem_spots_of_spotAt? waits

theorem mem_spots_of_next? {script : Script} {spot next : Spot}
    (goesOn : script.next? spot = some next) : next ∈ script.spots := by
  unfold next? at goesOn
  split at goesOn
  · next speaker text found =>
      split at goesOn
      · next more =>
          cases goesOn
          exact mem_spots found (Nat.lt_of_lt_of_le more (Nat.le_max_right 1 _))
      split at goesOn
      · exact mem_spots_of_waitFrom? goesOn
      · cases goesOn
  · exact mem_spots_of_waitFrom? goesOn

end Script

namespace Interpreter

/-! ## Where runs wait -/

inductive WaitsFor (interpreter : Interpreter) (spot : Spot) : Instruction → Prop where
  | settling {instruction : Instruction} {sequence : Nat} : instruction.settles →
      interpreter.settling = some sequence → spot.shown = 0 →
      WaitsFor interpreter spot instruction
  | revealing (speaker : Option String) (text : String) :
      interpreter.reveal.active = some (.upTo text.toList spot.shown spot.offset) →
      spot.shown < max 1 text.length → WaitsFor interpreter spot (.say speaker text)

structure WaitsAt (interpreter : Interpreter) (spot : Spot) : Prop extends Inside interpreter where
  phase : interpreter.phase = .running
  waits : ∃ instruction, interpreter.JustPast spot.offset instruction ∧
    WaitsFor interpreter spot instruction

/-- The run comes to wait at a spot, or does not go on without the reader. -/
inductive Comes (script : Script) (settings : Settings) :
    Option Spot → Step → Interpreter → Prop where
  | waits {spot : Spot} {after : Interpreter} (wake : Wake) : after.script = script →
      WaitsAt after spot →
      Comes script settings (some spot) (.resume (script.delayAt settings spot.offset) wake) after
  | halts {step : Step} {after : Interpreter} : after.phase ≠ .running →
      Comes script settings none step after

theorem fires_of_settles {instruction : Instruction} (settles : instruction.settles) :
    instruction.fires = 1 := by
  cases instruction with
  | background => rfl
  | character => rfl
  | wait => rfl
  | music => rfl
  | _ => cases settles

theorem passesOn_of_settles {instruction : Instruction} (settles : instruction.settles) :
    instruction.passesOn = false := by
  cases instruction <;> first | rfl | cases settles

theorem WaitsAt.mem_spots {interpreter : Interpreter} {spot : Spot}
    (waitsAt : WaitsAt interpreter spot) : spot ∈ interpreter.script.spots := by
  obtain ⟨instruction, past, waits⟩ := waitsAt.waits
  refine Script.mem_spots past.found ?_
  cases waits with
  | settling settles settling shown =>
      rw [shown, fires_of_settles settles]
      exact Nat.one_pos
  | revealing speaker text active shown => exact shown

/-! ## Executing instructions -/

section Executing

variable {stage : Stage} {before after : Interpreter} {instruction : Instruction} {flow : Flow}

theorem jump_pc (offset : Nat) (label : String) (interpreter : Interpreter) :
    (interpreter.jump offset label).pc =
      (interpreter.targets.resolve label).getD interpreter.pc := by
  unfold jump
  split
  · next target found => rw [found]; rfl
  · next unknown => rw [unknown]; rfl

theorem execute_pc (passes : instruction.passesOn)
    (outcome : (before.fetch instruction).execute stage before.pc instruction = (flow, after)) :
    after.pc = instruction.successor before.targets before.pc := by
  cases instruction with
  | label name => cases outcome; rfl
  | jump target => cases outcome; exact jump_pc ..
  | choice options =>
      cases options with
      | nil => cases outcome; rfl
      | cons option options => cases passes
  | unknown => cases outcome; rfl
  | _ => cases passes

theorem execute_delay {time : Nat} {wake : Wake}
    (outcome : (before.fetch instruction).execute stage before.pc instruction =
      (.yield (.resume time wake), after)) :
    time = instruction.delay stage.settings := by
  have yields := congrArg Prod.fst outcome
  cases instruction with
  | say speaker text => cases yields; rfl
  | background visible image pause => cases yields; rfl
  | character name action state side pause => cases yields; rfl
  | wait duration => cases yields; rfl
  | music action track looping => cases yields; rfl
  | choice options => cases options <;> cases yields
  | _ => cases yields

theorem yields_comes {step : Step} (inside : Inside before) (running : before.phase = .running)
    (found : before.script.get? before.pc = some instruction)
    (outcome : (before.fetch instruction).execute stage before.pc instruction =
      (.yield step, after)) :
    before.script.onward? before.pc = none ∧
      Comes before.script stage.settings (before.script.spotAt? before.pc) step after := by
  have executed := executed_of_eq outcome
  have placed := inside.executed running found executed
  rw [Script.spotAt?_of_found found]
  cases executed with
  | @settling _ staged time settles same =>
      have phase := phase_of_clock same.clock
      have past : staged.toMachine.JustPast before.pc instruction :=
        ⟨same.pc, same.script ▸ found⟩
      refine ⟨Script.onward?_of_halts found (passesOn_of_settles settles), ?_⟩
      rw [fires_of_settles settles, execute_delay outcome, ← Script.delayAt_of_found found]
      exact .waits _ same.script ⟨placed.toInside, phase.trans running, instruction,
        ⟨past.pc, past.found⟩, .settling settles rfl rfl⟩
  | revealing speaker text name time =>
      have fires : 0 < (Instruction.say speaker text).fires := Nat.le_max_left 1 _
      refine ⟨Script.onward?_of_halts found rfl, ?_⟩
      rw [if_pos fires, execute_delay outcome, ← Script.delayAt_of_found found]
      exact .waits _ rfl
        ⟨placed.toInside, running, _, ⟨rfl, found⟩, .revealing speaker text rfl fires⟩
  | presenting options nonempty =>
      obtain ⟨option, options, rfl⟩ := List.exists_cons_of_ne_nil nonempty
      exact ⟨Script.onward?_of_halts found rfl, .halts nofun⟩
  | finishing endText => exact ⟨Script.onward?_of_halts found rfl, .halts nofun⟩

theorem dispatch_comes {spot? : Option Spot} {onward : Nat → Interpreter → Step × Interpreter}
    (inside : Inside before) (running : before.phase = .running)
    (stops : before.script.onward? before.pc = none → spot? = before.script.spotAt? before.pc)
    (goesOn : ∀ next, Inside next → next.phase = .running → next.script = before.script →
      before.script.onward? before.pc = some next.pc →
      Comes before.script stage.settings spot? (onward before.pc next).1
        (onward before.pc next).2) :
    Comes before.script stage.settings spot? (before.dispatch stage onward).1
      (before.dispatch stage onward).2 := by
  cases found : before.script.get? before.pc with
  | none =>
      have nowhere : spot? = none := by
        rw [stops (by simp [Script.onward?, found])]
        simp [Script.spotAt?, found]
      rw [dispatch_none found, nowhere]
      exact .halts nofun
  | some instruction =>
      rw [dispatch_some found]
      rcases outcome : (before.fetch instruction).execute stage before.pc instruction
        with ⟨flow, next⟩
      cases flow with
      | onward =>
          have placed := inside.executed running found (executed_of_eq outcome)
          cases executed_of_eq outcome with
          | passed passes passed =>
              have phase : next.phase = (before.fetch instruction).phase :=
                phase_of_clock passed.clock
              refine goesOn next placed.toInside (phase.trans running) passed.script ?_
              rw [Script.onward?_of_passesOn found passes, execute_pc passes outcome,
                inside.targets]
      | yield step =>
          obtain ⟨stays, comes⟩ := yields_comes inside running found outcome
          rw [stops stays]
          exact comes

theorem runWithin_comes (stage : Stage) (budget : Nat) (inside : Inside before)
    (running : before.phase = .running) :
    Comes before.script stage.settings
      ((before.script.haltWithin budget before.pc).bind before.script.spotAt?)
      (before.runWithin stage budget).1 (before.runWithin stage budget).2 := by
  induction budget generalizing before with
  | zero =>
      refine dispatch_comes inside running (fun stays => ?_) fun next _ _ _ goesOn => ?_
      · simp [Script.haltWithin, stays]
      · simp only [Script.haltWithin, goesOn]
        exact .halts nofun
  | succ budget ih =>
      refine dispatch_comes inside running (fun stays => ?_)
        fun next inside running same goesOn => ?_
      · simp [Script.haltWithin, stays]
      · have comes := ih inside running
        rw [same] at comes
        simpa only [Script.haltWithin, goesOn] using comes

theorem runUntilSuspended_comes (stage : Stage) (inside : Inside before)
    (running : before.phase = .running) :
    Comes before.script stage.settings (before.script.waitFrom? before.pc)
      (before.runUntilSuspended stage).1 (before.runUntilSuspended stage).2 :=
  runWithin_comes stage before.script.length inside running

end Executing

/-! ## Wakes -/

section Wakes

variable (stage : Stage) {interpreter : Interpreter} {spot : Spot}

theorem afterReveal_comes {offset : Nat} (inside : Inside interpreter)
    (running : interpreter.phase = .running) :
    Comes interpreter.script stage.settings
      (match interpreter.script.get? interpreter.pc with
        | some (.choice _) => interpreter.script.waitFrom? interpreter.pc
        | _ => none)
      (interpreter.afterReveal stage offset).1 (interpreter.afterReveal stage offset).2 := by
  unfold afterReveal
  cases found : interpreter.script.get? interpreter.pc with
  | none => exact .halts nofun
  | some instruction =>
      cases instruction with
      | choice options =>
          have noted : Inside (interpreter.note (.leadsIntoChoice offset)) :=
            inside.staged (.note rfl _)
          exact runUntilSuspended_comes stage noted running
      | _ => exact .halts nofun

theorem wake_settled {wake : Wake} {sequence : Nat} (running : interpreter.phase = .running)
    (settling : interpreter.settling = some sequence)
    (live : interpreter.clock.live = some wake) :
    interpreter.wake stage wake =
      runUntilSuspended stage { interpreter with settling := none } := by
  have waited : interpreter.clock.live = some ⟨interpreter.run, .settle sequence⟩ :=
    Clock.live_settle_iff.mpr ⟨running, settling, rfl⟩
  cases live.symm.trans waited
  simp [Interpreter.wake, running, settling]

theorem wake_ticked {wake : Wake} {text : String} {shown offset : Nat}
    (timely : interpreter.clock.Timely) (running : interpreter.phase = .running)
    (active : interpreter.reveal.active = some (.upTo text.toList shown offset))
    (live : interpreter.clock.live = some wake) :
    interpreter.wake stage wake =
      if shown + 1 < text.length then
        (.resume stage.settings.glyphTime wake,
          interpreter.tell (String.ofList (text.toList.take (shown + 1)))
            { interpreter.reveal with active := some (.upTo text.toList (shown + 1) offset) })
      else
        (interpreter.tell text { interpreter.reveal with active := none }).afterReveal stage
          offset := by
  have waited : interpreter.clock.live =
      some ⟨interpreter.run, .reveal ⟨interpreter.reveal.generation⟩⟩ :=
    timely.live_reveal_iff.mpr ⟨running, rfl, rfl, _, active⟩
  cases live.symm.trans waited
  let ticket : Ticket := ⟨interpreter.reveal.generation⟩
  have ticks : interpreter.wake stage ⟨interpreter.run, .reveal ticket⟩ =
      interpreter.tick stage ticket := by
    simp [Interpreter.wake, running]
  have ticked : interpreter.reveal.tick ticket = _ := Reveal.tick_of_active active rfl
  rw [ticks, tick, ticked, String.length_toList, String.ofList_toList]
  by_cases more : shown + 1 < text.length
  · simp only [more, ↓reduceIte]
    rfl
  · simp only [more, ↓reduceIte]
    rfl

theorem next?_of_settles {script : Script} {instruction : Instruction}
    (found : script.get? spot.offset = some instruction) (settles : instruction.settles) :
    script.next? spot = script.waitFrom? (spot.offset + 1) := by
  unfold Script.next?
  split
  · next found' =>
      cases found.symm.trans found'
      cases settles
  · rfl

theorem wake_comes (timely : interpreter.clock.Timely) (waitsAt : WaitsAt interpreter spot)
    {wake : Wake} (live : interpreter.clock.live = some wake) :
    Comes interpreter.script stage.settings (interpreter.script.next? spot)
      (interpreter.wake stage wake).1 (interpreter.wake stage wake).2 := by
  have running := waitsAt.phase
  have inside := waitsAt.toInside
  obtain ⟨instruction, past, waits⟩ := waitsAt.waits
  cases waits with
  | settling settles settling shown =>
      have ready : Inside { interpreter with settling := none } := ⟨inside.targets, inside.pc⟩
      rw [wake_settled stage running settling live, next?_of_settles past.found settles, ← past.pc]
      exact runUntilSuspended_comes stage ready running
  | revealing speaker text active shown =>
      rw [wake_ticked stage timely running active live, Script.next?, past.found]
      by_cases more : spot.shown + 1 < text.length
      · have delay : stage.settings.glyphTime =
            interpreter.script.delayAt stage.settings spot.offset :=
          (Script.delayAt_of_found past.found _).symm
        simp only [more, ↓reduceIte, delay]
        refine .waits _ rfl ⟨⟨inside.targets, inside.pc⟩, running, _, ⟨past.pc, past.found⟩,
          .revealing speaker text rfl ?_⟩
        exact Nat.lt_of_lt_of_le more (Nat.le_max_right 1 _)
      · have told : Inside (interpreter.tell text { interpreter.reveal with active := none }) :=
          ⟨inside.targets, inside.pc⟩
        simp only [more, ↓reduceIte, ← past.pc]
        exact afterReveal_comes stage told running

end Wakes

/-! ## Runs -/

def OnCourse (interpreter : Interpreter) : Prop :=
  interpreter.phase = .running → ∃ spot, WaitsAt interpreter spot

section OnCourse

variable {stage : Stage} {before after : Interpreter}

theorem Comes.onCourse {script : Script} {settings : Settings} {spot? : Option Spot} {step : Step}
    (comes : Comes script settings spot? step after) : OnCourse after := by
  intro running
  cases comes with
  | waits wake same waitsAt => exact ⟨_, waitsAt⟩
  | halts halted => exact absurd running halted

theorem OnCourse.of_toMachine (onCourse : OnCourse before)
    (same : after.toMachine = before.toMachine) : OnCourse after := by
  intro running
  obtain ⟨machine, history⟩ := after
  cases same
  obtain ⟨spot, ⟨targets, pc⟩, phase, instruction, past, waits⟩ := onCourse running
  refine ⟨spot, ⟨targets, pc⟩, phase, instruction, past, ?_⟩
  cases waits with
  | settling settles settling shown => exact .settling settles settling shown
  | revealing speaker text active shown => exact .revealing speaker text active shown

theorem wake_onCourse (timely : before.clock.Timely) (onCourse : OnCourse before) (wake : Wake) :
    OnCourse (before.wake stage wake).2 := by
  by_cases live : before.clock.live = some wake
  · have running : before.phase = .running := timely.live_isSome_iff.mp (by rw [live]; rfl)
    obtain ⟨spot, waitsAt⟩ := onCourse running
    exact (wake_comes stage timely waitsAt live).onCourse
  · have ignored := (wake_of_not_live stage timely live).1
    have moved := wake_moved stage before wake
    exact onCourse.of_toMachine (moved.toMachine_of_ignored (congrArg Answer.step ignored))

theorem makeMove_onCourse (inside : Inside before) (timely : before.clock.Timely)
    (onCourse : OnCourse before) (move : Move Wake) :
    OnCourse (before.makeMove stage move).2 := by
  have resumed {ready : Interpreter} {move : Move Wake} (resumes : Resumes before move ready) :
      OnCourse (ready.runUntilSuspended stage).2 :=
    (runUntilSuspended_comes stage (resumes.inside inside) resumes.running).onCourse
  rcases outcome : before.makeMove stage move with ⟨answer, after⟩
  have moved := moved_of_eq outcome
  cases move with
  | wake wake =>
      cases outcome
      exact wake_onCourse timely onCourse wake
  | advance =>
      cases moved with
      | ignored unchanged => exact onCourse.of_toMachine unchanged.toMachine
      | resumed resumes => exact resumed resumes
  | select index =>
      cases moved with
      | ignored unchanged => exact onCourse.of_toMachine unchanged.toMachine
      | refused awaiting asked found missing => exact onCourse.of_toMachine rfl
      | resumed resumes => exact resumed resumes
  | stop =>
      cases moved with
      | ignored unchanged => exact onCourse.of_toMachine unchanged.toMachine
      | resumed resumes => exact resumed resumes
      | stopped running => exact nofun
      | rested resting => exact onCourse

theorem perform_onCourse (inside : Inside before) (timely : before.clock.Timely)
    (onCourse : OnCourse before) (operation : Operation) :
    OnCourse (before.perform stage operation).2 := by
  cases operation with
  | start script =>
      have ready : Inside { before.reset script with phase := .running } := ⟨rfl, Nat.zero_le _⟩
      exact (runUntilSuspended_comes stage (ready.staged (.note rfl _)) rfl).onCourse
  | restore script save =>
      intro running
      cases outcome : save.step? script with
      | error refusal =>
          simp only [perform, Prod.map_snd, id_eq, restore_refused before outcome] at running ⊢
          exact onCourse running
      | ok step =>
          have suspended := (SavePoint.step?_ok_iff.mp outcome).2.2.isSuspended
          simp only [perform, Prod.map_snd, id_eq, restore_eq before outcome] at running
          rw [phase_of_clock (replay_shown ..).clock] at running
          rw [show save.phase = .running from running] at suspended
          cases suspended
  | move move => exact makeMove_onCourse inside timely onCourse move

theorem Reachable.onCourse (reachable : Reachable stage after) : OnCourse after := by
  induction reachable with
  | fresh => exact nofun
  | perform operation reachable onCourse =>
      exact perform_onCourse reachable.placed.toInside reachable.timely onCourse operation

end OnCourse

end Interpreter

end VisualNovel
