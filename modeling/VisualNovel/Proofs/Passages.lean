import VisualNovel.Proofs.Slicing
import VisualNovel.Proofs.Stretches
import Mathlib.Algebra.GroupWithZero.Nat

/-!
Passages: what happens when the timer fires that a run waits for. More of a line is shown, the line
waits for the reader, or a stretch of the script is executed. While a run goes on without the
reader, each instruction is followed by the one its offset alone tells, and its timers take the
time of the instruction.

* `wake_passage`: the passage from a spot to the next.
* `Attuned.executes`: what is executed until the run blocks, and when it does.
-/

namespace VisualNovel

/-! ## Durations -/

/-- How long the timers of an instruction take together. -/
def Instruction.duration (settings : Settings) : Instruction → Nat
  | .say _ text => max 1 text.length * settings.textInterval.toNat
  | .background _ _ pause | .character _ _ _ _ pause =>
      (pause.getD settings.transitionDelay).toNat
  | .wait pause => (pause.getD settings.defaultWait).toNat
  | .music .. => settings.audioSettle.toNat
  | .label _ | .jump _ | .choice _ | .ending | .unknown => 0

theorem Instruction.duration_eq (settings : Settings) (instruction : Instruction) :
    instruction.duration settings = instruction.fires * instruction.delay settings := by
  cases instruction with
  | say => rfl
  | background => exact (Nat.one_mul _).symm
  | character => exact (Nat.one_mul _).symm
  | wait => exact (Nat.one_mul _).symm
  | music => exact (Nat.one_mul _).symm
  | _ => rfl

namespace Script

variable {script : Script} {settings : Settings} {offset : Nat} {offsets stalls : List Nat}
  {spot? : Option Spot}

def durationAt (script : Script) (settings : Settings) (offset : Nat) : Nat :=
  ((script.get? offset).map (·.duration settings)).getD 0

def duration (script : Script) (settings : Settings) (offsets : List Nat) : Nat :=
  (offsets.map (script.durationAt settings)).sum

/-- How long the timers of the instruction still take, with the one that is waited for. -/
def timeLeft (script : Script) (settings : Settings) (spot : Spot) : Nat :=
  (((script.get? spot.offset).map (·.fires)).getD 0 - spot.shown) *
    script.delayAt settings spot.offset

theorem durationAt_of_found {instruction : Instruction}
    (found : script.get? offset = some instruction) :
    script.durationAt settings offset = instruction.duration settings := by
  simp [durationAt, found]

theorem timeLeft_of_found {spot : Spot} {instruction : Instruction}
    (found : script.get? spot.offset = some instruction) :
    script.timeLeft settings spot =
      (instruction.fires - spot.shown) * script.delayAt settings spot.offset := by
  simp [timeLeft, found]

theorem duration_append (others : List Nat) :
    script.duration settings (offsets ++ others) =
      script.duration settings offsets + script.duration settings others := by
  rw [duration, List.map_append, List.sum_append]
  rfl

theorem durationAt_of_onward {next : Nat} (goesOn : script.onward? offset = some next) :
    script.durationAt settings offset = 0 := by
  cases onward_iff.mpr goesOn with
  | label found => exact durationAt_of_found found
  | unknown found => exact durationAt_of_found found
  | noOptions found => exact durationAt_of_found found
  | undefined found => exact durationAt_of_found found
  | jump found => exact durationAt_of_found found

theorem Straight.duration {passed : List Nat} {last : Nat}
    (straight : script.Straight passed offset last) : script.duration settings passed = 0 := by
  induction straight with
  | here => rfl
  | onward goesOn _ ih =>
      rw [Script.duration, List.map_cons, List.sum_cons, durationAt_of_onward goesOn, Nat.zero_add]
      exact ih

def wait (script : Script) (settings : Settings) (spot? : Option Spot) : Nat :=
  (spot?.map (script.timeLeft settings)).getD 0

theorem Stretch.duration {budget : Nat}
    (stretch : script.Stretch budget offset offsets stalls spot?) :
    script.duration settings offsets = script.wait settings spot? := by
  cases stretch with
  | @yields passed halt instruction straight within found halts =>
      have last : script.duration settings [halt] =
          instruction.fires * instruction.delay settings := by
        simp [Script.duration, durationAt_of_found found, Instruction.duration_eq]
      rw [duration_append, straight.duration, Nat.zero_add, last, spotAt?_of_found found]
      split
      · next fires =>
          have left : script.timeLeft settings ⟨halt, 0⟩ =
              (instruction.fires - 0) * script.delayAt settings halt := timeLeft_of_found found
          simp [wait, left, delayAt_of_found found]
      · next none => simp [wait, Nat.eq_zero_of_not_pos none]
  | ends straight => exact straight.duration
  | @stalls passed last next straight all goesOn =>
      rw [duration_append, straight.duration]
      simp [Script.duration, durationAt_of_onward goesOn, wait]

/-! ## What follows without the reader -/

/-- Where execution goes on, without the reader, when the timers of the instruction have fired. -/
def leads? (script : Script) (offset : Nat) : Option Nat :=
  match script.get? offset with
  | some (.say ..) =>
      match script.get? (offset + 1) with
      | some (.choice _) => some (offset + 1)
      | _ => none
  | some instruction =>
      if instruction.settles then some (offset + 1) else script.onward? offset
  | none => none

def follow? (script : Script) (offset : Nat) : Option Nat :=
  (script.leads? offset).filter (· < script.length)

theorem leads?_of_settles {instruction : Instruction}
    (found : script.get? offset = some instruction) (settles : instruction.settles) :
    script.leads? offset = some (offset + 1) := by
  cases instruction with
  | background => simp [leads?, found, Instruction.settles]
  | character => simp [leads?, found, Instruction.settles]
  | wait => simp [leads?, found, Instruction.settles]
  | music => simp [leads?, found, Instruction.settles]
  | _ => cases settles

theorem leads?_of_onward {next : Nat} (goesOn : script.onward? offset = some next) :
    script.leads? offset = some next := by
  cases onward_iff.mpr goesOn with
  | label found => simp [leads?, found, Instruction.settles, goesOn]
  | unknown found => simp [leads?, found, Instruction.settles, goesOn]
  | noOptions found => simp [leads?, found, Instruction.settles, goesOn]
  | undefined found => simp [leads?, found, Instruction.settles, goesOn]
  | jump found => simp [leads?, found, Instruction.settles, goesOn]

theorem leads?_of_blocks {instruction : Instruction}
    (found : script.get? offset = some instruction) (halts : instruction.passesOn = false)
    (blocks : instruction.fires = 0) : script.leads? offset = none := by
  have stays := onward?_of_halts found halts
  cases instruction with
  | say speaker text => simp [Instruction.fires] at blocks
  | choice options => simp [leads?, found, Instruction.settles, stays]
  | ending => simp [leads?, found, Instruction.settles, stays]
  | label => cases halts
  | jump => cases halts
  | unknown => cases halts
  | _ => cases blocks

theorem follow?_eq_some {next : Nat} {instruction : Instruction}
    (leads : script.leads? offset = some next) (found : script.get? next = some instruction) :
    script.follow? offset = some next := by
  simp [follow?, leads, lt_length found]

theorem follow?_eq_none (leads : ∀ next, script.leads? offset = some next →
    script.get? next = none) : script.follow? offset = none := by
  refine Option.filter_eq_none_iff.mpr fun next leads' => ?_
  have missing := List.getElem?_eq_none_iff.mp (leads next leads')
  exact fun less => absurd (of_decide_eq_true less) (Nat.not_lt.mpr missing)

theorem Straight.track {passed : List Nat} {before last : Nat} {instruction : Instruction}
    {rest : List Nat} (straight : script.Straight passed offset last)
    (leads : script.leads? before = some offset) (found : script.get? last = some instruction)
    (track : Track script.follow? last rest) :
    Track script.follow? before (passed ++ last :: rest) := by
  induction straight generalizing before with
  | here => exact .step (follow?_eq_some leads found) track
  | onward goesOn _ ih =>
      have inside : ∃ instruction, script.get? _ = some instruction :=
        ⟨_, List.getElem?_eq_getElem (onward?_le goesOn).1⟩
      obtain ⟨instruction, first⟩ := inside
      exact .step (follow?_eq_some leads first) (ih (leads?_of_onward goesOn) found track)

theorem Straight.track_of_missing {passed : List Nat} {before last : Nat}
    (straight : script.Straight passed offset last) (leads : script.leads? before = some offset)
    (missing : script.get? last = none) : Track script.follow? before passed := by
  induction straight generalizing before with
  | here =>
      refine .last (follow?_eq_none fun next leads' => ?_)
      cases leads.symm.trans leads'
      exact missing
  | onward goesOn _ ih =>
      have inside : ∃ instruction, script.get? _ = some instruction :=
        ⟨_, List.getElem?_eq_getElem (onward?_le goesOn).1⟩
      obtain ⟨instruction, first⟩ := inside
      exact .step (follow?_eq_some leads first) (ih (leads?_of_onward goesOn) missing)

def Goes (script : Script) (spot? : Option Spot) (rest : List Nat) : Prop :=
  match spot? with
  | some spot => Track script.follow? spot.offset rest
  | none => rest = []

theorem Stretch.track {budget before : Nat} {rest : List Nat}
    (stretch : script.Stretch budget offset offsets [] spot?)
    (leads : script.leads? before = some offset) (goes : script.Goes spot? rest) :
    Track script.follow? before (offsets ++ rest) := by
  cases stretch with
  | @yields passed halt instruction straight within found halts =>
      rw [List.append_assoc]
      rw [spotAt?_of_found found] at goes
      refine straight.track leads found ?_
      split at goes
      · exact goes
      · next blocks =>
          obtain rfl : rest = [] := goes
          refine .last (follow?_eq_none fun next leads => ?_)
          rw [leads?_of_blocks found halts (Nat.eq_zero_of_not_pos blocks)] at leads
          cases leads
  | ends straight within missing =>
      obtain rfl : rest = [] := goes
      rw [List.append_nil]
      exact straight.track_of_missing leads missing

/-! ## Passages -/

/-- What is executed when the timer fires that is waited for at a spot, where the run stalls, and
where it comes to wait. -/
inductive Passage (script : Script) (spot : Spot) :
    List Nat → List Nat → Option Spot → Prop where
  | shows {instruction : Instruction} : script.get? spot.offset = some instruction →
      spot.shown + 1 < instruction.fires →
      Passage script spot [] [] (some ⟨spot.offset, spot.shown + 1⟩)
  | rests {instruction : Instruction} : script.get? spot.offset = some instruction →
      spot.shown + 1 = instruction.fires → script.leads? spot.offset = none →
      Passage script spot [] [] none
  | goesOn {instruction : Instruction} {offsets stalls : List Nat} {next? : Option Spot} :
      script.get? spot.offset = some instruction → spot.shown + 1 = instruction.fires →
      script.leads? spot.offset = some (spot.offset + 1) →
      script.Stretch script.length (spot.offset + 1) offsets stalls next? →
      Passage script spot offsets stalls next?

theorem Passage.time {spot : Spot} {next? : Option Spot}
    (passage : script.Passage spot offsets stalls next?) :
    script.timeLeft settings spot + script.duration settings offsets =
      script.delayAt settings spot.offset + script.wait settings next? := by
  have spent {instruction : Instruction} (found : script.get? spot.offset = some instruction)
      (last : spot.shown + 1 = instruction.fires) :
      script.timeLeft settings spot = script.delayAt settings spot.offset := by
    rw [timeLeft_of_found found, ← last, Nat.add_sub_cancel_left, Nat.one_mul]
  cases passage with
  | @shows instruction found more =>
      have next : script.timeLeft settings ⟨spot.offset, spot.shown + 1⟩ =
          (instruction.fires - (spot.shown + 1)) * script.delayAt settings spot.offset :=
        timeLeft_of_found found
      obtain ⟨left, same⟩ := Nat.exists_eq_add_of_lt more
      simp only [wait, Option.map_some, Option.getD_some, next, timeLeft_of_found found, same]
      have here : spot.shown + 1 + left + 1 - spot.shown = left + 2 := by omega
      have there : spot.shown + 1 + left + 1 - (spot.shown + 1) = left + 1 := by omega
      have none : script.duration settings [] = 0 := rfl
      rw [here, there, none, Nat.succ_mul (left + 1), Nat.add_zero, Nat.add_comm]
  | rests found last => rw [spent found last]; rfl
  | goesOn found last leads stretch => rw [spent found last, stretch.duration]

theorem Passage.track {spot : Spot} {next? : Option Spot} {rest : List Nat}
    (passage : script.Passage spot offsets [] next?) (goes : script.Goes next? rest) :
    Track script.follow? spot.offset (offsets ++ rest) := by
  cases passage with
  | shows found more => exact goes
  | rests found last leads =>
      obtain rfl : rest = [] := goes
      exact .last (follow?_eq_none fun next leads' => nomatch leads.symm.trans leads')
  | goesOn found last leads stretch => exact stretch.track leads goes

end Script

namespace Interpreter

section Wakes

variable (stage : Stage) {script : Script} {interpreter : Interpreter} {spot : Spot}

theorem Reports.silent {before after : Interpreter}
    (reports : Reports (fun _ => False) before after) :
    Executes [] [] before after :=
  reports.executes fun _ => id

theorem afterReveal_passage {speaker : Option String} {text : String} {offset : Nat}
    (performs : Performs script interpreter) (pc : interpreter.pc = spot.offset + 1)
    (found : script.get? spot.offset = some (.say speaker text))
    (last : spot.shown + 1 = max 1 text.length) :
    ∃ offsets stalls,
      script.Passage spot offsets stalls
        (match script.get? (spot.offset + 1) with
        | some (.choice _) => script.waitFrom? (spot.offset + 1)
        | _ => none) ∧
      Executes offsets stalls interpreter (interpreter.afterReveal stage offset).2 := by
  have rests (apart : ∀ options, script.get? (spot.offset + 1) ≠ some (.choice options)) :
      script.Passage spot [] [] none := by
    refine .rests found last ?_
    simp only [Script.leads?, found]
  have here : interpreter.script.get? interpreter.pc = script.get? (spot.offset + 1) := by
    rw [performs.script, pc]
  unfold afterReveal
  rw [here]
  cases next : script.get? (spot.offset + 1) with
  | none =>
      exact ⟨[], [], rests (by simp [next]), Reports.silent (.nothing rfl rfl rfl rfl)⟩
  | some instruction =>
      cases instruction with
      | choice options =>
          have leads : script.leads? spot.offset = some (spot.offset + 1) := by
            simp only [Script.leads?, found, next]
          let ready := interpreter.note (.leadsIntoChoice offset)
          have begins : Executes [] [] interpreter ready := Reports.silent (Cued.note rfl _).reports
          obtain ⟨offsets, stalls, stretch, executes, -⟩ :=
            runUntilSuspended_stretch stage (begins.performs performs)
          rw [show ready.pc = spot.offset + 1 from pc] at stretch
          exact ⟨offsets, stalls, .goesOn found last leads stretch, begins.trans executes⟩
      | ending =>
          exact ⟨[], [], rests (by simp [next]),
            Reports.silent ((Cued.note rfl _).updates rfl rfl rfl rfl)⟩
      | _ => exact ⟨[], [], rests (by simp [next]), Reports.silent (.nothing rfl rfl rfl rfl)⟩

theorem wake_passage (timely : interpreter.clock.Timely) (waitsAt : WaitsAt interpreter spot)
    {wake : Wake} (live : interpreter.clock.live = some wake) :
    ∃ offsets stalls,
      interpreter.script.Passage spot offsets stalls (interpreter.script.next? spot) ∧
      Executes offsets stalls interpreter (interpreter.wake stage wake).2 := by
  have performs : Performs interpreter.script interpreter := ⟨waitsAt.targets, rfl⟩
  obtain ⟨instruction, past, waits⟩ := waitsAt.waits
  cases waits with
  | settling settles settling shown =>
      have last : spot.shown + 1 = instruction.fires := by
        rw [shown, fires_of_settles settles]
      let ready := { interpreter with settling := none }
      have begins : Executes [] [] interpreter ready := Reports.silent (.nothing rfl rfl rfl rfl)
      obtain ⟨offsets, stalls, stretch, executes, -⟩ :=
        runUntilSuspended_stretch stage (begins.performs performs)
      rw [wake_settled stage waitsAt.phase settling live, next?_of_settles past.found settles]
      rw [show ready.pc = spot.offset + 1 from past.pc] at stretch
      exact ⟨offsets, stalls,
        .goesOn past.found last (Script.leads?_of_settles past.found settles) stretch,
        begins.trans executes⟩
  | revealing speaker text active shown =>
      rw [wake_ticked stage timely waitsAt.phase active live, Script.next?, past.found]
      by_cases more : spot.shown + 1 < text.length
      · simp only [more, ↓reduceIte]
        have fires : spot.shown + 1 < (Instruction.say speaker text).fires :=
          Nat.lt_of_lt_of_le more (Nat.le_max_right 1 _)
        exact ⟨[], [], .shows past.found fires, (tell_reports ..).silent⟩
      · simp only [more, ↓reduceIte]
        have told : Executes [] [] interpreter
            (interpreter.tell text { interpreter.reveal with active := none }) :=
          (tell_reports ..).silent
        have last : spot.shown + 1 = max 1 text.length := by omega
        obtain ⟨offsets, stalls, passage, executes⟩ :=
          afterReveal_passage stage (told.performs performs) past.pc past.found last
        exact ⟨offsets, stalls, passage, told.trans executes⟩

end Wakes

end Interpreter

/-! ## Until the run blocks -/

namespace Rehearsal

open Interpreter

variable {stage : Stage} {script : Script} {before after : Rehearsal}

/-- What is executed until the run blocks takes as long as the run goes on; unless it stalls, each
instruction is the one that follows another. -/
theorem Attuned.executes {spot : Spot} {due : Nat} (attuned : Attuned script spot due before)
    (fires : Fires stage none before after) :
    ∃ offsets stalls,
      Executes offsets stalls before.interpreter after.interpreter ∧
      after.now + script.delayAt stage.settings spot.offset =
        due + script.timeLeft stage.settings spot + script.duration stage.settings offsets ∧
      (stalls = [] → Track script.follow? spot.offset offsets) := by
  induction fires generalizing spot due with
  | done rests =>
      obtain ⟨wake, pending, -⟩ := attuned.pending
      cases rests _ pending
  | @fire before after timer pending isDue fires ih =>
      have fired := attuned.fire stage pending
      obtain ⟨wake, waited, live⟩ := attuned.pending
      cases pending.symm.trans waited
      obtain ⟨offsets, stalls, passage, executes⟩ :=
        wake_passage stage attuned.timely attuned.waitsAt live
      rw [attuned.script] at passage
      have time : script.timeLeft stage.settings spot + _ = _ := passage.time
      have executes : Executes offsets stalls before.interpreter
          (before.fire stage ⟨due, wake⟩).2.interpreter := by
        rw [fire_interpreter]
        exact executes
      generalize script.next? spot = next? at fired passage time
      cases next? with
      | some next =>
          obtain ⟨later, latest, executes', time', track⟩ := ih fired
          refine ⟨offsets ++ later, stalls ++ latest, executes.trans executes', ?_, fun none => ?_⟩
          · rw [Script.duration_append]
            simp only [Script.wait, Option.map_some, Option.getD_some] at time
            omega
          · obtain ⟨rfl, rfl⟩ := List.append_eq_nil_iff.mp none
            exact passage.track (track rfl)
      | none =>
          obtain rfl : after = (before.fire stage ⟨due, wake⟩).2 :=
            fires.eq_of_rests (rests_of_pending fired)
          refine ⟨offsets, stalls, executes, ?_, fun none => ?_⟩
          · have now : (before.fire stage ⟨due, wake⟩).2.now = due :=
              (fire_now ..).trans (Nat.max_eq_right attuned.early)
            simp only [Script.wait, Option.map_none, Option.getD_none] at time
            omega
          · subst none
            have track : Track script.follow? spot.offset (offsets ++ []) := passage.track rfl
            rwa [List.append_nil] at track

end Rehearsal

end VisualNovel
