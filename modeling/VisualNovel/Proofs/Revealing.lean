import Mathlib.Data.List.Induction
import Mathlib.Data.List.TakeWhile
import VisualNovel.Reveal

/-!
Whatever is started, cancelled and ticked in whatever order, each started reveal shows one more
character at each of its ticks, hands back once what was to happen when it is complete, and is
stale from then on or from the moment another one takes its place.

Main statement: `reveals_in_order`.
-/

namespace VisualNovel

namespace Tick

variable {α : Type}

def isStale : Tick α → Bool
  | stale => true
  | _ => false

def isComplete : Tick α → Bool
  | complete .. => true
  | _ => false

def part? : Tick α → Option String
  | partly shown _ => some shown
  | _ => none

end Tick

namespace Reveal

variable {α : Type}

inductive Act (α : Type) where
  | start (text : String) (onComplete : α)
  | tick (ticket : Ticket)
  | cancel
  deriving DecidableEq

namespace Act

def replaces : Act α → Bool
  | tick _ => false
  | _ => true

def ticks (ticket : Ticket) : Act α → Bool
  | tick given => given = ticket
  | _ => false

end Act

def act (reveal : Reveal α) : Act α → Reveal α
  | .start text onComplete => (reveal.start text onComplete).2
  | .tick ticket => (reveal.tick ticket).2
  | .cancel => reveal.cancel

def run (reveal : Reveal α) (acts : List (Act α)) : Reveal α :=
  acts.foldl act reveal

def answers (ticket : Ticket) : Reveal α → List (Act α) → List (Tick α)
  | _, [] => []
  | reveal, act :: acts =>
      if act.ticks ticket then (reveal.tick ticket).1 :: answers ticket (reveal.act act) acts
      else answers ticket (reveal.act act) acts

def first (text : String) (count : Nat) : String :=
  String.ofList (text.toList.take count)

def course (ticket : Ticket) (text : String) (onComplete : α) : List (Tick α) :=
  (List.range (text.length - 1)).map (fun shown => .partly (first text (shown + 1)) ticket) ++
    [.complete text onComplete]

def begun (ticket : Ticket) (text : String) (onComplete : α) (ticks : Nat) : Reveal α :=
  ⟨ticket.generation,
    if ticks < max 1 text.length then some (.upTo text.toList ticks onComplete) else none⟩

/-- The cursor stands where a character ends, so the text can be cut there. -/
def Cuts (revealing : Revealing α) : Prop :=
  ∃ before after, revealing.text = before ++ after ∧ revealing.cursor = Text.size before ∧
    Text.takeBytes? revealing.cursor revealing.text = some before ∧
    Text.dropBytes? revealing.cursor revealing.text = some after

/-- The last of the replacing acts is the start of a reveal, and its ticks are not used up. -/
structure Begins (acts before : List (Act α)) (text : String) (onComplete : α)
    (after : List (Act α)) (ticket : Ticket) : Prop where
  acts : acts = before ++ .start text onComplete :: after
  issued : ticket = ((idle.run before).start text onComplete).1
  unreplaced : after.any Act.replaces = false
  more : after.countP (Act.ticks ticket) < max 1 text.length

theorem run_append (reveal : Reveal α) (before after : List (Act α)) :
    reveal.run (before ++ after) = (reveal.run before).run after :=
  List.foldl_append

theorem answers_append (ticket : Ticket) (reveal : Reveal α) (before after : List (Act α)) :
    reveal.answers ticket (before ++ after) =
      reveal.answers ticket before ++ (reveal.run before).answers ticket after := by
  induction before generalizing reveal with
  | nil => rfl
  | cons act before ih =>
      simp only [List.cons_append, answers, ih, run, List.foldl_cons]
      split <;> rfl

/-! ## Stale tickets -/

theorem tick_of_other (reveal : Reveal α) {ticket : Ticket}
    (other : ticket.generation ≠ reveal.generation) : reveal.tick ticket = (.stale, reveal) := by
  simp [tick, other]

theorem tick_of_inactive {reveal : Reveal α} (inactive : reveal.active = none) (ticket : Ticket) :
    reveal.tick ticket = (.stale, reveal) := by
  simp [tick, inactive]

theorem generation_tick (reveal : Reveal α) (ticket : Ticket) :
    (reveal.tick ticket).2.generation = reveal.generation := by
  unfold tick
  split
  · rfl
  split
  · rfl
  · dsimp only
    split <;> rfl

theorem generation_act (reveal : Reveal α) (act : Act α) :
    (reveal.act act).generation = reveal.generation + if act.replaces then 1 else 0 := by
  cases act with
  | start => rfl
  | tick ticket => exact generation_tick reveal ticket
  | cancel => rfl

theorem generation_le_act (reveal : Reveal α) (act : Act α) :
    reveal.generation ≤ (reveal.act act).generation := by
  simp [generation_act]

theorem generation_le_run (reveal : Reveal α) (acts : List (Act α)) :
    reveal.generation ≤ (reveal.run acts).generation := by
  induction acts generalizing reveal with
  | nil => exact Nat.le_refl _
  | cons act acts ih => exact Nat.le_trans (generation_le_act reveal act) (ih _)

theorem generation_lt_run (reveal : Reveal α) {acts : List (Act α)}
    (replaced : acts.any Act.replaces = true) :
    reveal.generation < (reveal.run acts).generation := by
  induction acts generalizing reveal with
  | nil => cases replaced
  | cons act acts ih =>
      by_cases replaces : act.replaces
      · have later := generation_le_run (reveal.act act) acts
        rw [generation_act, if_pos replaces] at later
        exact later
      · have later := ih (reveal.act act) (by simpa [replaces] using replaced)
        rwa [generation_act, if_neg replaces] at later

theorem answers_of_past {ticket : Ticket} {reveal : Reveal α}
    (past : ticket.generation < reveal.generation) (acts : List (Act α)) :
    (reveal.answers ticket acts).filter (!·.isStale) = [] := by
  induction acts generalizing reveal with
  | nil => rfl
  | cons act acts ih =>
      have later := ih (Nat.lt_of_lt_of_le past (generation_le_act reveal act))
      unfold answers
      split
      · rw [tick_of_other _ (by omega)]
        exact later
      · exact later

theorem answers_of_coming {ticket : Ticket} {reveal : Reveal α} {acts : List (Act α)}
    (coming : (reveal.run acts).generation < ticket.generation) :
    (reveal.answers ticket acts).filter (!·.isStale) = [] := by
  induction acts generalizing reveal with
  | nil => rfl
  | cons act acts ih =>
      have later := ih coming
      have sooner := generation_le_run reveal (act :: acts)
      unfold answers
      split
      · rw [tick_of_other _ (by omega)]
        exact later
      · exact later

/-! ## One reveal -/

section Begun

variable (ticket : Ticket) (text : String) (onComplete : α)

theorem length_course : (course ticket text onComplete).length = max 1 text.length := by
  simp only [course, List.length_append, List.length_map, List.length_range, List.length_singleton]
  omega

theorem course_getElem {ticks : Nat} (more : ticks < max 1 text.length) :
    (course ticket text onComplete)[ticks]? =
      some (if ticks + 1 < text.length then .partly (first text (ticks + 1)) ticket
        else .complete text onComplete) := by
  unfold course
  by_cases partly : ticks + 1 < text.length
  · have inside : ticks < text.length - 1 := by omega
    rw [List.getElem?_append_left (by simpa using inside)]
    simp [partly, inside]
  · have last : ticks = text.length - 1 := by omega
    rw [if_neg partly, last, List.getElem?_append_right (by simp)]
    simp

theorem begun_tick {ticks : Nat} (more : ticks < max 1 text.length) :
    (begun ticket text onComplete ticks).tick ticket =
      (if ticks + 1 < text.length then .partly (first text (ticks + 1)) ticket
        else .complete text onComplete, begun ticket text onComplete (ticks + 1)) := by
  have active : (begun ticket text onComplete ticks).active =
      some (.upTo text.toList ticks onComplete) := by simp [begun, more]
  rw [tick_of_active active rfl, String.length_toList, String.ofList_toList]
  by_cases partly : ticks + 1 < text.length
  · have more : ticks + 1 < max 1 text.length := by omega
    simp only [partly, more, begun, first, ↓reduceIte]
  · have last : ¬ ticks + 1 < max 1 text.length := by omega
    simp only [partly, begun, last, ↓reduceIte]

theorem begun_tick_done {ticks : Nat} (done : max 1 text.length ≤ ticks) (given : Ticket) :
    (begun ticket text onComplete ticks).tick given =
      (.stale, begun ticket text onComplete ticks) :=
  tick_of_inactive (by simp [begun]; omega) given

theorem begun_done {ticks : Nat} (done : max 1 text.length ≤ ticks) :
    begun ticket text onComplete (ticks + 1) = begun ticket text onComplete ticks := by
  have sooner : ¬ ticks < max 1 text.length := by omega
  have later : ¬ ticks + 1 < max 1 text.length := by omega
  simp only [begun, sooner, later, ↓reduceIte]

theorem begun_act {act : Act α} (unreplaced : act.replaces = false) (ticks : Nat) :
    (begun ticket text onComplete ticks).act act =
      begun ticket text onComplete (ticks + if act.ticks ticket then 1 else 0) := by
  cases act with
  | start => cases unreplaced
  | cancel => cases unreplaced
  | tick given =>
      by_cases own : given = ticket
      · by_cases more : ticks < max 1 text.length
        · simp [act, Act.ticks, own, begun_tick ticket text onComplete more]
        · have done : max 1 text.length ≤ ticks := by omega
          simp [act, Act.ticks, own, begun_tick_done, begun_done, done]
      · have other : given.generation ≠ ticket.generation := fun same => own (by
          cases given
          cases ticket
          exact congrArg Ticket.mk same)
        simp [act, Act.ticks, own, tick_of_other (begun ..) other]

theorem begun_run {acts : List (Act α)} (unreplaced : acts.any Act.replaces = false)
    (ticks : Nat) :
    (begun ticket text onComplete ticks).run acts =
      begun ticket text onComplete (ticks + acts.countP (Act.ticks ticket)) := by
  induction acts generalizing ticks with
  | nil => rfl
  | cons act acts ih =>
      rw [List.any_cons, Bool.or_eq_false_iff] at unreplaced
      rw [run, List.foldl_cons, begun_act ticket text onComplete unreplaced.1, ← run,
        ih unreplaced.2, List.countP_cons, Nat.add_assoc, Nat.add_comm (acts.countP _)]

theorem begun_answers {acts : List (Act α)} (unreplaced : acts.any Act.replaces = false)
    (ticks : Nat) :
    ((begun ticket text onComplete ticks).answers ticket acts).filter (!·.isStale) =
      ((course ticket text onComplete).drop ticks).take (acts.countP (Act.ticks ticket)) := by
  induction acts generalizing ticks with
  | nil => rfl
  | cons act acts ih =>
      rw [List.any_cons, Bool.or_eq_false_iff] at unreplaced
      have later := fun ticks => ih unreplaced.2 ticks
      rw [answers, begun_act ticket text onComplete unreplaced.1, List.countP_cons]
      by_cases own : act.ticks ticket
      · simp only [own, ↓reduceIte]
        by_cases more : ticks < max 1 text.length
        · have next := List.getElem?_eq_some_iff.mp (course_getElem ticket text onComplete more)
          obtain ⟨inside, next⟩ := next
          rw [begun_tick ticket text onComplete more, List.drop_eq_getElem_cons inside, next,
            List.take_succ_cons, ← later (ticks + 1)]
          split <;> rfl
        · have done : max 1 text.length ≤ ticks := by omega
          have exhausted : (course ticket text onComplete).drop ticks = [] :=
            List.drop_eq_nil_of_le (by rw [length_course]; exact done)
          rw [begun_tick_done ticket text onComplete done, begun_done ticket text onComplete done,
            exhausted, List.take_nil]
          exact (later ticks).trans (by rw [exhausted, List.take_nil])
      · simpa only [own, Bool.false_eq_true, ↓reduceIte, Nat.add_zero] using later ticks

end Begun

/-! ## Histories -/

theorem act_start (reveal : Reveal α) (text : String) (onComplete : α) :
    reveal.act (.start text onComplete) =
      begun (reveal.start text onComplete).1 text onComplete 0 := by
  have more : 0 < max 1 text.length := by omega
  simp [act, start, begun, more, Revealing.upTo_zero]

theorem run_started (before : List (Act α)) (text : String) (onComplete : α)
    (after : List (Act α)) :
    idle.run (before ++ .start text onComplete :: after) =
      (begun ((idle.run before).start text onComplete).1 text onComplete 0).run after := by
  rw [run_append, run, List.foldl_cons, act_start, ← run]

theorem Begins.run {acts before after : List (Act α)} {text : String} {onComplete : α}
    {ticket : Ticket} (begins : Begins acts before text onComplete after ticket) :
    idle.run acts = begun ticket text onComplete (after.countP (Act.ticks ticket)) := by
  rw [begins.acts, run_started, ← begins.issued,
    begun_run ticket text onComplete begins.unreplaced, Nat.zero_add]

theorem inactive_or_begins (acts : List (Act α)) :
    ((idle : Reveal α).run acts).active = none ∨
      ∃ before text onComplete after ticket, Begins acts before text onComplete after ticket := by
  induction acts using List.reverseRecOn with
  | nil => exact .inl rfl
  | append_singleton acts act ih =>
      cases act with
      | cancel =>
          left
          rw [run_append]
          rfl
      | start text onComplete =>
          refine .inr ⟨acts, text, onComplete, [], _, rfl, rfl, rfl, ?_⟩
          simp only [List.countP_nil]
          omega
      | tick given =>
          obtain inactive | ⟨before, text, onComplete, after, ticket, begins⟩ := ih
          · left
            rw [run_append]
            show (tick _ given).2.active = none
            rw [tick_of_inactive inactive]
            exact inactive
          · let later : List (Act α) := after ++ [.tick given]
            have unreplaced : later.any Act.replaces = false := by
              simpa [later, Act.replaces] using begins.unreplaced
            have acts : acts ++ [.tick given] = before ++ .start text onComplete :: later := by
              simp [begins.acts, later]
            by_cases more : later.countP (Act.ticks ticket) < max 1 text.length
            · exact .inr ⟨before, text, onComplete, later, ticket, acts, begins.issued, unreplaced,
                more⟩
            · left
              rw [acts, run_started, ← begins.issued, begun_run _ _ _ unreplaced, Nat.zero_add]
              simp only [begun, more, ↓reduceIte]

theorem answers_started (before : List (Act α)) (text : String) (onComplete : α)
    (after : List (Act α)) :
    let ticket := ((idle.run before).start text onComplete).1
    (idle.answers ticket (before ++ .start text onComplete :: after)).filter (!·.isStale) =
      (course ticket text onComplete).take
        ((after.takeWhile (!·.replaces)).countP (Act.ticks ticket)) := by
  intro ticket
  have sooner : (idle.answers ticket before).filter (!·.isStale) = [] :=
    answers_of_coming (Nat.lt_succ_self _)
  have unreplaced : (after.takeWhile (!·.replaces)).any Act.replaces = false := by
    rw [List.any_eq_false]
    intro act member
    simpa using List.mem_takeWhile_imp member
  have later : (((begun ticket text onComplete 0).run (after.takeWhile (!·.replaces))).answers
      ticket (after.dropWhile (!·.replaces))).filter (!·.isStale) = [] := by
    rw [begun_run ticket text onComplete unreplaced]
    cases rest : after.dropWhile (!·.replaces) with
    | nil => rfl
    | cons act rest' =>
        have replaces : act.replaces = true := by
          have head := List.head?_dropWhile_not (!·.replaces) after
          simpa [rest] using head
        have other : act.ticks ticket = false := by
          cases act with
          | tick => cases replaces
          | _ => rfl
        simp only [answers, other, Bool.false_eq_true, ↓reduceIte]
        apply answers_of_past
        rw [generation_act, if_pos replaces]
        exact Nat.lt_succ_self _
  have own := begun_answers ticket text onComplete unreplaced 0
  rw [answers_append, List.filter_append, sooner, List.nil_append, answers, act_start]
  conv => lhs; rw [← List.takeWhile_append_dropWhile (p := (!·.replaces)) (l := after)]
  simp only [Act.ticks, Bool.false_eq_true, ↓reduceIte]
  rw [answers_append, List.filter_append, later, List.append_nil, own, List.drop_zero]

theorem tick_started (before : List (Act α)) (text : String) (onComplete : α)
    (after : List (Act α)) :
    let acts := before ++ .start text onComplete :: after
    let ticket := ((idle.run before).start text onComplete).1
    let ticks := after.countP (Act.ticks ticket)
    (idle.run acts).tick ticket =
      if after.any Act.replaces ∨ max 1 text.length ≤ ticks then (.stale, idle.run acts)
      else if ticks + 1 < text.length then
        (.partly (first text (ticks + 1)) ticket, begun ticket text onComplete (ticks + 1))
      else (.complete text onComplete, begun ticket text onComplete (ticks + 1)) := by
  intro acts ticket ticks
  have ran : idle.run acts = (begun ticket text onComplete 0).run after := run_started ..
  by_cases replaced : after.any Act.replaces = true
  · rw [if_pos (.inl replaced), ran]
    exact tick_of_other _ (Nat.ne_of_lt (generation_lt_run (begun ..) replaced))
  rw [Bool.not_eq_true] at replaced
  rw [begun_run ticket text onComplete replaced, Nat.zero_add] at ran
  by_cases done : max 1 text.length ≤ ticks
  · rw [if_pos (.inr done), ran]
    exact begun_tick_done ticket text onComplete done ticket
  · rw [if_neg (by simp [replaced, done]), ran]
    rw [begun_tick ticket text onComplete (Nat.lt_of_not_le done)]
    split <;> rfl

theorem stale_or_begins (acts : List (Act α)) (ticket : Ticket) :
    (idle.run acts).tick ticket = (.stale, idle.run acts) ∨
      ∃ before text onComplete after, Begins acts before text onComplete after ticket := by
  obtain inactive | ⟨before, text, onComplete, after, issued, begins⟩ := inactive_or_begins acts
  · exact .inl (tick_of_inactive inactive ticket)
  · by_cases own : ticket.generation = issued.generation
    · obtain rfl : ticket = issued := congrArg Ticket.mk own
      exact .inr ⟨before, text, onComplete, after, begins⟩
    · left
      rw [begins.run]
      exact tick_of_other _ own

theorem answers_unissued {acts : List (Act α)} {ticket : Ticket}
    (unissued : ∀ before text onComplete after, acts = before ++ .start text onComplete :: after →
      ticket ≠ ((idle.run before).start text onComplete).1) :
    (idle.answers ticket acts).filter (!·.isStale) = [] := by
  induction acts using List.reverseRecOn with
  | nil => rfl
  | append_singleton acts act ih =>
      have sooner := ih (by
        rintro before text onComplete after rfl
        exact unissued before text onComplete (after ++ [act]) (by simp))
      obtain stale | ⟨before, text, onComplete, after, begins⟩ := stale_or_begins acts ticket
      · rw [answers_append, List.filter_append, sooner, List.nil_append, answers, answers, stale]
        split <;> rfl
      · have issued := unissued before text onComplete (after ++ [act]) (by simp [begins.acts])
        exact absurd begins.issued issued

theorem completes_course (ticket : Ticket) (text : String) (onComplete : α) :
    (course ticket text onComplete).countP Tick.isComplete = 1 := by
  have partly : Tick.isComplete ∘ (fun shown : Nat =>
      (Tick.partly (first text (shown + 1)) ticket : Tick α)) = fun _ => false := rfl
  simp [course, List.countP_map, partly, Tick.isComplete]

theorem completes_once (acts : List (Act α)) (ticket : Ticket) :
    (idle.answers ticket acts).countP Tick.isComplete ≤ 1 := by
  have fresh : (idle.answers ticket acts).countP Tick.isComplete =
      ((idle.answers ticket acts).filter (!·.isStale)).countP Tick.isComplete := by
    rw [List.countP_filter]
    congr 1
    funext answer
    cases answer <;> rfl
  rw [fresh]
  by_cases issued : ∃ before text onComplete after,
      acts = before ++ .start text onComplete :: after ∧
        ticket = ((idle.run before).start text onComplete).1
  · obtain ⟨before, text, onComplete, after, rfl, rfl⟩ := issued
    rw [answers_started, ← completes_course _ text onComplete]
    exact List.Sublist.countP_le (List.take_sublist ..)
  · rw [answers_unissued fun before text onComplete after acts issued' =>
      issued ⟨before, text, onComplete, after, acts, issued'⟩]
    exact Nat.zero_le 1

theorem cuts_upTo (text : List Char) (shown : Nat) (onComplete : α) :
    Cuts (.upTo text shown onComplete) := by
  refine ⟨text.take shown, text.drop shown, (List.take_append_drop ..).symm, rfl, ?_, ?_⟩
  · have cut := Text.takeBytes?_size_append (text.take shown) (text.drop shown)
    rwa [List.take_append_drop] at cut
  · have cut := Text.dropBytes?_size_append (text.take shown) (text.drop shown)
    rwa [List.take_append_drop] at cut

theorem last_part_course (ticket : Ticket) (text : String) (onComplete : α) {ticks : Nat}
    (more : ticks < max 1 text.length) :
    (((course ticket text onComplete).take ticks).filterMap Tick.part?).getLastD "" =
      first text ticks := by
  have inside : ticks ≤ text.length - 1 := by omega
  have parts : ((course ticket text onComplete).take ticks).filterMap Tick.part? =
      (List.range ticks).map fun shown => first text (shown + 1) := by
    rw [course, List.take_append_of_le_length (by simpa using inside), ← List.map_take,
      List.take_range, Nat.min_eq_left inside, List.filterMap_map]
    exact congrFun List.filterMap_eq_map _
  rw [parts]
  cases ticks with
  | zero => rfl
  | succ ticks => simp [List.range_succ]

theorem Begins.last_part {acts before after : List (Act α)} {text : String} {onComplete : α}
    {ticket : Ticket} (begins : Begins acts before text onComplete after ticket) :
    ((idle.answers ticket acts).filterMap Tick.part?).getLastD "" =
      first text (after.countP (Act.ticks ticket)) := by
  have fresh : (idle.answers ticket acts).filterMap Tick.part? =
      ((idle.answers ticket acts).filter (!·.isStale)).filterMap Tick.part? := by
    rw [List.filterMap_filter]
    congr 1
    funext answer
    cases answer <;> rfl
  have whole : after.takeWhile (!·.replaces) = after := by
    rw [List.takeWhile_eq_self_iff]
    intro act member
    simpa using List.any_eq_false.mp begins.unreplaced act member
  have started := answers_started before text onComplete after
  rw [← begins.issued, ← begins.acts, whole] at started
  rw [fresh, started, last_part_course ticket text onComplete begins.more]

theorem inactive_or_shown (acts : List (Act α)) :
    let reveal := idle.run acts
    reveal.active = none ∧ reveal.shown? = none ∨
      ∃ before text onComplete after ticket revealing,
        Begins acts before text onComplete after ticket ∧ reveal.active = some revealing ∧
        revealing.text = text.toList ∧ revealing.onComplete = onComplete ∧ Cuts revealing ∧
        revealing.cursor ≤ Text.size revealing.text ∧
        reveal.shown? =
          some (((idle.answers ticket acts).filterMap Tick.part?).getLastD "") := by
  intro reveal
  obtain inactive | ⟨before, text, onComplete, after, ticket, begins⟩ := inactive_or_begins acts
  · left
    refine ⟨inactive, ?_⟩
    rw [shown?, inactive, Option.map_none]
  · right
    let ticks := after.countP (Act.ticks ticket)
    have active : reveal.active = some (.upTo text.toList ticks onComplete) := by
      simp only [reveal, begins.run, begun]
      exact if_pos begins.more
    refine ⟨before, text, onComplete, after, ticket, _, begins, active, rfl, rfl,
      cuts_upTo .., ?_, ?_⟩
    · have whole := Text.size_append (text.toList.take ticks) (text.toList.drop ticks)
      rw [List.take_append_drop] at whole
      rw [Revealing.text_upTo, whole]
      exact Nat.le_add_right ..
    · rw [begins.last_part, shown?, active, Option.map_some, Revealing.shown_upTo]
      rfl

/-- The ticks of a reveal that are served show its text character by character and then complete
it; a tick that comes later, or after another start or a cancel, changes nothing. No other ticket
is ever served. -/
theorem reveals_in_order :
    (∀ (before : List (Act α)) (text : String) (onComplete : α) (after : List (Act α)),
      let acts := before ++ .start text onComplete :: after
      let ticket := ((idle.run before).start text onComplete).1
      let ticks := after.countP (Act.ticks ticket)
      (course ticket text onComplete).length = max 1 text.length ∧
      (idle.answers ticket acts).filter (!·.isStale) =
        (course ticket text onComplete).take
          ((after.takeWhile (!·.replaces)).countP (Act.ticks ticket)) ∧
      (idle.run acts).tick ticket =
        if after.any Act.replaces ∨ max 1 text.length ≤ ticks then (.stale, idle.run acts)
        else if ticks + 1 < text.length then
          (.partly (first text (ticks + 1)) ticket, begun ticket text onComplete (ticks + 1))
        else (.complete text onComplete, begun ticket text onComplete (ticks + 1))) ∧
    (∀ (acts : List (Act α)) (ticket : Ticket),
      ((idle.run acts).tick ticket = (.stale, idle.run acts) ∨
        ∃ before text onComplete after, Begins acts before text onComplete after ticket) ∧
      (idle.answers ticket acts).countP Tick.isComplete ≤ 1) ∧
    ∀ acts : List (Act α),
      let reveal := idle.run acts
      reveal.active = none ∧ reveal.shown? = none ∨
        ∃ before text onComplete after ticket revealing,
          Begins acts before text onComplete after ticket ∧ reveal.active = some revealing ∧
          revealing.text = text.toList ∧ revealing.onComplete = onComplete ∧ Cuts revealing ∧
          revealing.cursor ≤ Text.size revealing.text ∧
          reveal.shown? =
            some (((idle.answers ticket acts).filterMap Tick.part?).getLastD "") := by
  refine ⟨fun before text onComplete after => ⟨length_course .., ?_, ?_⟩, ?_, inactive_or_shown⟩
  · exact answers_started before text onComplete after
  · exact tick_started before text onComplete after
  · exact fun acts ticket => ⟨stale_or_begins acts ticket, completes_once acts ticket⟩

example : (idle : Reveal Nat).answers ⟨1⟩
    [.start "né" 7, .tick ⟨1⟩, .tick ⟨2⟩, .tick ⟨1⟩, .tick ⟨1⟩] =
      [.partly "n" ⟨1⟩, .complete "né" 7, .stale] := by
  decide

end Reveal

end VisualNovel
