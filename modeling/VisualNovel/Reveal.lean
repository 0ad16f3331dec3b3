import VisualNovel.Text.Bytes

/-!
The reveal of a line, one character at a time. A reveal keeps no time; whoever holds its ticket
says when the next character is due. Starting or cancelling a reveal makes all earlier tickets
stale, so what was to happen when an earlier reveal is complete never happens.
-/

namespace VisualNovel

structure Ticket where
  generation : Nat
  deriving DecidableEq

/-- A reveal under way. The cursor counts the bytes of the part shown. -/
structure Revealing (α : Type) where
  text : List Char
  cursor : Nat
  onComplete : α
  deriving DecidableEq

namespace Revealing

variable {α : Type}

def shown (revealing : Revealing α) : String :=
  String.ofList ((Text.takeBytes? revealing.cursor revealing.text).getD [])

def advance (revealing : Revealing α) : Revealing α :=
  match Text.dropBytes? revealing.cursor revealing.text with
  | some (glyph :: _) => { revealing with cursor := revealing.cursor + glyph.utf8Size }
  | _ => revealing

@[simp] theorem text_advance (revealing : Revealing α) :
    revealing.advance.text = revealing.text := by
  unfold advance
  split <;> rfl

@[simp] theorem onComplete_advance (revealing : Revealing α) :
    revealing.advance.onComplete = revealing.onComplete := by
  unfold advance
  split <;> rfl

theorem shown_prefix (revealing : Revealing α) :
    revealing.shown.toList <+: revealing.text := by
  rw [shown, String.toList_ofList]
  cases cut : Text.takeBytes? revealing.cursor revealing.text with
  | none => exact List.nil_prefix
  | some before => exact Text.takeBytes?_prefix cut

theorem shown_prefix_advance (revealing : Revealing α) :
    revealing.shown.toList <+: revealing.advance.shown.toList := by
  unfold advance
  split
  · next glyph rest cut =>
      obtain ⟨before, whole, size⟩ := Text.dropBytes?_eq_some cut
      have sooner := Text.takeBytes?_size_append before (glyph :: rest)
      have later := Text.takeBytes?_size_append (before ++ [glyph]) rest
      rw [Text.size_append, Text.size_cons, Text.size_nil, Nat.add_zero, List.append_assoc,
        List.singleton_append] at later
      simp only [shown, whole, size, sooner, later, String.toList_ofList, Option.getD_some]
      exact List.prefix_append ..
  · exact List.prefix_refl _

end Revealing

structure Reveal (α : Type) where
  generation : Nat
  active : Option (Revealing α)
  deriving DecidableEq

inductive Tick (α : Type) where
  | partly (shown : String) (next : Ticket)
  | complete (shown : String) (onComplete : α)
  | stale
  deriving DecidableEq

namespace Reveal

variable {α : Type}

def idle : Reveal α := ⟨0, none⟩

def start (reveal : Reveal α) (text : String) (onComplete : α) : Ticket × Reveal α :=
  (⟨reveal.generation + 1⟩, ⟨reveal.generation + 1, some ⟨text.toList, 0, onComplete⟩⟩)

def cancel (reveal : Reveal α) : Reveal α :=
  ⟨reveal.generation + 1, none⟩

/-- Shows one more character; with the last one the reveal is complete. An empty line is complete
at once. -/
def tick (reveal : Reveal α) (ticket : Ticket) : Tick α × Reveal α :=
  if ticket.generation ≠ reveal.generation then (.stale, reveal)
  else
    match reveal.active with
    | none => (.stale, reveal)
    | some revealing =>
        let next := revealing.advance
        if next.cursor < Text.size next.text then
          (.partly next.shown ticket, { reveal with active := some next })
        else
          (.complete (String.ofList next.text) next.onComplete, { reveal with active := none })

def isRevealing (reveal : Reveal α) : Bool :=
  reveal.active.isSome

def shown? (reveal : Reveal α) : Option String :=
  reveal.active.map (·.shown)

end Reveal

namespace Revealing

variable {α : Type} (text : List Char) (shown : Nat) (onComplete : α)

def upTo : Revealing α :=
  ⟨text, Text.size (text.take shown), onComplete⟩

@[simp] theorem text_upTo : (upTo text shown onComplete).text = text := rfl

@[simp] theorem onComplete_upTo : (upTo text shown onComplete).onComplete = onComplete := rfl

theorem upTo_zero : upTo text 0 onComplete = ⟨text, 0, onComplete⟩ := by
  simp [upTo]

@[simp] theorem shown_upTo :
    (upTo text shown onComplete).shown = String.ofList (text.take shown) := by
  have cut := Text.takeBytes?_size_append (text.take shown) (text.drop shown)
  rw [List.take_append_drop] at cut
  simp [Revealing.shown, upTo, cut]

@[simp] theorem advance_upTo :
    (upTo text shown onComplete).advance = upTo text (shown + 1) onComplete := by
  have cut := Text.dropBytes?_size_append (text.take shown) (text.drop shown)
  rw [List.take_append_drop] at cut
  unfold advance upTo
  dsimp only
  rw [cut]
  by_cases more : shown < text.length
  · have longer : text.take (shown + 1) = text.take shown ++ [text[shown]] := by simp
    rw [List.drop_eq_getElem_cons more, longer, Text.size_append, Text.size_cons, Text.size_nil]
    rfl
  · rw [List.drop_eq_nil_of_le (by omega),
      List.take_of_length_le (show text.length ≤ shown by omega),
      List.take_of_length_le (show text.length ≤ shown + 1 by omega)]

theorem cursor_upTo_lt_iff :
    (upTo text shown onComplete).cursor < Text.size text ↔ shown < text.length := by
  have whole := Text.size_append (text.take shown) (text.drop shown)
  rw [List.take_append_drop] at whole
  have left := @Text.size_pos_iff (text.drop shown)
  rw [Ne, List.drop_eq_nil_iff] at left
  simp only [upTo, whole]
  omega

end Revealing

theorem Reveal.tick_of_active {α : Type} {reveal : Reveal α} {ticket : Ticket} {text : List Char}
    {shown : Nat} {onComplete : α} (active : reveal.active = some (.upTo text shown onComplete))
    (current : ticket.generation = reveal.generation) :
    reveal.tick ticket =
      if shown + 1 < text.length then
        (.partly (String.ofList (text.take (shown + 1))) ticket,
          { reveal with active := some (.upTo text (shown + 1) onComplete) })
      else (.complete (String.ofList text) onComplete, { reveal with active := none }) := by
  simp only [tick, current, active, ne_eq, not_true_eq_false, ↓reduceIte, Revealing.advance_upTo,
    Revealing.text_upTo, Revealing.onComplete_upTo, Revealing.cursor_upTo_lt_iff,
    Revealing.shown_upTo]

end VisualNovel
