import VisualNovel.Json.Variants
import VisualNovel.Proofs.Json.Values

/-!
Laws of formats. `Rereads` says that what is written for a value is read back from a text as that
value, `Converts` what it is taken for as a value at hand; each way to put formats together has a
law of either kind.
-/

namespace VisualNovel.Json

open Reader

def Absent.value? {α : Type} : Absent α → Option α
  | .refused => none
  | .nullable value | .default value => some value

namespace Format

variable {α β : Type}

/-- What is written for a value, in either layout, is read as that value. -/
def Rereads (format : Format α) (value : α) : Prop :=
  ∀ {layout : Layout} {level fuel depth : Nat}, (format.write value).depth ≤ depth →
    (chars layout level (format.write value)).length ≤ fuel →
    Reads layout level (format.read fuel depth) (format.write value) value

/-- What is written for `value`, its objects put in order, is taken for `result`. -/
def Converts (format : Format α) (value result : α) : Prop :=
  format.ofJson (format.write value).normalize = .ok result

section Written

variable {format : Format α} {allowed : Number → Prop} {depth : Nat}

theorem bounded_text (value : String) : (text.write value).Bounded allowed depth := by
  simp [text, Bounded, Json.depth, numbers]

theorem bounded_boolean (value : Bool) : (boolean.write value).Bounded allowed depth := by
  simp [boolean, Bounded, Json.depth, numbers]

theorem bounded_natural (kind : String) {value : Nat} (fits : allowed (.integer value)) :
    ((natural kind).write value).Bounded allowed depth := by
  simpa [natural, nat, Bounded, Json.depth, numbers] using fits

theorem bounded_millis (plain : ∀ number : Number, number.Plain → allowed number)
    (value : UInt64) : (millis.write value).Bounded allowed depth :=
  bounded_natural "u64" (plain _ (Number.plain_natural value.toNat_lt))

theorem bounded_names (entries : List (String × α)) (name : α → String) (value : α) :
    ((names entries name).write value).Bounded allowed depth := by
  simp [names, variants, Bounded, Json.depth, numbers]

theorem bounded_option {value : Option α}
    (inner : ∀ content ∈ value, (format.write content).Bounded allowed depth) :
    (format.option.write value).Bounded allowed depth := by
  cases value with
  | none => simp [option, Bounded, Json.depth, numbers]
  | some content => exact inner content rfl

theorem bounded_list {values : List α}
    (inner : ∀ value ∈ values, (format.write value).Bounded allowed depth) :
    ((list format).write values).Bounded allowed (depth + 1) := by
  refine bounded_of_parts (by simp [list]) fun part member => ?_
  obtain ⟨value, listed, rfl⟩ := List.mem_map.mp member
  exact inner value listed

theorem bounded_dict {value : Dict α}
    (inner : ∀ entry ∈ value.entries, (format.write entry.2).Bounded allowed depth) :
    ((dict format).write value).Bounded allowed (depth + 1) := by
  refine bounded_of_parts (by simp [dict]) fun part member => ?_
  obtain ⟨member, found, rfl⟩ := List.mem_map.mp member
  obtain ⟨entry, listed, rfl⟩ := List.mem_map.mp found
  exact inner entry listed

end Written

theorem text_rereads (value : String) : text.Rereads value := by
  intro layout level fuel depth deep room body rest written delimited
  obtain ⟨inside, quoted, read⟩ := stringBody_stringChars value rest
  have written : skipBlanks body = '"' :: inside := by
    rw [written, ← quoted]
    simp only [text, chars]
  simp only [text, written]
  exact read

theorem boolean_rereads (value : Bool) : boolean.Rereads value := by
  intro layout level fuel depth deep room body rest written delimited
  cases value with
  | true =>
      simp only [boolean, written, chars]
      rfl
  | false =>
      simp only [boolean, written, chars]
      rfl

theorem natural_rereads {kind : String} {value : Nat} (fits : value < 2 ^ 64) :
    (natural kind).Rereads value := by
  intro layout level fuel depth deep room body rest written delimited
  have read := number_chars (Number.plain_natural fits) delimited
  have written : skipBlanks body = Nat.toDigits 10 value ++ rest := by
    rw [written]
    simp only [natural, nat, chars]
    rfl
  have digits : (Number.integer value).chars = Nat.toDigits 10 value := rfl
  rw [digits] at read
  cases shown : Nat.toDigits 10 value with
  | nil => exact absurd shown Nat.toDigits_ne_nil
  | cons first others =>
      have digit : isDigit first = true := isDigit_toDigits value (by simp [shown])
      rw [shown, List.cons_append] at written read
      simp only [natural, written, digit, Bool.or_true, ↓reduceIte, read, ok_bind]
      rfl

theorem option_rereads {format : Format α} {value : Option α}
    (inner : ∀ content ∈ value, format.Rereads content)
    (solid : ∀ content ∈ value, format.write content ≠ .null) : format.option.Rereads value := by
  intro layout level fuel depth deep room body rest written delimited
  cases value with
  | none =>
      simp only [option, written, chars]
      rfl
  | some content =>
      have written : skipBlanks body = chars layout level (format.write content) ++ rest := written
      have again := skipBlanks_chars layout level (format.write content) rest
      have read := inner content rfl deep room _ rest again delimited
      obtain ⟨first, others, shown, -, -, letter⟩ := chars_head layout level (format.write content)
      rw [shown, List.cons_append] at read written
      simp only [option, written]
      split
      · next same =>
          cases same
          exact absurd (letter rfl) (solid content rfl)
      · rw [read]
        rfl

theorem names_rereads {entries : List (String × α)} {name : α → String} {value : α}
    (named : Variant.find? (entries.map fun (name, value) => .unit name value) (name value) =
      .ok (.unit value)) : (names entries name).Rereads value := by
  intro layout level fuel depth deep room body rest written delimited
  obtain ⟨inside, quoted, read⟩ := stringBody_stringChars (name value) rest
  have written : skipBlanks body = '"' :: inside := by
    rw [written, ← quoted]
    simp only [names, variants, chars]
  simp only [names, variants, written, read, named, placed, Content.bare, ok_bind]

theorem room_of_object {layout : Layout} {level fuel depth : Nat} {entries : List (String × Json)}
    (deep : (object entries).depth ≤ depth)
    (room : (chars layout level (object entries)).length ≤ fuel) :
    ∃ below, depth = below + 1 ∧ entries.length < fuel ∧ ∀ entry ∈ entries,
      entry.2.depth ≤ below ∧ (chars layout (level + 1) entry.2).length ≤ fuel := by
  obtain ⟨many, shorter⟩ := length_chars_parts layout level (object entries)
  simp only [parts, List.length_map] at many shorter
  cases depth with
  | zero => simp [Json.depth] at deep
  | succ below =>
      refine ⟨below, rfl, Nat.lt_of_lt_of_le many room, fun entry listed => ⟨?_, ?_⟩⟩
      · have inside : entry.2 ∈ (object entries).parts := List.mem_map_of_mem listed
        exact Nat.le_of_lt_succ (Nat.lt_of_lt_of_le (depth_parts inside) deep)
      · exact Nat.le_trans (shorter _ (List.mem_map_of_mem listed)) room

theorem dict_rereads {format : Format α} {value : Dict α}
    (inner : ∀ entry ∈ value.entries, format.Rereads entry.2) :
    (dict format).Rereads value := by
  intro layout level fuel depth deep room body rest written delimited
  obtain ⟨below, rfl, many, inside⟩ := room_of_object deep room
  let member := memberInto (format.read fuel below) fun key value (dict : Dict α) =>
    dict.insert key value
  -- Every entry is inserted behind those that are there already.
  have steps (entries : List (String × α)) (before : Dict α)
      (whole : before.entries ++ entries = value.entries) :
      Steps (TakesMember layout (level + 1) member) before
        (entries.map fun entry => (entry.1, format.write entry.2)) value := by
    induction entries generalizing before with
    | nil =>
        have same : before = value := Dict.ext (by simpa using whole)
        exact same ▸ .nil _
    | cons entry entries ih =>
        have listed : entry ∈ value.entries := by simp [← whole]
        have ascending : Ascending (before.entries ++ entry :: entries) := whole ▸ value.ascending
        have last : (before.insert entry.1 entry.2).entries = before.entries ++ [entry] :=
          insertEntry_last fun earlier found =>
            (List.pairwise_append.mp ascending).2.2 earlier found entry List.mem_cons_self
        obtain ⟨shallow, short⟩ := inside _ (List.mem_map_of_mem listed)
        refine .cons ?_ (ih (before.insert entry.1 entry.2) (by simpa [last] using whole))
        exact takesMember_memberInto (inner entry listed shallow short) _ before
  obtain ⟨after, opened, read⟩ :=
    members_object level (steps value.entries .empty rfl) many
  have written : skipBlanks body = '\x7b' :: (after ++ rest) := by
    rw [written, ← List.cons_append, ← opened]
    rfl
  simp only [dict, written, nested]
  exact read rest

theorem text_converts (value : String) : text.Converts value value := by
  simp only [Converts, text, normalize]

theorem boolean_converts (value : Bool) : boolean.Converts value value := by
  simp only [Converts, boolean, normalize]

theorem natural_converts (kind : String) (value : Nat) : (natural kind).Converts value value := by
  simp only [Converts, natural, nat, normalize]
  rfl

theorem millis_converts (value : UInt64) : millis.Converts value value := by
  have inner := natural_converts "u64" value.toNat
  show ((natural "u64").ofJson ((natural "u64").write value.toNat).normalize).map _ = _
  rw [inner, Except.map, UInt64.ofNat_toNat]

theorem names_converts {entries : List (String × α)} {name : α → String} {value : α}
    (named : Variant.find? (entries.map fun (name, value) => .unit name value) (name value) =
      .ok (.unit value)) : (names entries name).Converts value value := by
  simp only [Converts, names, variants, normalize, named, Content.bare, ok_bind]

theorem any_converts {value : Json} (settled : value.normalize = value) :
    any.Converts value value := by
  simp only [Converts, any, settled]

theorem option_ofJson {format : Format α} {value : Json} (solid : value ≠ .null) :
    format.option.ofJson value = (format.ofJson value).map some := by
  cases value with
  | null => exact absurd rfl solid
  | _ => rfl

theorem option_converts {format : Format α} (change : α → α) {value : Option α}
    (inner : ∀ content ∈ value, format.Converts content (change content))
    (solid : ∀ content ∈ value, (format.write content).normalize ≠ .null) :
    format.option.Converts value (value.map change) := by
  cases value with
  | none =>
      simp only [Converts, option, normalize]
      rfl
  | some content =>
      show format.option.ofJson (format.write content).normalize = _
      rw [option_ofJson (solid content rfl), inner content rfl]
      rfl

theorem list_converts {format : Format α} (change : α → α) {values : List α}
    (inner : ∀ value ∈ values, format.Converts value (change value)) :
    (list format).Converts values (values.map change) := by
  simp only [Converts, list, normalize, normalizeItems_eq]
  induction values with
  | nil => rfl
  | cons value values ih =>
      have first := inner value List.mem_cons_self
      have others := ih fun other listed => inner other (List.mem_cons_of_mem _ listed)
      simp only [List.map_cons, itemsOfJson]
      rw [first, others]
      rfl

end Format

end VisualNovel.Json
