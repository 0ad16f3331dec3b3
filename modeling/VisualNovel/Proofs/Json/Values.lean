import VisualNovel.Proofs.Json.Items

namespace VisualNovel.Json

def FloatFree (value : Json) : Prop :=
  ∀ number ∈ value.numbers, number.IsInteger

section FloatFree

variable {value inner : Json} {depth : Nat} (floatFree : value.FloatFree)
include floatFree

theorem FloatFree.part (member : inner ∈ value.parts) : inner.FloatFree :=
  fun number found => floatFree number (numbers_parts member found)

theorem FloatFree.plain (bounded : value.Bounded Number.InRange depth) :
    value.Bounded Number.Plain depth :=
  ⟨bounded.1, fun number found => ⟨floatFree number found, bounded.2 number found⟩⟩

end FloatFree

/-- As a value is held: objects in ascending order of their keys, and numbers that can be read. -/
def Settled (value : Json) : Prop :=
  value.normalize = value ∧ ∀ number ∈ value.numbers, number.InRange

namespace Reader

section Written

variable {layout : Layout} {level fuel : Nat} {text rest : List Char}
  (inner : Option (List Char → Reading (Json × List Char)))

theorem valueWith_number {value : Number} (plain : value.Plain)
    (written : skipBlanks text = value.chars ++ rest) (delimited : Delimited rest) :
    valueWith fuel inner text = .ok (.number value, rest) := by
  have read := number_chars plain delimited
  obtain ⟨first, tail, digits, head⟩ := number_head value
  have apart := of_number_head head
  rw [digits, List.cons_append] at read written
  have isNumber : (decide (first = '-') || isDigit first) = true := by simpa using head
  unfold valueWith
  rw [written]
  split
  case h_8 same =>
    cases same
    rw [if_pos isNumber, read]
    rfl
  all_goals simp_all

theorem valueWith_string {value : String}
    (written : skipBlanks text = stringChars value ++ rest) :
    valueWith fuel inner text = .ok (.string value, rest) := by
  obtain ⟨body, quoted, read⟩ := stringBody_stringChars value rest
  unfold valueWith
  rw [written, quoted]
  show (stringBody [] body >>= _) = _
  rw [read]
  rfl

variable {depth : Nat}

theorem value_array {parts : List Json}
    (inside : ∀ part ∈ parts, Reads layout (level + 1) (Reader.value fuel depth) part part)
    (room : parts.length < fuel) :
    Reads layout level (Reader.value fuel (depth + 1)) (.array parts) (.array parts) := by
  intro text rest written delimited
  let item := itemInto (Reader.value fuel depth) (· :: ·)
  have takes : ∀ part ∈ parts, ∀ before,
      Reads layout (level + 1) (item before) part (id part :: before) :=
    fun part member before => reads_itemInto (inside part member) _ before
  obtain ⟨body, opened, read⟩ := items_array level (Steps.collect takes []) room
  rw [opened] at written
  show valueWith fuel (some (Reader.value fuel depth)) text = _
  rw [valueWith, written]
  show (items item fuel true [] (body ++ rest) >>= _) = _
  rw [read rest, ok_bind, List.map_id, List.append_nil]
  dsimp only
  rw [List.reverse_reverse]
  rfl

theorem value_object {entries : List (String × Json)}
    (inside : ∀ entry ∈ entries,
      Reads layout (level + 1) (Reader.value fuel depth) entry.2 entry.2)
    (room : entries.length < fuel) :
    Reads layout level (Reader.value fuel (depth + 1)) (.object entries) (.object entries) := by
  intro text rest written delimited
  let member := memberInto (Reader.value fuel depth) fun key value before => (key, value) :: before
  have takes : ∀ entry ∈ entries, ∀ before,
      TakesMember layout (level + 1) member before entry (id entry :: before) :=
    fun entry listed before => takesMember_memberInto (inside entry listed) _ before
  obtain ⟨body, opened, read⟩ := members_object level (Steps.collect takes []) room
  rw [opened] at written
  show valueWith fuel (some (Reader.value fuel depth)) text = _
  rw [valueWith, written]
  show (members member fuel true [] (body ++ rest) >>= _) = _
  rw [read rest, ok_bind, List.map_id, List.append_nil]
  dsimp only
  rw [List.reverse_reverse]
  rfl

theorem value_chars {value : Json}
    (plain : value.Bounded Number.Plain depth) (room : (chars layout level value).length ≤ fuel) :
    Reads layout level (Reader.value fuel depth) value value := by
  induction value using induction_parts generalizing level depth with
  | step value ih =>
      obtain ⟨many, shorter⟩ := length_chars_parts layout level value
      have inside {depth : Nat} (plain : value.Bounded Number.Plain (depth + 1)) :
          ∀ part ∈ value.parts,
            Reads layout (level + 1) (Reader.value fuel depth) part part := fun part member =>
        ih part member (plain.part member) (Nat.le_trans (shorter part member) room)
      have room := Nat.lt_of_lt_of_le many room
      obtain ⟨inner, unfolds⟩ : ∃ inner, Reader.value fuel depth = valueWith fuel inner := by
        cases depth <;> exact ⟨_, rfl⟩
      cases value with
      | null =>
          intro text rest written delimited
          rw [unfolds, valueWith, written, chars]
          rfl
      | bool value =>
          intro text rest written delimited
          rw [unfolds, valueWith, written]
          cases value <;> · rw [chars]; rfl
      | number value =>
          intro text rest written delimited
          have plain := plain.2 value (by simp [numbers])
          rw [chars] at written
          rw [unfolds, valueWith_number inner plain written delimited]
      | string value =>
          intro text rest written delimited
          rw [chars] at written
          rw [unfolds, valueWith_string inner written]
      | array items =>
          cases depth with
          | zero => simp [Bounded, Json.depth] at plain
          | succ depth => exact value_array (inside plain) room
      | object members =>
          cases depth with
          | zero => simp [Bounded, Json.depth] at plain
          | succ depth =>
              refine value_object (fun entry listed => ?_) (by simpa [parts] using room)
              exact inside plain entry.2 (List.mem_map_of_mem listed)

end Written

section Rules

variable {σ : Type} {fuel : Nat} {first : Bool} {before after : σ}
  {text rest : List Char}

theorem items_rule (holds : σ → Prop) {item : σ → List Char → Reading (σ × List Char)}
    (keeps : ∀ {before text after rest}, holds before → item before text = .ok (after, rest) →
      holds after)
    (start : holds before) (read : items item fuel first before text = .ok (after, rest)) :
    holds after := by
  induction fuel generalizing first before text with
  | zero => cases read
  | succ fuel ih =>
      simp only [items, bind_eq_ok] at read
      obtain ⟨next, -, read⟩ := read
      cases next with
      | close text =>
          cases read
          exact start
      | more head text =>
          obtain ⟨⟨state, text⟩, taken, read⟩ := bind_eq_ok.mp read
          exact ih (keeps start taken) read

theorem members_rule (holds : σ → Prop) {member : σ → String → List Char → Reading (σ × List Char)}
    (keeps : ∀ {before key text after rest}, holds before →
      member before key text = .ok (after, rest) → holds after)
    (start : holds before) (read : members member fuel first before text = .ok (after, rest)) :
    holds after := by
  induction fuel generalizing first before text with
  | zero => cases read
  | succ fuel ih =>
      simp only [members, bind_eq_ok] at read
      obtain ⟨next, -, read⟩ := read
      cases next with
      | close text =>
          cases read
          exact start
      | more key text =>
          obtain ⟨⟨state, text⟩, taken, read⟩ := bind_eq_ok.mp read
          exact ih (keeps start taken) read

end Rules

theorem literal_eq {α : Type} {value result : α} {letters text rest : List Char}
    (read : literal value letters text = .ok (result, rest)) : result = value := by
  induction letters generalizing text with
  | nil =>
      cases read
      rfl
  | cons letter letters ih =>
      cases text with
      | nil => cases read
      | cons char text =>
          unfold literal at read
          split at read
          · exact ih read
          · cases read

section Bounds

variable {fuel depth : Nat} {read : List Char → Reading (Json × List Char)} {text rest : List Char}
  (bounded : ∀ text value rest, read text = .ok (value, rest) →
    value.Bounded Number.InRange depth)
include bounded

theorem items_bounded {values : List Json}
    (taken : items (itemInto read (· :: ·)) fuel true [] text = .ok (values, rest)) :
    ∀ value ∈ values, value.Bounded Number.InRange depth := by
  refine items_rule (fun before => ∀ value ∈ before, value.Bounded Number.InRange depth) ?_
    (by simp) taken
  intro before text after rest holds taken
  obtain ⟨⟨value, text⟩, found, result⟩ := bind_eq_ok.mp taken
  cases result
  exact List.forall_mem_cons.mpr ⟨bounded _ _ _ found, holds⟩

theorem members_bounded {entries : List (String × Json)}
    (taken : members (memberInto read fun key value before => (key, value) :: before) fuel true []
      text = .ok (entries, rest)) :
    ∀ entry ∈ entries, entry.2.Bounded Number.InRange depth := by
  refine members_rule (fun before => ∀ entry ∈ before, entry.2.Bounded Number.InRange depth) ?_
    (by simp) taken
  intro before key text after rest holds taken
  obtain ⟨⟨_, text⟩, -, taken⟩ := bind_eq_ok.mp taken
  obtain ⟨⟨value, text⟩, found, result⟩ := bind_eq_ok.mp taken
  cases result
  exact List.forall_mem_cons.mpr ⟨bounded _ _ _ found, holds⟩

end Bounds

theorem valueWith_bounded {fuel depth : Nat}
    {inner : Option (List Char → Reading (Json × List Char))}
    (inside : ∀ read ∈ inner, ∃ below, depth = below + 1 ∧
      ∀ text value rest, read text = .ok (value, rest) → value.Bounded Number.InRange below)
    {text rest : List Char} {value : Json}
    (read : valueWith fuel inner text = .ok (value, rest)) :
    value.Bounded Number.InRange depth := by
  have scalar (value : Json) (shallow : value.depth = 0) (none : value.numbers = []) :
      value.Bounded Number.InRange depth := ⟨by omega, by simp [none]⟩
  unfold valueWith at read
  split at read
  · cases read
  · rw [literal_eq read]
    exact scalar _ (by simp [Json.depth]) (by simp [numbers])
  · rw [literal_eq read]
    exact scalar _ (by simp [Json.depth]) (by simp [numbers])
  · rw [literal_eq read]
    exact scalar _ (by simp [Json.depth]) (by simp [numbers])
  · obtain ⟨⟨string, text⟩, -, result⟩ := bind_eq_ok.mp read
    cases result
    exact scalar _ (by simp [Json.depth]) (by simp [numbers])
  · cases inner with
    | none => cases read
    | some inner =>
        obtain ⟨below, rfl, reads⟩ := inside inner rfl
        obtain ⟨⟨reversed, text⟩, taken, result⟩ := bind_eq_ok.mp read
        cases result
        refine bounded_of_parts (by simp) fun part member => ?_
        exact items_bounded reads taken part (List.mem_reverse.mp member)
  · cases inner with
    | none => cases read
    | some inner =>
        obtain ⟨below, rfl, reads⟩ := inside inner rfl
        obtain ⟨⟨reversed, text⟩, taken, result⟩ := bind_eq_ok.mp read
        cases result
        refine bounded_of_parts (by simp) fun part member => ?_
        obtain ⟨entry, listed, rfl⟩ := List.mem_map.mp member
        exact members_bounded reads taken entry (List.mem_reverse.mp listed)
  · split at read
    · obtain ⟨⟨number, text⟩, taken, result⟩ := bind_eq_ok.mp read
      cases result
      refine ⟨by simp [Json.depth], fun found listed => ?_⟩
      rw [numbers, List.mem_singleton] at listed
      exact listed ▸ number_inRange taken
    · cases read

theorem value_bounded {fuel depth : Nat} {text rest : List Char} {value : Json}
    (read : Reader.value fuel depth text = .ok (value, rest)) :
    value.Bounded Number.InRange depth := by
  induction depth generalizing text value rest with
  | zero => exact valueWith_bounded (by simp) read
  | succ depth ih =>
      refine valueWith_bounded (fun next same => ⟨depth, rfl, fun text value rest read => ?_⟩) read
      cases same
      exact ih read

end Reader

open Reader

theorem whole_chars {α : Type} {read : (fuel depth : Nat) → List Char → Reading (α × List Char)}
    {layout : Layout} {value : Json} {result : α}
    (reads : Reads layout 0
      (read ((chars layout 0 value).length + 1) depthLimit) value result) :
    whole read (String.ofList (chars layout 0 value)) = .ok result := by
  have written : skipBlanks (chars layout 0 value) = chars layout 0 value ++ [] := by
    simpa using skipBlanks_chars layout 0 value []
  have taken := reads _ [] written (by simp [Delimited])
  simp only [whole, String.length_ofList, String.toList_ofList, taken, ok_bind]
  rfl

theorem whole_eq_ok_iff {α : Type}
    {read : (fuel depth : Nat) → List Char → Reading (α × List Char)} {text : String}
    {result : α} : whole read text = .ok result ↔
      ∃ rest, read (text.length + 1) depthLimit text.toList = .ok (result, rest) ∧
        skipBlanks rest = [] := by
  simp only [whole, bind_eq_ok, Prod.exists]
  constructor
  · rintro ⟨found, rest, read, finished⟩
    split at finished
    · next blank =>
        cases finished
        exact ⟨rest, read, blank⟩
    · cases finished
  · rintro ⟨rest, read, blank⟩
    refine ⟨result, rest, read, ?_⟩
    rw [blank]
    rfl

theorem ofText?_compact {value : Json} (plain : value.Bounded Number.Plain depthLimit) :
    Json.ofText? value.compact = .ok value :=
  whole_chars (value_chars plain (Nat.le_succ _))

theorem ofText?_bounded {text : String} {value : Json} (read : Json.ofText? text = .ok value) :
    value.Bounded Number.InRange depthLimit := by
  obtain ⟨rest, read, -⟩ := whole_eq_ok_iff.mp read
  exact value_bounded read

end VisualNovel.Json
