import VisualNovel.Proofs.Json.Parts
import VisualNovel.Proofs.Json.Words

namespace VisualNovel.Json.Reader

/-! ## How a value begins -/

theorem spell_head (spelling : Decimal.Spelling) (decimal : Decimal) :
    ∃ first rest, decimal.spell spelling = first :: rest ∧ isDigit first = true := by
  cases written : Nat.toDigits 10 decimal.digits with
  | nil => exact absurd written Nat.toDigits_ne_nil
  | cons first rest =>
      have digit : isDigit first = true := isDigit_toDigits decimal.digits (by simp [written])
      unfold Decimal.spell
      simp only [written]
      split
      · cases rest with
        | nil => exact ⟨first, _, rfl, digit⟩
        | cons second rest => exact ⟨first, _, rfl, digit⟩
      split
      · exact ⟨'0', _, rfl, rfl⟩
      split
      · exact ⟨first, _, rfl, digit⟩
      · exact ⟨first, _, by rw [List.take_succ_cons, List.cons_append], digit⟩

theorem number_head (value : Number) :
    ∃ first rest, value.chars = first :: rest ∧ (first = '-' ∨ isDigit first = true) := by
  have digits (value : Nat) :
      ∃ first rest, Nat.toDigits 10 value = first :: rest ∧ isDigit first = true := by
    cases written : Nat.toDigits 10 value with
    | nil => exact absurd written Nat.toDigits_ne_nil
    | cons first rest =>
        exact ⟨first, rest, rfl, isDigit_toDigits value (by simp [written])⟩
  cases value with
  | integer value =>
      cases value with
      | ofNat value =>
          obtain ⟨first, rest, written, digit⟩ := digits value
          exact ⟨first, rest, written, .inr digit⟩
      | negSucc value => exact ⟨'-', _, rfl, .inl rfl⟩
  | float value =>
      obtain ⟨first, rest, written, digit⟩ := spell_head Binary64.spelling value.toDecimal
      simp only [Number.chars, Binary64.chars]
      split
      · exact ⟨'-', _, rfl, .inl rfl⟩
      · exact ⟨first, rest, written, .inr digit⟩

theorem of_number_head {char : Char} (head : char = '-' ∨ isDigit char = true) :
    isBlank char = false ∧ char ≠ ']' ∧ char ≠ 'n' ∧ char ≠ 't' ∧ char ≠ 'f' ∧ char ≠ '"' ∧
      char ≠ '[' ∧ char ≠ '\x7b' := by
  rcases head with rfl | digit
  · decide
  · have no (other : Char) (letter : isDigit other = false) : char ≠ other := by
      rintro rfl
      rw [letter] at digit
      cases digit
    refine ⟨?_, no _ rfl, no _ rfl, no _ rfl, no _ rfl, no _ rfl, no _ rfl, no _ rfl⟩
    simp [isBlank, no ' ' rfl, no '\n' rfl, no '\t' rfl, no '\r' rfl]

theorem chars_head (layout : Layout) (level : Nat) (value : Json) :
    ∃ first rest, chars layout level value = first :: rest ∧
      isBlank first = false ∧ first ≠ ']' ∧ (first = 'n' → value = .null) := by
  cases value with
  | null => exact ⟨'n', _, by rw [chars], rfl, by decide, fun _ => rfl⟩
  | bool value =>
      cases value with
      | true => exact ⟨'t', _, by rw [chars], rfl, by decide, by simp⟩
      | false => exact ⟨'f', _, by rw [chars], rfl, by decide, by simp⟩
  | number value =>
      obtain ⟨first, rest, written, head⟩ := number_head value
      obtain ⟨dark, open', letter, -⟩ := of_number_head head
      exact ⟨first, rest, by rw [chars, written], dark, open', fun same => absurd same letter⟩
  | string value => exact ⟨'"', _, by rw [chars]; rfl, rfl, by decide, by simp⟩
  | array items =>
      cases items with
      | nil => exact ⟨'[', _, by rw [chars], rfl, by decide, by simp⟩
      | cons item items => exact ⟨'[', _, by rw [chars]; rfl, rfl, by decide, by simp⟩
  | object members =>
      cases members with
      | nil => exact ⟨'\x7b', _, by rw [chars], rfl, by decide, by simp⟩
      | cons member members =>
          obtain ⟨key, value⟩ := member
          exact ⟨'\x7b', _, by rw [chars]; rfl, rfl, by decide, by simp⟩

theorem skipBlanks_chars (layout : Layout) (level : Nat) (value : Json) (text : List Char) :
    skipBlanks (chars layout level value ++ text) = chars layout level value ++ text := by
  obtain ⟨first, rest, written, dark, -⟩ := chars_head layout level value
  rw [written, List.cons_append, skipBlanks_cons dark]

/-! ## Item by item -/

inductive Steps {σ ι : Type} (step : σ → ι → σ → Prop) : σ → List ι → σ → Prop
  | nil (state : σ) : Steps step state [] state
  | cons {first second third : σ} {item : ι} {items : List ι} : step first item second →
      Steps step second items third → Steps step first (item :: items) third

theorem Steps.collect {ι α : Type} {step : List α → ι → List α → Prop} {result : ι → α}
    {items : List ι} (takes : ∀ item ∈ items, ∀ before, step before item (result item :: before))
    (before : List α) : Steps step before items ((items.map result).reverse ++ before) := by
  induction items generalizing before with
  | nil => exact .nil _
  | cons item items ih =>
      rw [List.map_cons, List.reverse_cons, List.append_assoc]
      exact .cons (takes item List.mem_cons_self before)
        (ih (fun item listed => takes item (List.mem_cons_of_mem _ listed)) _)

section Loops

variable {σ : Type} (layout : Layout) (level : Nat)

def Reads {α : Type} (read : List Char → Reading (α × List Char)) (value : Json) (result : α) :
    Prop :=
  ∀ text rest, skipBlanks text = chars layout level value ++ rest → Delimited rest →
    read text = .ok (result, rest)

def TakesMember (member : σ → String → List Char → Reading (σ × List Char)) (before : σ)
    (entry : String × Json) (after : σ) : Prop :=
  ∀ rest, Delimited rest →
    member before entry.1 (layout.colon ++ chars layout level entry.2 ++ rest) = .ok (after, rest)

theorem delimited_of_head {char : Char} (stops : isDigit char = false ∧ char ≠ '.' ∧ char ≠ 'e' ∧
    char ≠ 'E') (text : List Char) : Delimited (char :: text) := by
  intro first head
  cases head
  exact stops

theorem delimited_lineBreak {char : Char} (stops : isDigit char = false ∧ char ≠ '.' ∧
    char ≠ 'e' ∧ char ≠ 'E') (text : List Char) :
    Delimited (layout.lineBreak level ++ char :: text) := by
  cases layout with
  | compact => exact delimited_of_head stops text
  | indented => exact delimited_of_head (by decide) _

variable {layout level} {item : σ → List Char → Reading (σ × List Char)}
  {member : σ → String → List Char → Reading (σ × List Char)} {before after : σ}

theorem items_close {fuel : Nat} {first : Bool} {text rest : List Char}
    (next : nextItem first text = .ok (.close rest)) :
    items item (fuel + 1) first before text = .ok (before, rest) := by
  simp only [items, next, ok_bind]
  rfl

theorem items_more {fuel : Nat} {first : Bool} {text text' rest : List Char}
    (next : nextItem first text = .ok (.more () text'))
    (taken : item before text' = .ok (after, rest)) :
    items item (fuel + 1) first before text = items item fuel false after rest := by
  simp only [items, next, taken, ok_bind]

theorem nextItem_close (layout : Layout) (level : Nat) (first : Bool) (rest : List Char) :
    nextItem first (layout.lineBreak level ++ ']' :: rest) = .ok (.close rest) := by
  simp only [nextItem, skipBlanks_lineBreak]
  rfl

theorem nextItem_first (value : Json) (rest : List Char) :
    nextItem true (layout.lineBreak level ++ (chars layout level value ++ rest)) =
      .ok (.more () (chars layout level value ++ rest)) := by
  obtain ⟨head, tail, written, dark, inside, -⟩ := chars_head layout level value
  simp only [nextItem, skipBlanks_lineBreak, skipBlanks_chars]
  rw [written, List.cons_append]
  split <;> simp_all

theorem nextItem_comma (text : List Char) :
    nextItem false (',' :: text) =
      match skipBlanks text with
      | [] => .error ⟨.endInValue, [], 0⟩
      | ']' :: text => .error ⟨.trailingComma, ']' :: text, 1⟩
      | text => .ok (.more () text) := rfl

theorem nextItem_later (value : Json) (rest : List Char) :
    nextItem false (',' :: (layout.lineBreak level ++ (chars layout level value ++ rest))) =
      .ok (.more () (chars layout level value ++ rest)) := by
  obtain ⟨head, tail, written, dark, inside, -⟩ := chars_head layout level value
  rw [nextItem_comma, skipBlanks_lineBreak, skipBlanks_chars, written, List.cons_append]
  split <;> simp_all

theorem delimited_itemsChars (layout : Layout) (level : Nat) (values : List Json) (outer : Nat)
    (rest : List Char) :
    Delimited (itemsChars layout level values ++ (layout.lineBreak outer ++ ']' :: rest)) := by
  cases values with
  | nil => exact delimited_lineBreak layout outer (by decide) rest
  | cons value values => exact delimited_of_head (by decide) _

theorem items_itemsChars {values : List Json}
    (steps : Steps (fun before => Reads layout level (item before)) before values after)
    {fuel : Nat}
    (room : values.length < fuel) (outer : Nat) (rest : List Char) :
    items item fuel false before
      (itemsChars layout level values ++ (layout.lineBreak outer ++ ']' :: rest)) =
      .ok (after, rest) := by
  obtain ⟨fuel, rfl⟩ := Nat.exists_eq_succ_of_ne_zero (Nat.ne_zero_of_lt room)
  induction steps generalizing fuel with
  | nil state => exact items_close (nextItem_close layout outer false rest)
  | @cons first second third value values takes steps ih =>
      have delimited := delimited_itemsChars layout level values outer rest
      have taken := takes _ _ (skipBlanks_chars layout level value _) delimited
      obtain ⟨fuel, rfl⟩ := Nat.exists_eq_succ_of_ne_zero
        (Nat.ne_zero_of_lt (Nat.lt_of_succ_lt_succ room))
      rw [itemsChars]
      simp only [List.cons_append, List.append_assoc]
      rw [items_more (nextItem_later value _) taken]
      exact ih fuel (Nat.lt_of_succ_lt_succ room)

theorem items_array (level : Nat) {values : List Json}
    (steps : Steps (fun before => Reads layout (level + 1) (item before)) before values after)
    {fuel : Nat}
    (room : values.length < fuel) :
    ∃ body, chars layout level (.array values) = '[' :: body ∧ ∀ rest,
      items item fuel true before (body ++ rest) = .ok (after, rest) := by
  obtain ⟨fuel, rfl⟩ := Nat.exists_eq_succ_of_ne_zero (Nat.ne_zero_of_lt room)
  cases steps with
  | nil state =>
      refine ⟨[']'], by rw [chars], fun rest => items_close ?_⟩
      exact nextItem_close .compact 0 true rest
  | @cons first second third value values takes steps =>
      refine ⟨layout.lineBreak (level + 1) ++ (chars layout (level + 1) value ++
        (itemsChars layout (level + 1) values ++ (layout.lineBreak level ++ [']']))), ?_,
        fun rest => ?_⟩
      · simp only [chars, List.cons_append, List.append_assoc]
      have delimited := delimited_itemsChars layout (level + 1) values level rest
      have taken := takes _ _ (skipBlanks_chars layout (level + 1) value _) delimited
      simp only [List.append_assoc, List.cons_append, List.nil_append]
      rw [items_more (nextItem_first value _) taken]
      exact items_itemsChars steps (Nat.lt_of_succ_lt_succ room) level rest

/-! ## Member by member -/

theorem members_close {fuel : Nat} {first : Bool} {text rest : List Char}
    (next : nextKey first text = .ok (.close rest)) :
    members member (fuel + 1) first before text = .ok (before, rest) := by
  simp only [members, next, ok_bind]
  rfl

theorem members_more {fuel : Nat} {first : Bool} {text text' rest : List Char} {key : String}
    (next : nextKey first text = .ok (.more key text'))
    (taken : member before key text' = .ok (after, rest)) :
    members member (fuel + 1) first before text = members member fuel false after rest := by
  simp only [members, next, taken, ok_bind]

theorem nextKey_close (layout : Layout) (level : Nat) (first : Bool) (rest : List Char) :
    nextKey first (layout.lineBreak level ++ '\x7d' :: rest) = .ok (.close rest) := by
  simp only [nextKey, skipBlanks_lineBreak]
  rfl

theorem stringBody_stringChars (text : String) (rest : List Char) :
    ∃ body, stringChars text ++ rest = '"' :: body ∧ stringBody [] body = .ok (text, rest) := by
  refine ⟨text.toList.flatMap escapeChar ++ '"' :: rest, ?_, ?_⟩
  · simp only [stringChars, List.cons_append, List.append_assoc, List.nil_append]
  · rw [stringBody_escaped]
    simp

theorem nextKey_first (key : String) (rest : List Char) :
    nextKey true (layout.lineBreak level ++ (stringChars key ++ rest)) =
      .ok (.more key rest) := by
  obtain ⟨body, written, read⟩ := stringBody_stringChars key rest
  have quotation : nextKey true (layout.lineBreak level ++ '"' :: body) = Reader.key body := by
    simp only [nextKey, skipBlanks_lineBreak]
    rfl
  rw [written, quotation, Reader.key, read]
  rfl

theorem nextKey_comma (text : List Char) :
    nextKey false (',' :: text) =
      match skipBlanks text with
      | [] => .error ⟨.endInValue, [], 0⟩
      | '"' :: text => Reader.key text
      | '\x7d' :: text => .error ⟨.trailingComma, '\x7d' :: text, 1⟩
      | text => .error ⟨.keyNotString, text, 1⟩ := rfl

theorem nextKey_later (key : String) (rest : List Char) :
    nextKey false (',' :: (layout.lineBreak level ++ (stringChars key ++ rest))) =
      .ok (.more key rest) := by
  obtain ⟨body, written, read⟩ := stringBody_stringChars key rest
  rw [nextKey_comma, skipBlanks_lineBreak, written, skipBlanks_cons rfl]
  show Reader.key body = _
  rw [Reader.key, read]
  rfl

theorem delimited_membersChars (layout : Layout) (level : Nat) (entries : List (String × Json))
    (outer : Nat) (rest : List Char) :
    Delimited (membersChars layout level entries ++
      (layout.lineBreak outer ++ '\x7d' :: rest)) := by
  cases entries with
  | nil => exact delimited_lineBreak layout outer (by decide) rest
  | cons entry entries => exact delimited_of_head (by decide) _

theorem members_membersChars {entries : List (String × Json)}
    (steps : Steps (TakesMember layout level member) before entries after) {fuel : Nat}
    (room : entries.length < fuel) (outer : Nat) (rest : List Char) :
    members member fuel false before
      (membersChars layout level entries ++ (layout.lineBreak outer ++ '\x7d' :: rest)) =
      .ok (after, rest) := by
  obtain ⟨fuel, rfl⟩ := Nat.exists_eq_succ_of_ne_zero (Nat.ne_zero_of_lt room)
  induction steps generalizing fuel with
  | nil state => exact members_close (nextKey_close layout outer false rest)
  | @cons first second third entry entries takes steps ih =>
      obtain ⟨key, value⟩ := entry
      have delimited := delimited_membersChars layout level entries outer rest
      have taken := takes _ delimited
      obtain ⟨fuel, rfl⟩ := Nat.exists_eq_succ_of_ne_zero
        (Nat.ne_zero_of_lt (Nat.lt_of_succ_lt_succ room))
      rw [membersChars]
      simp only [List.cons_append, List.append_assoc] at taken ⊢
      rw [members_more (nextKey_later key _) taken]
      exact ih fuel (Nat.lt_of_succ_lt_succ room)

theorem members_object (level : Nat) {entries : List (String × Json)}
    (steps : Steps (TakesMember layout (level + 1) member) before entries after) {fuel : Nat}
    (room : entries.length < fuel) :
    ∃ body, chars layout level (.object entries) = '\x7b' :: body ∧ ∀ rest,
      members member fuel true before (body ++ rest) = .ok (after, rest) := by
  obtain ⟨fuel, rfl⟩ := Nat.exists_eq_succ_of_ne_zero (Nat.ne_zero_of_lt room)
  cases steps with
  | nil state =>
      refine ⟨['\x7d'], by rw [chars], fun rest => members_close ?_⟩
      exact nextKey_close .compact 0 true rest
  | @cons first second third entry entries takes steps =>
      obtain ⟨key, value⟩ := entry
      refine ⟨layout.lineBreak (level + 1) ++ (stringChars key ++ (layout.colon ++
        (chars layout (level + 1) value ++ (membersChars layout (level + 1) entries ++
          (layout.lineBreak level ++ ['\x7d']))))), ?_, fun rest => ?_⟩
      · simp only [chars, List.cons_append, List.append_assoc]
      have delimited :=
        delimited_membersChars layout (level + 1) entries level rest
      have taken := takes _ delimited
      simp only [List.append_assoc, List.cons_append, List.nil_append] at taken ⊢
      rw [members_more (nextKey_first key _) taken]
      exact members_membersChars steps (Nat.lt_of_succ_lt_succ room) level rest

theorem colon_layout (layout : Layout) (text : List Char) :
    ∃ rest, Reader.colon (layout.colon ++ text) = .ok ((), rest) ∧
      skipBlanks rest = skipBlanks text := by
  cases layout with
  | compact => exact ⟨text, rfl, rfl⟩
  | indented => exact ⟨' ' :: text, rfl, skipBlanks_blank rfl text⟩

/-! ## Into what the earlier ones gave -/

section Parts

variable {α : Type} {read : List Char → Reading (α × List Char)} {result : α}

def itemInto (read : List Char → Reading (α × List Char)) (put : α → σ → σ) (before : σ)
    (text : List Char) : Reading (σ × List Char) := do
  let (value, text) ← read text
  return (put value before, text)

def memberInto (read : List Char → Reading (α × List Char)) (put : String → α → σ → σ)
    (before : σ) (key : String) (text : List Char) : Reading (σ × List Char) := do
  let ((), text) ← colon text
  let (value, text) ← read text
  return (put key value before, text)

theorem reads_itemInto {value : Json} (reads : Reads layout level read value result)
    (put : α → σ → σ) (before : σ) :
    Reads layout level (itemInto read put before) value (put result before) := by
  intro text rest written delimited
  simp only [itemInto, reads text rest written delimited, ok_bind]
  rfl

theorem takesMember_of_reads {entry : String × Json}
    (reads : Reads layout level read entry.2 result)
    (takes : ∀ text text' rest, colon text = .ok ((), text') → read text' = .ok (result, rest) →
      member before entry.1 text = .ok (after, rest)) :
    TakesMember layout level member before entry after := by
  intro rest delimited
  obtain ⟨text, colon, same⟩ := colon_layout layout (chars layout level entry.2 ++ rest)
  rw [List.append_assoc]
  exact takes _ text rest colon
    (reads text rest (same.trans (skipBlanks_chars layout level entry.2 rest)) delimited)

theorem takesMember_memberInto {entry : String × Json}
    (reads : Reads layout level read entry.2 result) (put : String → α → σ → σ) (before : σ) :
    TakesMember layout level (memberInto read put) before entry (put entry.1 result before) := by
  refine takesMember_of_reads reads fun text text' rest colon read => ?_
  simp only [memberInto, colon, read, ok_bind]
  rfl

end Parts

end Loops

/-! ## How long a text is -/

theorem length_itemsChars (layout : Layout) (level : Nat) (items : List Json) :
    items.length ≤ (itemsChars layout level items).length ∧ ∀ item ∈ items,
      (chars layout level item).length ≤ (itemsChars layout level items).length := by
  induction items with
  | nil => simp
  | cons item items ih =>
      simp only [itemsChars, List.length_append, List.length_cons, List.mem_cons]
      refine ⟨by omega, ?_⟩
      rintro other (rfl | listed)
      · omega
      · have shorter := ih.2 other listed
        omega

theorem length_membersChars (layout : Layout) (level : Nat) (members : List (String × Json)) :
    members.length ≤ (membersChars layout level members).length ∧ ∀ member ∈ members,
      (chars layout level member.2).length ≤ (membersChars layout level members).length := by
  induction members with
  | nil => simp
  | cons member members ih =>
      obtain ⟨key, value⟩ := member
      simp only [membersChars, List.length_append, List.length_cons, List.mem_cons]
      refine ⟨by omega, ?_⟩
      rintro other (rfl | listed)
      · simp only
        omega
      · have shorter := ih.2 other listed
        omega

theorem length_chars_parts (layout : Layout) (level : Nat) (value : Json) :
    value.parts.length < (chars layout level value).length ∧ ∀ part ∈ value.parts,
      (chars layout (level + 1) part).length ≤ (chars layout level value).length := by
  cases value with
  | array items =>
      cases items with
      | nil => simp [chars, parts]
      | cons item items =>
          have ih := length_itemsChars layout (level + 1) items
          simp only [parts, chars, List.length_append, List.length_cons, List.mem_cons]
          refine ⟨by omega, ?_⟩
          rintro other (rfl | listed)
          · omega
          · have shorter := ih.2 other listed
            omega
  | object members =>
      cases members with
      | nil => simp [chars, parts]
      | cons member members =>
          obtain ⟨key, value⟩ := member
          have ih := length_membersChars layout (level + 1) members
          simp only [parts, chars, List.length_append, List.length_cons, List.map_cons,
            List.length_map, List.mem_cons, List.mem_map]
          refine ⟨by omega, ?_⟩
          rintro other (rfl | ⟨entry, listed, rfl⟩)
          · omega
          · have shorter := ih.2 entry listed
            omega
  | _ =>
      obtain ⟨first, rest, written, -⟩ := chars_head layout level _
      rw [written]
      simp [parts]

end VisualNovel.Json.Reader
