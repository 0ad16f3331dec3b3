import VisualNovel.Proofs.Json.Records

namespace VisualNovel.Json

open Reader

/-! ## Words -/

section Words

variable {rest rest' : List Char}

theorem toDigits_append_inj {first second : Nat} (delimited : Delimited rest)
    (delimited' : Delimited rest')
    (same : Nat.toDigits 10 first ++ rest = Nat.toDigits 10 second ++ rest') :
    first = second ∧ rest = rest' := by
  obtain ⟨taken, left⟩ := takeWhile_digits (fun _ => isDigit_toDigits first) delimited
  obtain ⟨taken', left'⟩ := takeWhile_digits (fun _ => isDigit_toDigits second) delimited'
  rw [same] at taken left
  have digits : Nat.toDigits 10 first = Nat.toDigits 10 second := taken.symm.trans taken'
  refine ⟨?_, left.symm.trans left'⟩
  rw [← Nat.ofDigitChars_ten_toDigits (n := first), digits, Nat.ofDigitChars_ten_toDigits]

theorem toDigits_append_ne_minus (value : Nat) (rest text : List Char) :
    Nat.toDigits 10 value ++ rest ≠ '-' :: text := by
  intro same
  cases digits : Nat.toDigits 10 value with
  | nil => exact Nat.toDigits_ne_nil digits
  | cons first others =>
      rw [digits] at same
      obtain rfl : first = '-' := (List.cons.inj same).1
      have digit : isDigit '-' = true := isDigit_toDigits value (by simp [digits])
      cases digit

theorem integer_append_inj {first second : Int} (delimited : Delimited rest)
    (delimited' : Delimited rest')
    (same : (Number.integer first).chars ++ rest = (Number.integer second).chars ++ rest') :
    first = second ∧ rest = rest' := by
  cases first with
  | ofNat first =>
      cases second with
      | ofNat second =>
          obtain ⟨rfl, after⟩ := toDigits_append_inj delimited delimited' same
          exact ⟨rfl, after⟩
      | negSucc second => exact absurd same (toDigits_append_ne_minus first _ _)
  | negSucc first =>
      cases second with
      | ofNat second => exact absurd same.symm (toDigits_append_ne_minus second _ _)
      | negSucc second =>
          obtain ⟨value, after⟩ :=
            toDigits_append_inj delimited delimited' (List.cons.inj same).2
          exact ⟨congrArg Int.negSucc (Nat.succ.inj value), after⟩

/-- A float has a point or an exponent behind its first digits. -/
theorem spell_marked (spelling : Decimal.Spelling) (decimal : Decimal) :
    ∃ whole mark tail, decimal.spell spelling = whole ++ mark :: tail ∧
      (∀ char ∈ whole, isDigit char = true) ∧ (mark = '.' ∨ mark = 'e') := by
  have digit : ∀ char ∈ Nat.toDigits 10 decimal.digits, isDigit char = true :=
    fun _ => isDigit_toDigits decimal.digits
  unfold Decimal.spell
  dsimp only
  split
  · split
    · next first second others digits =>
        rw [digits] at digit
        refine ⟨[first], '.', _, rfl, ?_, .inl rfl⟩
        simpa using digit first List.mem_cons_self
    · exact ⟨_, 'e', _, List.append_assoc .., digit, .inr rfl⟩
  split
  · exact ⟨['0'], '.', _, rfl, by simp [isDigit], .inl rfl⟩
  split
  · refine ⟨_, '.', ['0'], rfl, fun char member => ?_, .inl rfl⟩
    rcases List.mem_append.mp member with member | member
    · exact digit char member
    · rw [List.eq_of_mem_replicate member]
      rfl
  · exact ⟨_, '.', _, rfl, fun char member => digit char (List.mem_of_mem_take member), .inl rfl⟩

theorem toDigits_append_ne_spell (value : Nat) (delimited : Delimited rest)
    (spelling : Decimal.Spelling) (decimal : Decimal) (text : List Char) :
    Nat.toDigits 10 value ++ rest ≠ decimal.spell spelling ++ text := by
  intro same
  obtain ⟨whole, mark, tail, spelled, digits, marks⟩ := spell_marked spelling decimal
  obtain ⟨-, left⟩ := takeWhile_digits (fun _ => isDigit_toDigits value) delimited
  have stops : isDigit mark = false := by rcases marks with rfl | rfl <;> rfl
  rw [same, spelled, List.append_assoc, List.dropWhile_append_of_pos digits, List.cons_append,
    List.dropWhile_cons_of_neg (by simp [stops])] at left
  obtain ⟨-, point, exponent, -⟩ := delimited mark (by simp [← left])
  exact marks.elim point exponent

theorem integer_append_ne_float (first : Int) (second : Binary64) (delimited : Delimited rest) :
    (Number.integer first).chars ++ rest ≠ (Number.float second).chars ++ rest' := by
  intro same
  change _ = second.chars ++ rest' at same
  rw [Binary64.chars] at same
  cases first with
  | ofNat first =>
      split at same
      · exact toDigits_append_ne_minus first _ _ same
      · exact toDigits_append_ne_spell first delimited _ _ _ same
  | negSucc first =>
      split at same
      · exact toDigits_append_ne_spell _ delimited _ _ _ (List.cons.inj same).2
      · obtain ⟨digit, tail, spelled, isDigit⟩ :=
          spell_head Binary64.spelling second.toDecimal
        rw [spelled] at same
        obtain rfl : '-' = digit := (List.cons.inj same).1
        cases isDigit

theorem number_append_inj {first second : Number} (whole : first.IsInteger)
    (delimited : Delimited rest) (delimited' : Delimited rest')
    (same : first.chars ++ rest = second.chars ++ rest') : first = second ∧ rest = rest' := by
  cases first with
  | float value => exact absurd whole id
  | integer first =>
      cases second with
      | float second => exact absurd same (integer_append_ne_float first second delimited)
      | integer second =>
          obtain ⟨rfl, after⟩ := integer_append_inj delimited delimited' same
          exact ⟨rfl, after⟩

theorem stringChars_append_inj {first second : String}
    (same : stringChars first ++ rest = stringChars second ++ rest') :
    first = second ∧ rest = rest' := by
  obtain ⟨body, written, read⟩ := stringBody_stringChars first rest
  obtain ⟨body', written', read'⟩ := stringBody_stringChars second rest'
  obtain rfl : body = body' := by
    rw [written, written'] at same
    exact (List.cons.inj same).2
  rw [read] at read'
  simpa using read'

end Words

/-! ## Values -/

def form : Json → Char
  | .null => 'n'
  | .bool _ => 't'
  | .number _ => '0'
  | .string _ => '"'
  | .array _ => '['
  | .object _ => '\x7b'

def formOf (first : Char) : Char :=
  if first = '-' ∨ isDigit first = true then '0' else if first = 'f' then 't' else first

theorem chars_form (layout : Layout) (level : Nat) (value : Json) :
    ∃ first rest, chars layout level value = first :: rest ∧ formOf first = value.form := by
  cases value with
  | null => exact ⟨'n', _, by rw [chars], rfl⟩
  | bool value => cases value <;> exact ⟨_, _, by rw [chars], rfl⟩
  | number value =>
      obtain ⟨first, rest, written, head⟩ := number_head value
      exact ⟨first, rest, by rw [chars, written], if_pos head⟩
  | string value => exact ⟨'"', _, by rw [chars]; rfl, rfl⟩
  | array items => cases items <;> exact ⟨'[', _, by simp only [chars]; rfl, rfl⟩
  | object members => cases members <;> exact ⟨'\x7b', _, by simp only [chars]; rfl, rfl⟩

theorem form_eq {layout : Layout} {level : Nat} {value other : Json} {rest rest' : List Char}
    (same : chars layout level value ++ rest = chars layout level other ++ rest') :
    value.form = other.form := by
  obtain ⟨first, tail, written, form⟩ := chars_form layout level value
  obtain ⟨first', tail', written', form'⟩ := chars_form layout level other
  rw [written, written'] at same
  obtain rfl : first = first' := (List.cons.inj same).1
  exact form.symm.trans form'

/-- No other value is written like this one, whatever follows. -/
def Told (value : Json) : Prop :=
  ∀ {level : Nat} {other : Json} {rest rest' : List Char}, Delimited rest → Delimited rest' →
    chars .compact level value ++ rest = chars .compact level other ++ rest' →
    value = other ∧ rest = rest'

section Told

variable {level : Nat} {rest rest' : List Char}

theorem itemsChars_inj {items others : List Json} (told : ∀ item ∈ items, item.Told)
    (same : itemsChars .compact level items ++ ']' :: rest =
      itemsChars .compact level others ++ ']' :: rest') : items = others ∧ rest = rest' := by
  induction items generalizing others with
  | nil =>
      cases others with
      | nil => exact ⟨rfl, (List.cons.inj same).2⟩
      | cons other others => simp [itemsChars] at same
  | cons item items ih =>
      cases others with
      | nil => simp [itemsChars] at same
      | cons other others =>
          simp only [itemsChars, Layout.lineBreak, List.nil_append, List.cons_append,
            List.append_assoc, List.cons.injEq, true_and] at same
          obtain ⟨rfl, later⟩ := told item List.mem_cons_self
            (delimited_itemsChars .compact level items 0 rest)
            (delimited_itemsChars .compact level others 0 rest') same
          obtain ⟨rfl, after⟩ :=
            ih (fun item listed => told item (List.mem_cons_of_mem _ listed)) later
          exact ⟨rfl, after⟩

theorem membersChars_inj {members others : List (String × Json)}
    (told : ∀ member ∈ members, member.2.Told)
    (same : membersChars .compact level members ++ '\x7d' :: rest =
      membersChars .compact level others ++ '\x7d' :: rest') :
    members = others ∧ rest = rest' := by
  induction members generalizing others with
  | nil =>
      cases others with
      | nil => exact ⟨rfl, (List.cons.inj same).2⟩
      | cons other others => simp [membersChars] at same
  | cons member members ih =>
      cases others with
      | nil => simp [membersChars] at same
      | cons other others =>
          obtain ⟨key, value⟩ := member
          obtain ⟨key', value'⟩ := other
          simp only [membersChars, Layout.lineBreak, Layout.colon, List.nil_append,
            List.cons_append, List.append_assoc, List.cons.injEq, true_and] at same
          obtain ⟨rfl, colon⟩ := stringChars_append_inj same
          obtain ⟨rfl, later⟩ := told _ List.mem_cons_self
            (delimited_membersChars .compact level members 0 rest)
            (delimited_membersChars .compact level others 0 rest') (List.cons.inj colon).2
          obtain ⟨rfl, after⟩ :=
            ih (fun member listed => told member (List.mem_cons_of_mem _ listed)) later
          exact ⟨rfl, after⟩

theorem chars_append_ne (layout : Layout) (level : Nat) (value : Json) {text rest : List Char} :
    chars layout level value ++ text ≠ ']' :: rest := by
  obtain ⟨first, tail, written, -, open', -⟩ := chars_head layout level value
  rw [written]
  exact fun same => open' (List.cons.inj same).1

theorem array_append (item : Json) (items : List Json) :
    chars .compact level (.array (item :: items)) ++ rest =
      '[' :: (chars .compact (level + 1) item ++
        (itemsChars .compact (level + 1) items ++ ']' :: rest)) := by
  simp [chars, Layout.lineBreak]

theorem object_append (key : String) (value : Json) (members : List (String × Json)) :
    chars .compact level (.object ((key, value) :: members)) ++ rest =
      '\x7b' :: (stringChars key ++ ':' :: (chars .compact (level + 1) value ++
        (membersChars .compact (level + 1) members ++ '\x7d' :: rest))) := by
  simp [chars, Layout.lineBreak, Layout.colon]

theorem array_inj {items others : List Json} (told : ∀ item ∈ items, item.Told)
    (same : chars .compact level (.array items) ++ rest =
      chars .compact level (.array others) ++ rest') : items = others ∧ rest = rest' := by
  cases items with
  | nil =>
      cases others with
      | nil => simpa [chars] using same
      | cons other others =>
          rw [array_append] at same
          simp only [chars, List.cons_append, List.nil_append, List.cons.injEq, true_and] at same
          exact absurd same.symm (chars_append_ne _ _ _)
  | cons item items =>
      cases others with
      | nil =>
          rw [array_append] at same
          simp only [chars, List.cons_append, List.nil_append, List.cons.injEq, true_and] at same
          exact absurd same (chars_append_ne _ _ _)
      | cons other others =>
          rw [array_append, array_append] at same
          -- The same items with a comma before the first one, too.
          have listed : itemsChars .compact (level + 1) (item :: items) ++ ']' :: rest =
              itemsChars .compact (level + 1) (other :: others) ++ ']' :: rest' := by
            simpa [itemsChars, Layout.lineBreak] using same
          exact itemsChars_inj told listed

theorem object_inj {members others : List (String × Json)}
    (told : ∀ member ∈ members, member.2.Told)
    (same : chars .compact level (.object members) ++ rest =
      chars .compact level (.object others) ++ rest') : members = others ∧ rest = rest' := by
  cases members with
  | nil =>
      cases others with
      | nil => simpa [chars] using same
      | cons other others =>
          rw [object_append] at same
          simp [chars, stringChars] at same
  | cons member members =>
      cases others with
      | nil =>
          rw [object_append] at same
          simp [chars, stringChars] at same
      | cons other others =>
          rw [object_append, object_append] at same
          have listed : membersChars .compact (level + 1) (member :: members) ++ '\x7d' :: rest =
              membersChars .compact (level + 1) (other :: others) ++ '\x7d' :: rest' := by
            simpa [membersChars, Layout.lineBreak, Layout.colon] using same
          exact membersChars_inj told listed

end Told

theorem FloatFree.told {value : Json} (floatFree : value.FloatFree) : value.Told := by
  induction value using induction_parts with
  | step value ih =>
      intro level other rest rest' delimited delimited' same
      have told : ∀ part ∈ value.parts, part.Told := fun part inside =>
        ih part inside (floatFree.part inside)
      have form := form_eq same
      cases value with
      | null =>
          cases other with
          | null => simpa [chars] using same
          | _ => cases form
      | bool value =>
          cases other with
          | bool other => cases value <;> cases other <;> simp_all [chars]
          | _ => cases form
      | number value =>
          cases other with
          | number other =>
              simp only [chars] at same
              have whole := floatFree value (by simp [numbers])
              obtain ⟨rfl, after⟩ := number_append_inj whole delimited delimited' same
              exact ⟨rfl, after⟩
          | _ => cases form
      | string value =>
          cases other with
          | string other =>
              simp only [chars] at same
              obtain ⟨rfl, after⟩ := stringChars_append_inj same
              exact ⟨rfl, after⟩
          | _ => cases form
      | array items =>
          cases other with
          | array others =>
              obtain ⟨rfl, after⟩ := array_inj told same
              exact ⟨rfl, after⟩
          | _ => cases form
      | object members =>
          cases other with
          | object others =>
              obtain ⟨rfl, after⟩ := object_inj
                (fun member listed => told member.2 (List.mem_map_of_mem listed)) same
              exact ⟨rfl, after⟩
          | _ => cases form

theorem compact_inj {value other : Json} (floatFree : value.FloatFree)
    (same : value.compact = other.compact) : value = other := by
  have nothing : Delimited [] := by simp [Delimited]
  exact (floatFree.told nothing nothing (by rw [String.ofList_injective same])).1

/-! ## Formats -/

namespace Format

variable {α : Type}

theorem text_injective : Function.Injective text.write := fun _ _ => Json.string.inj

theorem boolean_injective : Function.Injective boolean.write := fun _ _ => Json.bool.inj

theorem millis_injective : Function.Injective millis.write := by
  intro first second same
  have same : Int.ofNat first.toNat = Int.ofNat second.toNat :=
    Number.integer.inj (Json.number.inj same)
  exact UInt64.toNat_inj.mp (Int.ofNat.inj same)

theorem any_injective : Function.Injective any.write := fun _ _ same => same

theorem names_injective {entries : List (String × α)} {name : α → String}
    (apart : Function.Injective name) : Function.Injective (names entries name).write :=
  fun _ _ same => apart (Json.string.inj same)

theorem list_injective {format : Format α} (apart : Function.Injective format.write) :
    Function.Injective (list format).write :=
  fun _ _ same => (List.map_inj_right fun _ _ => @apart _ _).mp (Json.array.inj same)

theorem record_injective {γ σ : Type} {kind : String} {fields : Fields γ σ} {pack : γ → α}
    {unpack : α → γ} (apart : Function.Injective fields.write)
    (packed : ∀ value, pack (unpack value) = value) :
    Function.Injective (record kind fields pack unpack).write :=
  fun first second same => by
    have values := apart (Json.object.inj same)
    rw [← packed first, values, packed second]

end Format

namespace Fields

variable {α β τ : Type} {name : String} {format : Format α} {rest : Fields β τ}

theorem done_injective : Function.Injective done.write := fun _ _ _ => rfl

theorem need_injective (first : Function.Injective format.write)
    (others : Function.Injective rest.write) :
    Function.Injective (need name format rest).write := by
  rintro ⟨value, values⟩ ⟨value', values'⟩ same
  obtain ⟨member, later⟩ := List.cons.inj same
  rw [first (Prod.mk.inj member).2, others later]

theorem optional_injective (absent : name ∉ rest.names) (first : Function.Injective format.write)
    (others : Function.Injective rest.write) :
    Function.Injective (optional name format rest).write := by
  -- No later field has the name, so a value that is left out is told from one that is there.
  have missing {value : Json} {values values' : β} :
      rest.write values ≠ (name, value) :: rest.write values' := fun same =>
    absent ((rest.write_keys values).subset (by simp [same]))
  rintro ⟨value, values⟩ ⟨value', values'⟩ same
  cases value with
  | none =>
      cases value' with
      | none => rw [others same]
      | some value' => exact absurd same missing
  | some value =>
      cases value' with
      | none => exact absurd same.symm missing
      | some value' =>
          obtain ⟨member, later⟩ := List.cons.inj same
          rw [first (Prod.mk.inj member).2, others later]

end Fields

end VisualNovel.Json
