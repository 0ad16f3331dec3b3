import VisualNovel.Json.Printer
import VisualNovel.Json.Reader
import Mathlib.Algebra.Group.Int.Defs
import Mathlib.Algebra.Group.Nat.Defs

namespace VisualNovel

theorem ok_bind {ε α β : Type} (value : α) (next : α → Except ε β) :
    (Except.ok value >>= next) = next value := rfl

theorem bind_eq_ok {ε α β : Type} {first : Except ε α} {next : α → Except ε β} {result : β} :
    (first >>= next) = .ok result ↔ ∃ value, first = .ok value ∧ next value = .ok result := by
  cases first with
  | error fault => exact ⟨fun same => (nomatch same), fun ⟨_, same, _⟩ => (nomatch same)⟩
  | ok value =>
      show next value = .ok result ↔ _
      exact ⟨fun same => ⟨value, rfl, same⟩, fun ⟨_, same, goesOn⟩ => by cases same; exact goesOn⟩

theorem map_eq_ok {ε α β : Type} {first : Except ε α} {change : α → β} {result : β} :
    first.map change = .ok result ↔ ∃ value, first = .ok value ∧ change value = result := by
  cases first with
  | error fault => exact ⟨fun same => (nomatch same), fun ⟨_, same, _⟩ => (nomatch same)⟩
  | ok value =>
      show Except.ok (change value) = .ok result ↔ _
      simp

namespace Number

def InRange : Number → Prop
  | integer value => -2 ^ 63 ≤ value ∧ value < 2 ^ 64
  | float _ => True

def IsInteger : Number → Prop
  | integer _ => True
  | float _ => False

def Plain (number : Number) : Prop :=
  number.IsInteger ∧ number.InRange

theorem plain_natural {value : Nat} (fits : value < 2 ^ 64) : (integer value).Plain :=
  ⟨trivial, by omega, by omega⟩

end Number

namespace Json.Reader

theorem skipBlanks_cons {char : Char} (dark : isBlank char = false) (text : List Char) :
    skipBlanks (char :: text) = char :: text := by
  simp [skipBlanks, dark]

theorem skipBlanks_blank {char : Char} (blank : isBlank char = true) (text : List Char) :
    skipBlanks (char :: text) = skipBlanks text := by
  simp [skipBlanks, blank]

theorem skipBlanks_lineBreak (layout : Layout) (depth : Nat) (text : List Char) :
    skipBlanks (layout.lineBreak depth ++ text) = skipBlanks text := by
  cases layout with
  | compact => rfl
  | indented =>
      show List.dropWhile isBlank ('\n' :: (List.replicate (2 * depth) ' ' ++ text)) = _
      rw [List.dropWhile_cons_of_pos rfl, List.dropWhile_append_of_pos]
      · rfl
      · intro char member
        rw [List.eq_of_mem_replicate member]
        rfl

theorem hexValue?_hexDigit : ∀ value < 16, hexValue? (hexDigit value) = some value := by
  decide

theorem hexCode?_escape {value : Nat} (small : value < 32) :
    hexCode? '0' '0' (hexDigit (value / 16)) (hexDigit (value % 16)) = some value := by
  have high := hexValue?_hexDigit (value / 16) (by omega)
  have low := hexValue?_hexDigit (value % 16) (by omega)
  have zero : hexValue? '0' = some 0 := rfl
  simp only [hexCode?, zero, high, low, Option.pure_def, Option.bind_eq_bind, Option.bind_some]
  congr 1
  omega

theorem stringBody_escapeChar (before : List Char) (char : Char) (text : List Char) :
    stringBody before (escapeChar char ++ text) = stringBody (char :: before) text := by
  unfold escapeChar
  split
  · next same => simp [stringBody, simpleEscape?, same]
  split
  · next same => simp [stringBody, simpleEscape?, same]
  next backslash =>
  split
  · next same => simp [stringBody, simpleEscape?, same]
  split
  · next same => simp [stringBody, simpleEscape?, same]
  split
  · next same => simp [stringBody, simpleEscape?, same]
  split
  · next same => simp [stringBody, simpleEscape?, same]
  split
  · next same => simp [stringBody, simpleEscape?, same]
  split
  · next control =>
      have small : char.toNat < 32 := control
      have lone : isTrailingSurrogate char.toNat = false := by
        simp only [isTrailingSurrogate, Bool.and_eq_false_iff, decide_eq_false_iff_not]
        omega
      have leading : isLeadingSurrogate char.toNat = false := by
        simp only [isLeadingSurrogate, Bool.and_eq_false_iff, decide_eq_false_iff_not]
        omega
      simp [stringBody, hexCode?_escape small, lone, leading]
  · next plain => simp [stringBody, backslash, plain]

theorem stringBody_escaped (before chars text : List Char) :
    stringBody before (chars.flatMap escapeChar ++ '"' :: text) =
      .ok (String.ofList (before.reverse ++ chars), text) := by
  induction chars generalizing before with
  | nil => simp [stringBody]
  | cons char chars ih =>
      rw [List.flatMap_cons, List.append_assoc, stringBody_escapeChar, ih]
      simp

/-- What stands behind a number: nothing that the number could go on with. -/
def Delimited (text : List Char) : Prop :=
  ∀ char ∈ text.head?, isDigit char = false ∧ char ≠ '.' ∧ char ≠ 'e' ∧ char ≠ 'E'

theorem absorb_eq {limit : Nat} (digits : List Char) (value : Nat)
    (fits : Nat.ofDigitChars 10 digits value < limit) :
    absorb limit value digits = (Nat.ofDigitChars 10 digits value, []) := by
  have grows (digits : List Char) (value : Nat) : value ≤ Nat.ofDigitChars 10 digits value := by
    induction digits generalizing value with
    | nil => exact Nat.le_refl _
    | cons digit digits ih =>
        rw [Nat.ofDigitChars_cons]
        exact Nat.le_trans (by omega) (ih _)
  induction digits generalizing value with
  | nil => rfl
  | cons digit digits ih =>
      rw [Nat.ofDigitChars_cons] at fits ⊢
      have same : value * 10 + digitValue digit = 10 * value + (digit.toNat - '0'.toNat) := by
        rw [Nat.mul_comm]
        rfl
      have below := Nat.lt_of_le_of_lt (grows digits _) fits
      simp only [absorb, same, below, ↓reduceIte]
      exact ih _ fits

theorem absorb_lt {limit value : Nat} (below : value < limit) (digits : List Char) :
    (absorb limit value digits).1 < limit := by
  induction digits generalizing value with
  | nil => exact below
  | cons digit digits ih =>
      unfold absorb
      split
      · next more => exact ih more
      · exact below

theorem absorb_toDigits {value : Nat} (fits : value < 2 ^ 64) :
    absorb significandLimit 0 (Nat.toDigits 10 value) = (value, []) := by
  have same : Nat.ofDigitChars 10 (Nat.toDigits 10 value) 0 = value :=
    Nat.ofDigitChars_toDigits (by decide) (by decide)
  rw [absorb_eq _ _ (by rwa [same]), same]

theorem isDigit_toDigits (value : Nat) {char : Char} (member : char ∈ Nat.toDigits 10 value) :
    isDigit char = true :=
  Nat.isDigit_of_mem_toDigits (by decide) (by decide) member

theorem head?_toDigits (value : Nat) (positive : 0 < value) :
    (Nat.toDigits 10 value).head? ≠ some '0' := by
  induction value using Nat.strongRecOn with
  | ind value ih =>
      rw [Nat.toDigits_eq_if (by decide)]
      split
      · next small =>
          have digits : ∀ digit < 10, 0 < digit → [Nat.digitChar digit].head? ≠ some '0' := by
            decide
          exact digits value small positive
      · next large =>
          have ih := ih (value / 10) (by omega) (by omega)
          cases digits : Nat.toDigits 10 (value / 10) with
          | nil => exact absurd digits Nat.toDigits_ne_nil
          | cons first rest => rwa [digits] at ih

theorem takeWhile_digits {digits : List Char} (all : ∀ char ∈ digits, isDigit char = true)
    {text : List Char} (delimited : Delimited text) :
    (digits ++ text).takeWhile isDigit = digits ∧ (digits ++ text).dropWhile isDigit = text := by
  rw [List.takeWhile_append_of_pos all, List.dropWhile_append_of_pos all]
  cases text with
  | nil => simp
  | cons char text =>
      have stops := (delimited char rfl).1
      simp [stops]

theorem unsigned_toDigits (negative : Bool) {value : Nat} (fits : value < 2 ^ 64)
    {text : List Char} (delimited : Delimited text) :
    unsigned negative (Nat.toDigits 10 value ++ text) = integer negative value text := by
  obtain ⟨taken, left⟩ := takeWhile_digits (fun _ => isDigit_toDigits value) delimited
  have absorbed := absorb_toDigits fits
  have zero : (Nat.toDigits 10 value).head? = some '0' → value = 0 := fun head =>
    Nat.eq_zero_of_not_pos fun positive => head?_toDigits value positive head
  cases digits : Nat.toDigits 10 value with
  | nil => exact absurd digits Nat.toDigits_ne_nil
  | cons first rest =>
      have isFirst : isDigit first = true := isDigit_toDigits value (by simp [digits])
      have noMore : ¬(first = '0' ∧ (rest ++ text).head?.any isDigit = true) := by
        rintro ⟨rfl, more⟩
        have nothing : rest = [] := by
          have single := zero (by simp [digits])
          rw [single] at digits
          exact (List.cons.inj digits).2.symm
        rw [nothing, List.nil_append] at more
        cases text with
        | nil => cases more
        | cons char text => simp [(delimited char rfl).1] at more
      rw [digits, List.cons_append] at taken left
      rw [digits] at absorbed
      simp only [List.cons_append, unsigned, isFirst, Bool.not_true, Bool.false_eq_true, noMore,
        ↓reduceIte, taken, left, absorbed, List.isEmpty_nil]
      cases text with
      | nil => rfl
      | cons char text =>
          obtain ⟨-, point, small, big⟩ := delimited char rfl
          split <;> simp_all

theorem number_of_ne {char : Char} (unsignedNumber : char ≠ '-') (text : List Char) :
    number (char :: text) = unsigned false (char :: text) := by
  unfold number
  split
  · next same => exact absurd (List.cons.inj same).1 unsignedNumber
  · rfl

theorem number_chars {value : Number} (plain : value.Plain) {text : List Char}
    (delimited : Delimited text) : number (value.chars ++ text) = .ok (value, text) := by
  obtain ⟨whole, fits⟩ := plain
  cases value with
  | float value => exact absurd whole id
  | integer value =>
      obtain ⟨low, high⟩ := fits
      cases value with
      | ofNat value =>
          have head : ∀ first rest, Nat.toDigits 10 value = first :: rest → first ≠ '-' := by
            rintro first rest digits rfl
            have digit : isDigit '-' = true := isDigit_toDigits value (by simp [digits])
            cases digit
          have small : value < 2 ^ 64 := by
            simp only [Int.ofNat_eq_natCast] at high
            omega
          have read := unsigned_toDigits false small delimited
          show number (Nat.toDigits 10 value ++ text) = _
          cases digits : Nat.toDigits 10 value with
          | nil => exact absurd digits Nat.toDigits_ne_nil
          | cons first rest =>
              rw [digits] at read
              exact (number_of_ne (head first rest digits) _).trans read
      | negSucc value =>
          have small : value + 1 ≤ 2 ^ 63 := by omega
          show unsigned true (Nat.toDigits 10 (value + 1) ++ text) = _
          rw [unsigned_toDigits true (by omega) delimited]
          have range : 0 < value + 1 ∧ value + 1 ≤ Nat.pow 2 63 := ⟨Nat.succ_pos _, small⟩
          simp only [integer, Bool.not_true, Bool.false_eq_true, range, ↓reduceIte]
          rfl

theorem floatOfParts_inRange {negative : Bool} {significand : Nat} {exponent : Int}
    {text rest : List Char} {value : Number}
    (read : floatOfParts negative significand exponent text = .ok (value, rest)) :
    value.InRange := by
  unfold floatOfParts at read
  split at read
  · cases read; trivial
  · cases read

theorem exponentPart_inRange {negative : Bool} {significand : Nat} {start : Int}
    {text rest : List Char} {value : Number}
    (read : exponentPart negative significand start text = .ok (value, rest)) :
    value.InRange := by
  unfold exponentPart at read
  dsimp only at read
  split at read
  · cases read
  split at read
  · split at read
    · exact floatOfParts_inRange read
    split at read
    · cases read
    · cases read; trivial
  · cases read

theorem fractionPart_inRange {negative : Bool} {significand : Nat} {start : Int}
    {text rest : List Char} {value : Number}
    (read : fractionPart negative significand start text = .ok (value, rest)) :
    value.InRange := by
  unfold fractionPart at read
  dsimp only at read
  split at read
  · cases read
  unfold exponentOrEnd at read
  split at read
  · exact exponentPart_inRange read
  · exact exponentPart_inRange read
  · exact floatOfParts_inRange read

theorem integer_inRange {negative : Bool} {significand : Nat} (fits : significand < 2 ^ 64)
    {text rest : List Char} {value : Number}
    (read : integer negative significand text = .ok (value, rest)) : value.InRange := by
  unfold integer at read
  split at read
  · cases read
    exact ⟨by omega, by omega⟩
  split at read
  · next small =>
      cases read
      have bound : significand ≤ 2 ^ 63 := small.2
      exact ⟨by omega, by omega⟩
  · exact floatOfParts_inRange read

theorem unsigned_inRange {negative : Bool} {text rest : List Char} {value : Number}
    (read : unsigned negative text = .ok (value, rest)) : value.InRange := by
  unfold unsigned at read
  split at read
  · cases read
  split at read
  · cases read
  split at read
  · cases read
  dsimp only at read
  split at read
  · exact fractionPart_inRange read
  · exact exponentPart_inRange read
  · exact exponentPart_inRange read
  · split at read
    · exact integer_inRange (absorb_lt (by decide) _) read
    · exact floatOfParts_inRange read

theorem number_inRange {text rest : List Char} {value : Number}
    (read : number text = .ok (value, rest)) : value.InRange := by
  unfold number at read
  split at read <;> exact unsigned_inRange read

end Json.Reader

end VisualNovel
