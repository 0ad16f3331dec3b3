/-!
The shortest decimal that reads back as a given binary number. A finite binary number is
`mantissa * 2 ^ power`; every real nearer to it than to its neighbours reads back as it. For one,
two, up to seventeen digits, the two decimals around the number are tried, and the first digit
count at which one of them reads back wins; of two the nearer, and of two equally near the even.
-/

namespace VisualNovel

structure Decimal where
  digits : Nat
  exponent : Int
  deriving DecidableEq

namespace Decimal

def dropZeros : Nat → Decimal → Decimal
  | 0, decimal => decimal
  | fuel + 1, ⟨digits, exponent⟩ =>
      if digits ≠ 0 ∧ digits % 10 = 0 then dropZeros fuel ⟨digits / 10, exponent + 1⟩
      else ⟨digits, exponent⟩

/-- The reals that read back as one binary number: those between `lower` and `upper`, each over
`scale`, around `value` over `scale`; the ends belong to it where `closed`. -/
structure Interval where
  lower : Nat
  value : Nat
  upper : Nat
  scale : Nat
  closed : Bool

namespace Interval

/-- The interval around `mantissa * 2 ^ power`. Below a power of two the binary numbers lie twice
as close together, which `boundary` says. -/
def around (mantissa : Nat) (power : Int) (boundary : Bool) : Interval :=
  let spread := 4 * mantissa
  let factor := Nat.pow 2 (power - 2).toNat
  { lower := (spread - if boundary then 1 else 2) * factor
    value := spread * factor
    upper := (spread + 2) * factor
    scale := Nat.pow 2 (2 - power).toNat
    closed := mantissa % 2 = 0 }

def magnitude (interval : Interval) : Int :=
  if interval.scale ≤ interval.value then
    (Nat.toDigits 10 (interval.value / interval.scale)).length - 1
  else
    match (List.range 400).find? (fun shift =>
      interval.scale ≤ interval.value * Nat.pow 10 (shift + 1)) with
    | some shift => -(shift + 1 : Int)
    | none => -400

def holds (interval : Interval) (digits : Nat) (exponent : Int) : Bool :=
  let left := digits * Nat.pow 10 exponent.toNat * interval.scale
  let unit := Nat.pow 10 (-exponent).toNat
  if interval.closed then interval.lower * unit ≤ left && left ≤ interval.upper * unit
  else interval.lower * unit < left && left < interval.upper * unit

def nearest? (interval : Interval) (count : Nat) : Option Decimal :=
  let exponent := interval.magnitude - count + 1
  let above := interval.scale * Nat.pow 10 exponent.toNat
  let value := interval.value * Nat.pow 10 (-exponent).toNat
  let below := value / above
  let rest := value % above
  match interval.holds below exponent, interval.holds (below + 1) exponent with
  | true, true =>
      if 2 * rest < above ∨ 2 * rest = above ∧ below % 2 = 0 then some ⟨below, exponent⟩
      else some ⟨below + 1, exponent⟩
  | true, false => some ⟨below, exponent⟩
  | false, true => some ⟨below + 1, exponent⟩
  | false, false => none

end Interval

def shortest (mantissa : Nat) (power : Int) (boundary : Bool) : Decimal :=
  let interval := Interval.around mantissa power boundary
  match (List.range 17).findSome? (fun count => interval.nearest? (count + 1)) with
  | some decimal => dropZeros 20 decimal
  | none => ⟨0, 0⟩

/-- How a decimal is spelled: positionally from `lowest` to `highest` power of ten of the leading
digit, and with an exponent outside. -/
structure Spelling where
  lowest : Int
  highest : Int
  plusSign : Bool

def spell (spelling : Spelling) (decimal : Decimal) : List Char :=
  let digits := Nat.toDigits 10 decimal.digits
  let leading : Int := decimal.exponent + digits.length - 1
  if leading < spelling.lowest ∨ spelling.highest < leading then
    let fraction := match digits with
      | first :: second :: rest => first :: '.' :: second :: rest
      | short => short
    let sign := if leading < 0 then ['-'] else if spelling.plusSign then ['+'] else []
    fraction ++ 'e' :: sign ++ Nat.toDigits 10 leading.natAbs
  else if leading < 0 then
    '0' :: '.' :: List.replicate (-leading - 1).toNat '0' ++ digits
  else if 0 ≤ decimal.exponent then
    digits ++ List.replicate decimal.exponent.toNat '0' ++ ['.', '0']
  else
    let whole := leading.toNat + 1
    digits.take whole ++ '.' :: digits.drop whole

end Decimal

end VisualNovel
