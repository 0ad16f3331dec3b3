import VisualNovel.Number.Shortest

/-!
Binary floating-point numbers of 64 bits, held as their bits so that equality is decidable. They
are read from a significand and a power of ten by multiplying or dividing in binary, and written
with the fewest digits that read back.
-/

namespace VisualNovel

structure Binary64 where
  bits : UInt64
  deriving DecidableEq, Inhabited

namespace Binary64

def ofFloat (value : Float) : Binary64 :=
  ⟨value.toBits⟩

def zero (negative : Bool) : Binary64 :=
  ⟨if negative then 0x8000000000000000 else 0⟩

def negate (number : Binary64) : Binary64 :=
  ⟨number.bits ^^^ 0x8000000000000000⟩

def powerOfTen (exponent : Nat) : Float :=
  Float.ofScientific 1 false exponent

def shrink (value : Float) (exponent : Nat) : Float :=
  if exponent ≤ 308 then value / powerOfTen exponent
  else if value == 0 then value
  else shrink (value / powerOfTen 308) (exponent - 308)
termination_by exponent

def magnitude? (significand : UInt64) (exponent : Int) : Option Float :=
  let value := significand.toFloat
  if exponent < 0 then some (shrink value exponent.natAbs)
  else if exponent ≤ 308 then
    let product := value * powerOfTen exponent.toNat
    if product.isInf then none else some product
  else if value == 0 then some value
  else none

def ofParts? (negative : Bool) (significand : UInt64) (exponent : Int) : Option Binary64 :=
  (magnitude? significand exponent).map fun value =>
    if negative then (ofFloat value).negate else ofFloat value

def isNegative (number : Binary64) : Bool :=
  number.bits >>> 63 = 1

def biasedExponent (number : Binary64) : Nat :=
  ((number.bits >>> 52) &&& 0x7ff).toNat

def fraction (number : Binary64) : Nat :=
  (number.bits &&& 0xfffffffffffff).toNat

def toDecimal (number : Binary64) : Decimal :=
  let exponent := number.biasedExponent
  if exponent = 0 then
    if number.fraction = 0 then ⟨0, 0⟩ else Decimal.shortest number.fraction (-1074) false
  else
    Decimal.shortest (number.fraction + Nat.pow 2 52) (exponent - 1075)
      (number.fraction = 0 && 1 < exponent)

def spelling : Decimal.Spelling := ⟨-5, 15, true⟩

def chars (number : Binary64) : List Char :=
  (if number.isNegative then ['-'] else []) ++ number.toDecimal.spell spelling

end Binary64

end VisualNovel
