import VisualNovel.Dict
import VisualNovel.Number.Binary64

/-!
JSON values. The members of an object are kept as they stand in the text, repeated keys and all;
`normalize` puts every object into ascending order of its keys and lets the last of several
members with one key stand.
-/

namespace VisualNovel

/-- A number is an integer when it is written without fraction and exponent and lies between
`-2 ^ 63` and `2 ^ 64 - 1`. -/
inductive Number where
  | integer (value : Int)
  | float (value : Binary64)
  deriving DecidableEq

def Number.chars : Number → List Char
  | .integer (.ofNat value) => Nat.toDigits 10 value
  | .integer (.negSucc value) => '-' :: Nat.toDigits 10 (value + 1)
  | .float value => value.chars

inductive Json where
  | null
  | bool (value : Bool)
  | number (value : Number)
  | string (value : String)
  | array (items : List Json)
  | object (members : List (String × Json))
  deriving Inhabited

namespace Json

def nat (value : Nat) : Json :=
  .number (.integer value)

mutual

def decideEq : (first second : Json) → Decidable (first = second)
  | .null, .null => isTrue rfl
  | .bool first, .bool second => decidable_of_iff (first = second) (by simp)
  | .number first, .number second => decidable_of_iff (first = second) (by simp)
  | .string first, .string second => decidable_of_iff (first = second) (by simp)
  | .array first, .array second =>
      match decideEqItems first second with
      | isTrue same => isTrue (by rw [same])
      | isFalse differ => isFalse (by simpa using differ)
  | .object first, .object second =>
      match decideEqMembers first second with
      | isTrue same => isTrue (by rw [same])
      | isFalse differ => isFalse (by simpa using differ)
  | .null, .bool _ | .null, .number _ | .null, .string _ | .null, .array _ | .null, .object _
  | .bool _, .null | .bool _, .number _ | .bool _, .string _ | .bool _, .array _
  | .bool _, .object _ | .number _, .null | .number _, .bool _ | .number _, .string _
  | .number _, .array _ | .number _, .object _ | .string _, .null | .string _, .bool _
  | .string _, .number _ | .string _, .array _ | .string _, .object _ | .array _, .null
  | .array _, .bool _ | .array _, .number _ | .array _, .string _ | .array _, .object _
  | .object _, .null | .object _, .bool _ | .object _, .number _ | .object _, .string _
  | .object _, .array _ => isFalse (by simp)

def decideEqItems : (first second : List Json) → Decidable (first = second)
  | [], [] => isTrue rfl
  | [], _ :: _ | _ :: _, [] => isFalse (by simp)
  | first :: firsts, second :: seconds =>
      match decideEq first second, decideEqItems firsts seconds with
      | isTrue head, isTrue tail => isTrue (by rw [head, tail])
      | isFalse head, _ => isFalse (fun same => head (List.cons.inj same).1)
      | _, isFalse tail => isFalse (fun same => tail (List.cons.inj same).2)

def decideEqMembers : (first second : List (String × Json)) → Decidable (first = second)
  | [], [] => isTrue rfl
  | [], _ :: _ | _ :: _, [] => isFalse (by simp)
  | (firstKey, first) :: firsts, (secondKey, second) :: seconds =>
      if key : firstKey = secondKey then
        match decideEq first second, decideEqMembers firsts seconds with
        | isTrue head, isTrue tail => isTrue (by rw [key, head, tail])
        | isFalse head, _ => isFalse (fun same => by simp_all)
        | _, isFalse tail => isFalse (fun same => by simp_all)
      else isFalse (fun same => by simp_all)

end

instance : DecidableEq Json := decideEq

mutual

/-- Every object in ascending order of its keys, the last of equal keys standing. -/
def normalize : Json → Json
  | .array items => .array (normalizeItems items)
  | .object members => .object (normalizeMembers [] members)
  | scalar => scalar

def normalizeItems : List Json → List Json
  | [] => []
  | item :: items => normalize item :: normalizeItems items

def normalizeMembers (entries : List (String × Json)) :
    List (String × Json) → List (String × Json)
  | [] => entries
  | (key, value) :: members => normalizeMembers (insertEntry key (normalize value) entries) members

end

def member? (key : String) : Json → Option Json
  | .object members => members.lookup key
  | _ => none

end Json

end VisualNovel
