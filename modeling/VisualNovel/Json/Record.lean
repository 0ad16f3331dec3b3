import VisualNovel.Json.Format

/-!
Formats of records. A record is written as an object of its fields in order, and read from such an
object with the members in any order, unknown members passed over, or from an array of the fields
in order.
-/

namespace VisualNovel.Json

/-- What a field that is left out stands for. A `nullable` field may be left out of an object
only, one with a default also from the end of an array. -/
inductive Absent (α : Type) where
  | refused
  | nullable (value : α)
  | default (value : α)

/-- The fields of a record. Their values make up a `γ`, and a `σ` holds those read so far. A field
is not written where it is `hidden`. -/
inductive Fields : (γ σ : Type) → Type 1 where
  | done : Fields Unit Unit
  | field {α β τ : Type} (name : String) (format : Format α) (absent : Absent α)
      (hidden : α → Bool) (rest : Fields β τ) : Fields (α × β) (Option α × τ)

namespace Fields

open Reader

def need {α β τ : Type} (name : String) (format : Format α) (rest : Fields β τ) :
    Fields (α × β) (Option α × τ) :=
  .field name format .refused (fun _ => false) rest

def nullable {α β τ : Type} (name : String) (format : Format α) (rest : Fields β τ) :
    Fields (Option α × β) (Option (Option α) × τ) :=
  .field name format.option (.nullable none) (fun _ => false) rest

def optional {α β τ : Type} (name : String) (format : Format α) (rest : Fields β τ) :
    Fields (Option α × β) (Option (Option α) × τ) :=
  .field name format.option (.default none) Option.isNone rest

def withDefault {α β τ : Type} (name : String) (format : Format α) (value : α)
    (rest : Fields β τ) : Fields (α × β) (Option α × τ) :=
  .field name format (.default value) (fun _ => false) rest

def count : {γ σ : Type} → Fields γ σ → Nat
  | _, _, .done => 0
  | _, _, .field _ _ _ _ rest => rest.count + 1

def write : {γ σ : Type} → Fields γ σ → γ → List (String × Json)
  | _, _, .done, () => []
  | _, _, .field name format _ hidden rest, (value, values) =>
      if hidden value then rest.write values
      else (name, format.write value) :: rest.write values

def vacant : {γ σ : Type} → Fields γ σ → σ
  | _, _, .done => ()
  | _, _, .field _ _ _ _ rest => (none, rest.vacant)

def isFilled? : {γ σ : Type} → Fields γ σ → σ → String → Option Bool
  | _, _, .done, _, _ => none
  | _, _, .field name _ _ _ rest, (slot, slots), key =>
      if key = name then some slot.isSome else rest.isFilled? slots key

def fill {ε ρ : Type} (read : {α : Type} → Format α → Except ε (α × ρ)) :
    {γ σ : Type} → Fields γ σ → σ → String → Option (Except ε (σ × ρ))
  | _, _, .done, _, _ => none
  | _, _, .field name format _ _ rest, (slot, slots), key =>
      if key = name then
        some ((read format).map fun (value, after) => ((some value, slots), after))
      else (rest.fill read slots key).map fun filled =>
        filled.map fun (slots, after) => ((slot, slots), after)

def finish : {γ σ : Type} → Fields γ σ → σ → Except Mismatch γ
  | _, _, .done, _ => .ok ()
  | _, _, .field name _ absent _ rest, (slot, slots) => do
      let value ← match slot, absent with
        | some value, _ => .ok value
        | none, .refused => .error (.missingField name)
        | none, .nullable value => .ok value
        | none, .default value => .ok value
      let values ← rest.finish slots
      return (value, values)

def ofMembers {γ σ : Type} (fields : Fields γ σ) :
    σ → List (String × Json) → Except Mismatch σ
  | slots, [] => .ok slots
  | slots, (key, value) :: members =>
      match fields.isFilled? slots key with
      | none => fields.ofMembers slots members
      | some true => .error (.duplicateField key)
      | some false =>
          match fields.fill (fun format => (format.ofJson value).map (·, ())) slots key with
          | none => fields.ofMembers slots members
          | some filled => do
              let (slots, ()) ← filled
              fields.ofMembers slots members

def elements (count : Nat) : String :=
  toString count ++ if count = 1 then " element" else " elements"

def sequenceKind {γ σ : Type} (fields : Fields γ σ) (kind : String) : String :=
  kind ++ " with " ++ elements fields.count

def ofItems (expected : String) :
    {γ σ : Type} → Fields γ σ → Nat → List Json → Except Mismatch (γ × List Json)
  | _, _, .done, _, items => .ok ((), items)
  | _, _, .field _ _ absent _ rest, place, [] =>
      match absent with
      | .default value => do
          let (values, items) ← rest.ofItems expected (place + 1) []
          return ((value, values), items)
      | _ => .error (.wrongLength place expected)
  | _, _, .field _ format _ _ rest, place, item :: items => do
      let value ← format.ofJson item
      let (values, items) ← rest.ofItems expected (place + 1) items
      return ((value, values), items)

def ofJson {γ σ : Type} (fields : Fields γ σ) (kind : String) : Json → Except Mismatch γ
  | .object members => do
      let slots ← fields.ofMembers fields.vacant members
      fields.finish slots
  | .array items => do
      let (values, left) ← fields.ofItems (fields.sequenceKind kind) 0 items
      if left.isEmpty then return values
      else throw (.wrongLength items.length (elements fields.count ++ " in sequence"))
  | value => .error (.wrongType (.of value) kind)

/-- Where a reader comes to rest that gives up an object in front of its next member. -/
def afterObject (text : List Char) : List Char :=
  match skipBlanks text with
  | '\x7d' :: text => text
  | text => text

def readMember {γ σ : Type} (fields : Fields γ σ) (fuel depth : Nat) (slots : σ)
    (key : String) (text : List Char) : Reading (σ × List Char) :=
  match fields.isFilled? slots key with
  | none => do
      let ((), text) ← colon text
      let ((), text) ← skipValue fuel text
      return (slots, text)
  | some true => .error ⟨.mismatch (.duplicateField key), afterObject text, 0⟩
  | some false => do
      let ((), text) ← colon text
      match fields.fill (fun format => format.read fuel depth text) slots key with
      | some filled => filled
      | none => return (slots, text)

def endOfArray (text : List Char) : Reading (Unit × List Char) :=
  match skipBlanks text with
  | [] => .error ⟨.endInList, [], 0⟩
  | ']' :: text => .ok ((), text)
  | ',' :: text =>
      match skipBlanks text with
      | ']' :: text => .error ⟨.trailingComma, ']' :: text, 1⟩
      | text => .error ⟨.trailingCharacters, text, 1⟩
  | text => .error ⟨.trailingCharacters, text, 1⟩

def readItems (fuel depth : Nat) (expected : String) :
    {γ σ : Type} → Fields γ σ → Nat → List Char → Reading (γ × List Char)
  | _, _, .done, _, text => endOfArray text
  | _, _, .field name format absent hidden rest, place, text => do
      match ← nextItem (place = 0) text with
      | .close text =>
          match (field name format absent hidden rest).ofItems expected place [] with
          | .ok (values, _) => return (values, text)
          | .error reason => throw ⟨.mismatch reason, text, 0⟩
      | .more () text =>
          let (value, text) ← format.read fuel depth text
          let (values, text) ← rest.readItems fuel depth expected (place + 1) text
          return ((value, values), text)

def read {γ σ : Type} (fields : Fields γ σ) (kind : String) (fuel depth : Nat)
    (text : List Char) : Reading (γ × List Char) :=
  match skipBlanks text with
  | '[' :: text => nested depth ('[' :: text) fun depth text =>
      fields.readItems fuel depth (fields.sequenceKind kind) 0 text
  | '\x7b' :: text => nested depth ('\x7b' :: text) fun depth text => do
      let (slots, text) ← members (fields.readMember fuel depth) fuel true fields.vacant text
      match fields.finish slots with
      | .ok values => return (values, text)
      | .error reason => throw ⟨.mismatch reason, text, 0⟩
  | text => .error (wrongType kind text)

end Fields

def Format.record {α γ σ : Type} (kind : String) (fields : Fields γ σ) (pack : γ → α)
    (unpack : α → γ) : Format α where
  write value := .object (fields.write (unpack value))
  ofJson value := (fields.ofJson kind value).map pack
  read fuel depth text := do
    let (values, text) ← fields.read kind fuel depth text
    return (pack values, text)

end VisualNovel.Json
