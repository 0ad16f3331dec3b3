import VisualNovel.Json.Variants

/-!
Formats of records of several kinds, told apart by a member that names the kind. The tag may stand
anywhere among the members, so all of them are read before the fields of the kind are looked at.
In an array the tag comes first and the fields follow.
-/

namespace VisualNovel.Json

open Reader

/-- How the fields of one kind are read from the other members, or from the items that follow. -/
inductive Shape (α : Type) where
  | empty (value : α)
  | fields (ofJson : Json → Except Mismatch α)

namespace Shape

variable {α γ σ : Type}

def record (kind : String) (fields : Fields γ σ) (pack : γ → α) : Shape α :=
  .fields fun value => (fields.ofJson kind value).map pack

/-- A kind without fields takes no items, and passes over any members. -/
def ofJson : Shape α → Json → Except Mismatch α
  | .empty value, .array items =>
      if items.isEmpty then .ok value
      else .error (.wrongLength items.length (Fields.elements 0 ++ " in sequence"))
  | .empty value, _ => .ok value
  | .fields ofJson, value => ofJson value

end Shape

structure Tagged (α : Type) where
  tag : String
  owner : String
  kinds : List (String × Shape α)
  other : Shape α

namespace Tagged

variable {α : Type}

def shape (tagged : Tagged α) (kind : String) : Shape α :=
  (tagged.kinds.lookup kind).getD tagged.other

def kindOfJson : Json → Except Mismatch String
  | .string kind => .ok kind
  | value => .error (.wrongType (.of value) "variant identifier")

def readKind (text : List Char) : Reading (String × List Char) :=
  match skipBlanks text with
  | '"' :: text => stringBody [] text
  | text => .error (wrongType "variant identifier" text)

def split (tagged : Tagged α) :
    List (String × Json) → Except Mismatch (Option String × List (String × Json))
  | [] => .ok (none, [])
  | (key, value) :: members => do
      if key = tagged.tag then
        let kind ← kindOfJson value
        match ← tagged.split members with
        | (none, members) => return (some kind, members)
        | (some _, _) => throw (.duplicateField tagged.tag)
      else
        let (kind, members) ← tagged.split members
        return (kind, (key, value) :: members)

def finish (tagged : Tagged α) (kind : Option String) (rest : Json) : Except Mismatch α :=
  match kind with
  | some kind => (tagged.shape kind).ofJson rest
  | none => .error (.missingField tagged.tag)

def ofJson (tagged : Tagged α) : Json → Except Mismatch α
  | .object members => do
      let (kind, members) ← tagged.split members
      tagged.finish kind (.object members)
  | .array [] => .error (.missingField tagged.tag)
  | .array (kind :: items) => do
      let kind ← kindOfJson kind
      tagged.finish (some kind) (.array items)
  | value => .error (.wrongType (.of value) tagged.owner)

def readMember (tagged : Tagged α) (fuel depth : Nat)
    (state : Option String × List (String × Json)) (key : String) (text : List Char) :
    Reading ((Option String × List (String × Json)) × List Char) :=
  let (kind, before) := state
  if key = tagged.tag then
    if kind.isSome then
      .error ⟨.mismatch (.duplicateField tagged.tag), Fields.afterObject text, 0⟩
    else do
      let ((), text) ← colon text
      let (kind, text) ← readKind text
      return ((some kind, before), text)
  else do
    let ((), text) ← colon text
    let (value, text) ← value fuel depth text
    return ((kind, (key, value) :: before), text)

def readItems (tagged : Tagged α) (fuel depth : Nat) (text : List Char) :
    Reading (α × List Char) := do
  match ← nextItem true text with
  | .close text => throw ⟨.mismatch (.missingField tagged.tag), text, 0⟩
  | .more () text =>
      let (kind, text) ← readKind text
      let (reversed, text) ← items (fun before text => do
        let (item, text) ← value fuel depth text
        return (item :: before, text)) fuel false [] text
      Format.placed (tagged.finish (some kind) (.array reversed.reverse)) text

def read (tagged : Tagged α) (fuel depth : Nat) (text : List Char) : Reading (α × List Char) :=
  match skipBlanks text with
  | '[' :: text => nested depth ('[' :: text) (tagged.readItems fuel)
  | '\x7b' :: text => nested depth ('\x7b' :: text) fun depth text => do
      let ((kind, reversed), text) ←
        members (tagged.readMember fuel depth) fuel true (none, []) text
      Format.placed (tagged.finish kind (.object reversed.reverse)) text
  | text => .error (wrongType tagged.owner text)

end Tagged

def Format.tagged {α : Type} (tagged : Tagged α) (write : α → Json) : Format α where
  write := write
  ofJson := tagged.ofJson
  read := tagged.read

end VisualNovel.Json
