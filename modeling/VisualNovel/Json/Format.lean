import VisualNovel.Json.Reader

/-!
Formats. A format says how the values of a type stand in JSON: it writes a value, reads one from a
JSON value at hand, and reads one straight from a text. Reading from a text stops at the first
place that does not fit, so what comes later in the text is not looked at.
-/

namespace VisualNovel.Json

structure Format (α : Type) where
  write : α → Json
  ofJson : Json → Except Mismatch α
  read : (fuel depth : Nat) → List Char → Reader.Reading (α × List Char)

namespace Reader

/-- The fault at a value that is not of the expected kind. Scalars are read before they are
refused; arrays and objects are refused unread. -/
def wrongType (expected : String) (text : List Char) : Fault :=
  match text with
  | '[' :: _ => ⟨.mismatch (.wrongType .sequence expected), text, 0⟩
  | '\x7b' :: _ => ⟨.mismatch (.wrongType .map expected), text, 0⟩
  | text =>
      match valueWith 0 none text with
      | .error fault => fault
      | .ok (value, rest) => ⟨.mismatch (.wrongType (.of value) expected), rest, 0⟩

def nested {α : Type} (depth : Nat) (text : List Char)
    (read : Nat → List Char → Reading α) : Reading α :=
  match depth with
  | 0 => .error ⟨.tooDeep, text, 1⟩
  | depth + 1 => read depth (text.drop 1)

end Reader

namespace Format

open Reader

variable {α β : Type}

def ofText? (format : Format α) (text : String) : Except Fault α :=
  whole format.read text

def imap (format : Format α) (pack : α → β) (unpack : β → α) : Format β where
  write value := format.write (unpack value)
  ofJson value := (format.ofJson value).map pack
  read fuel depth text := do
    let (value, text) ← format.read fuel depth text
    return (pack value, text)

def text : Format String where
  write := .string
  ofJson
    | .string value => .ok value
    | value => .error (.wrongType (.of value) "a string")
  read _ _ text :=
    match skipBlanks text with
    | '"' :: text => stringBody [] text
    | text => .error (wrongType "a string" text)

def boolean : Format Bool where
  write := .bool
  ofJson
    | .bool value => .ok value
    | value => .error (.wrongType (.of value) "a boolean")
  read _ _ text :=
    match skipBlanks text with
    | 't' :: text => literal true ['r', 'u', 'e'] text
    | 'f' :: text => literal false ['a', 'l', 's', 'e'] text
    | text => .error (wrongType "a boolean" text)

def naturalOfNumber (kind : String) : Number → Except Mismatch Nat
  | .integer (.ofNat value) => .ok value
  | .integer (.negSucc value) => .error (.wrongValue (.number (.integer (.negSucc value))) kind)
  | .float value => .error (.wrongType (.number (.float value)) kind)

def natural (kind : String) : Format Nat where
  write := nat
  ofJson
    | .number value => naturalOfNumber kind value
    | value => .error (.wrongType (.of value) kind)
  read _ _ text :=
    match skipBlanks text with
    | [] => .error ⟨.endInValue, [], 0⟩
    | char :: text =>
        if char = '-' || isDigit char then do
          let (value, text) ← Reader.number (char :: text)
          match naturalOfNumber kind value with
          | .ok value => return (value, text)
          | .error reason => throw ⟨.mismatch reason, text, 0⟩
        else .error (wrongType kind (char :: text))

def millis : Format UInt64 :=
  (natural "u64").imap UInt64.ofNat UInt64.toNat

def index : Format Nat :=
  natural "usize"

def any : Format Json where
  write value := value
  ofJson value := .ok value.normalize
  read fuel depth text := do
    let (value, text) ← value fuel depth text
    return (value.normalize, text)

def option (format : Format α) : Format (Option α) where
  write
    | some value => format.write value
    | none => .null
  ofJson
    | .null => .ok none
    | value => (format.ofJson value).map some
  read fuel depth text :=
    match skipBlanks text with
    | 'n' :: text => literal none ['u', 'l', 'l'] text
    | text => do
        let (value, text) ← format.read fuel depth text
        return (some value, text)

def itemsOfJson (format : Format α) : List Json → Except Mismatch (List α)
  | [] => .ok []
  | item :: items => do
      let value ← format.ofJson item
      let values ← itemsOfJson format items
      return value :: values

def list (format : Format α) : Format (List α) where
  write values := .array (values.map format.write)
  ofJson
    | .array items => itemsOfJson format items
    | value => .error (.wrongType (.of value) "a sequence")
  read fuel depth text :=
    match skipBlanks text with
    | '[' :: text => nested depth ('[' :: text) fun depth text => do
        let (reversed, text) ← items (fun before text => do
          let (value, text) ← format.read fuel depth text
          return (value :: before, text)) fuel true [] text
        return (reversed.reverse, text)
    | text => .error (wrongType "a sequence" text)

def membersOfJson (format : Format α) :
    Dict α → List (String × Json) → Except Mismatch (Dict α)
  | dict, [] => .ok dict
  | dict, (key, value) :: members => do
      let value ← format.ofJson value
      membersOfJson format (dict.insert key value) members

def dict (format : Format α) : Format (Dict α) where
  write dict := .object (dict.entries.map fun (key, value) => (key, format.write value))
  ofJson
    | .object members => membersOfJson format .empty members
    | value => .error (.wrongType (.of value) "a map")
  read fuel depth text :=
    match skipBlanks text with
    | '\x7b' :: text => nested depth ('\x7b' :: text) fun depth text =>
        members (fun dict key text => do
          let ((), text) ← colon text
          let (value, text) ← format.read fuel depth text
          return (dict.insert key value, text)) fuel true .empty text
    | text => .error (wrongType "a map" text)

end Format

end VisualNovel.Json
