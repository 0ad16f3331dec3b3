import VisualNovel.Json.Record

namespace VisualNovel.Json

open Reader

inductive Content (α : Type) where
  | unit (value : α)
  | payload (kind : String) (ofJson : Json → Except Mismatch α)
      (read : (fuel depth : Nat) → List Char → Reading (α × List Char))

structure Variant (α : Type) where
  name : String
  content : Content α

namespace Variant

variable {α β γ σ : Type}

def unit (name : String) (value : α) : Variant α :=
  ⟨name, .unit value⟩

def single (name : String) (format : Format β) (pack : β → α) : Variant α :=
  ⟨name, .payload "newtype variant"
    (fun value => (format.ofJson value).map pack)
    (fun fuel depth text => do
      let (value, text) ← format.read fuel depth text
      return (pack value, text))⟩

def record (owner name : String) (fields : Fields γ σ) (pack : γ → α) : Variant α :=
  let kind := "struct variant " ++ owner ++ "::" ++ name
  ⟨name, .payload "struct variant"
    (fun value => (fields.ofJson kind value).map pack)
    (fun fuel depth text => do
      let (values, text) ← fields.read kind fuel depth text
      return (pack values, text))⟩

def find? (variants : List (Variant α)) (name : String) : Except Mismatch (Content α) :=
  match variants.find? (fun candidate => candidate.name = name) with
  | some found => .ok found.content
  | none => .error (.unknownVariant name (variants.map (·.name)))

end Variant

namespace Content

variable {α : Type}

def bare : Content α → Except Mismatch α
  | .unit value => .ok value
  | .payload kind _ _ => .error (.wrongType .unitVariant kind)

/-- Reads the content from a value at hand. Where there is none, an empty object will do. -/
def ofJson : Content α → Json → Except Mismatch α
  | .unit value, .null | .unit value, .object [] => .ok value
  | .unit _, other => .error (.wrongType (.of other) "unit")
  | .payload _ ofJson _, value => ofJson value

def read (content : Content α) (fuel depth : Nat) (text : List Char) :
    Reading (α × List Char) :=
  match content with
  | .unit value =>
      match skipBlanks text with
      | 'n' :: text => literal value ['u', 'l', 'l'] text
      | text => .error (wrongType "unit" text)
  | .payload _ _ read => read fuel depth text

end Content

namespace Format

variable {α : Type}

def placed (result : Except Mismatch α) (text : List Char) : Reading (α × List Char) :=
  match result with
  | .ok value => .ok (value, text)
  | .error reason => .error ⟨.mismatch reason, text, 0⟩

def variantKey (text : List Char) : Reading (String × List Char) := do
  match ← nextKey true text with
  | .more name text => return (name, text)
  | .close text => throw ⟨.expectedValue, text, 0⟩

def variants (alternatives : List (Variant α)) (write : α → Json) : Format α where
  write := write
  ofJson
    | .string name => do
        let content ← Variant.find? alternatives name
        content.bare
    | .object [(name, value)] => do
        let content ← Variant.find? alternatives name
        content.ofJson value
    | .object _ => .error (.wrongValue .map "map with a single key")
    | value => .error (.wrongType (.of value) "string or map")
  read fuel depth text :=
    match skipBlanks text with
    | [] => .error ⟨.endInValue, [], 0⟩
    | '"' :: text => do
        let (name, text) ← stringBody [] text
        let (content, text) ← placed (Variant.find? alternatives name) text
        placed content.bare text
    | '\x7b' :: text => nested depth ('\x7b' :: text) fun depth text => do
        let (name, text) ← variantKey text
        let (content, text) ← placed (Variant.find? alternatives name) text
        let ((), text) ← colon text
        let (value, text) ← content.read fuel depth text
        match skipBlanks text with
        | [] => throw ⟨.endInObject, [], 0⟩
        | '\x7d' :: text => return (value, text)
        | text => throw ⟨.expectedValue, text, 0⟩
    | text => .error ⟨.expectedValue, text, 1⟩

def names (entries : List (String × α)) (name : α → String) : Format α :=
  variants (entries.map fun (name, value) => .unit name value) (fun value => .string (name value))

end Format

def variantOf (name : String) (content : Json) : Json :=
  .object [(name, content)]

end VisualNovel.Json
