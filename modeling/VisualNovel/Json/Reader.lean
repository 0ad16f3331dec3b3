import VisualNovel.Json.Lexeme

/-!
Reading JSON values. Arrays and objects are read one item or member at a time, so that a reader
that wants a particular form can refuse an item as soon as it is seen. `value` reads any value
down to a depth, and `skipValue` passes over one of any depth.
-/

namespace VisualNovel.Json.Reader

inductive Next (α : Type) where
  | close (text : List Char)
  | more (head : α) (text : List Char)

/-- What stands at the next place of an array, of which nothing is read yet if `first`. -/
def nextItem (first : Bool) (text : List Char) : Reading (Next Unit) :=
  match skipBlanks text with
  | [] => .error ⟨.endInList, [], 0⟩
  | ']' :: text => .ok (.close text)
  | char :: text =>
      if first then .ok (.more () (char :: text))
      else if char = ',' then
        match skipBlanks text with
        | [] => .error ⟨.endInValue, [], 0⟩
        | ']' :: text => .error ⟨.trailingComma, ']' :: text, 1⟩
        | text => .ok (.more () text)
      else .error ⟨.expectedListEnd, char :: text, 1⟩

def key (text : List Char) : Reading (Next String) := do
  let (key, text) ← stringBody [] text
  return .more key text

def nextKey (first : Bool) (text : List Char) : Reading (Next String) :=
  match skipBlanks text with
  | [] => .error ⟨.endInObject, [], 0⟩
  | '\x7d' :: text => .ok (.close text)
  | char :: text =>
      if first then
        if char = '"' then key text else .error ⟨.keyNotString, char :: text, 1⟩
      else if char = ',' then
        match skipBlanks text with
        | [] => .error ⟨.endInValue, [], 0⟩
        | '"' :: text => key text
        | '\x7d' :: text => .error ⟨.trailingComma, '\x7d' :: text, 1⟩
        | text => .error ⟨.keyNotString, text, 1⟩
      else .error ⟨.expectedObjectEnd, char :: text, 1⟩

def colon (text : List Char) : Reading (Unit × List Char) :=
  match skipBlanks text with
  | [] => .error ⟨.endInObject, [], 0⟩
  | ':' :: text => .ok ((), text)
  | text => .error ⟨.expectedColon, text, 1⟩

def items {σ : Type} (item : σ → List Char → Reading (σ × List Char)) :
    Nat → Bool → σ → List Char → Reading (σ × List Char)
  | 0, _, _, text => .error ⟨.endInList, text, 0⟩
  | fuel + 1, first, state, text => do
      match ← nextItem first text with
      | .close text => return (state, text)
      | .more () text =>
          let (state, text) ← item state text
          items item fuel false state text

/-- Reads the members of an object up to its end. The reader of a member is given its key, and
the text from the colon on. -/
def members {σ : Type} (member : σ → String → List Char → Reading (σ × List Char)) :
    Nat → Bool → σ → List Char → Reading (σ × List Char)
  | 0, _, _, text => .error ⟨.endInObject, text, 0⟩
  | fuel + 1, first, state, text => do
      match ← nextKey first text with
      | .close text => return (state, text)
      | .more key text =>
          let (state, text) ← member state key text
          members member fuel false state text

/-- Reads a value whose items and members are read by `inner`; without one, the value may not be
an array or object. -/
def valueWith (fuel : Nat) (inner : Option (List Char → Reading (Json × List Char)))
    (text : List Char) : Reading (Json × List Char) :=
  match skipBlanks text with
  | [] => .error ⟨.endInValue, [], 0⟩
  | 'n' :: text => literal .null ['u', 'l', 'l'] text
  | 't' :: text => literal (.bool true) ['r', 'u', 'e'] text
  | 'f' :: text => literal (.bool false) ['a', 'l', 's', 'e'] text
  | '"' :: text => do
      let (value, text) ← stringBody [] text
      return (.string value, text)
  | '[' :: text =>
      match inner with
      | none => .error ⟨.tooDeep, '[' :: text, 1⟩
      | some inner => do
          let (reversed, text) ← items (fun before text => do
            let (item, text) ← inner text
            return (item :: before, text)) fuel true [] text
          return (.array reversed.reverse, text)
  | '\x7b' :: text =>
      match inner with
      | none => .error ⟨.tooDeep, '\x7b' :: text, 1⟩
      | some inner => do
          let (reversed, text) ← members (fun before key text => do
            let ((), text) ← colon text
            let (value, text) ← inner text
            return ((key, value) :: before, text)) fuel true [] text
          return (.object reversed.reverse, text)
  | char :: text =>
      if char = '-' || isDigit char then do
        let (value, text) ← number (char :: text)
        return (.number value, text)
      else .error ⟨.expectedValue, char :: text, 1⟩

def value (fuel : Nat) : Nat → List Char → Reading (Json × List Char)
  | 0 => valueWith fuel none
  | depth + 1 => valueWith fuel (some (value fuel depth))

inductive Bracket where
  | list
  | object

inductive Wanted where
  | value
  | key
  | close (comma : Bool)

def Bracket.isClosedBy : Bracket → Char → Bool
  | .list, char => char = ']'
  | .object, char => char = '\x7d'

def Bracket.next : Bracket → Wanted
  | .list => .value
  | .object => .key

def Bracket.endFault : Bracket → Fault
  | .list => ⟨.endInList, [], 0⟩
  | .object => ⟨.endInObject, [], 0⟩

def Bracket.expected : Bracket → Cause
  | .list => .expectedListEnd
  | .object => .expectedObjectEnd

def skipScalar (text : List Char) : Reading (Unit × List Char) :=
  match text with
  | 'n' :: text => literal () ['u', 'l', 'l'] text
  | 't' :: text => literal () ['r', 'u', 'e'] text
  | 'f' :: text => literal () ['a', 'l', 's', 'e'] text
  | '"' :: text => skipString text
  | '-' :: text => skipUnsigned text
  | char :: text =>
      if isDigit char then skipUnsigned (char :: text)
      else .error ⟨.expectedValue, char :: text, 1⟩
  | [] => .error ⟨.endInValue, [], 0⟩

/-- Passes on inside the brackets still open, the innermost first. -/
def skip : Nat → Wanted → List Bracket → List Char → Reading (Unit × List Char)
  | 0, _, _, text => .error ⟨.endInValue, text, 0⟩
  | fuel + 1, .value, brackets, text =>
      match skipBlanks text with
      | '[' :: text => skip fuel (.close false) (.list :: brackets) text
      | '\x7b' :: text => skip fuel (.close false) (.object :: brackets) text
      | text => do
          let ((), text) ← skipScalar text
          skip fuel (.close true) brackets text
  | fuel + 1, .key, brackets, text =>
      match skipBlanks text with
      | [] => .error ⟨.endInObject, [], 0⟩
      | '"' :: text => do
          let ((), text) ← skipString text
          let ((), text) ← colon text
          skip fuel .value brackets text
      | text => .error ⟨.keyNotString, text, 1⟩
  | _ + 1, .close _, [], text => .ok ((), text)
  | fuel + 1, .close comma, bracket :: brackets, text =>
      match skipBlanks text with
      | [] => .error bracket.endFault
      | char :: rest =>
          if comma && char = ',' then skip fuel bracket.next (bracket :: brackets) rest
          else if bracket.isClosedBy char then skip fuel (.close true) brackets rest
          else if comma then .error ⟨bracket.expected, char :: rest, 1⟩
          else skip fuel bracket.next (bracket :: brackets) (char :: rest)

def skipValue (fuel : Nat) (text : List Char) : Reading (Unit × List Char) :=
  skip (3 * fuel + 3) .value [] text

def depthLimit : Nat := 127

def whole {α : Type} (read : (fuel depth : Nat) → List Char → Reading (α × List Char))
    (text : String) : Except Fault α := do
  let (result, rest) ← read (text.length + 1) depthLimit text.toList
  match skipBlanks rest with
  | [] => return result
  | rest => throw ⟨.trailingCharacters, rest, 1⟩

end Reader

def ofText? (text : String) : Except Fault Json :=
  Reader.whole Reader.value text

end VisualNovel.Json
