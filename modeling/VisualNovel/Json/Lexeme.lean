import VisualNovel.Json.Fault

/-!
The words of a JSON text: blanks, literals, strings and numbers. Every reader takes what is unread
and gives back what is left, or the fault at which it stopped. The `skip` readers pass over a word
without asking what it stands for.
-/

namespace VisualNovel.Json.Reader

abbrev Reading := Except Fault

def isBlank (char : Char) : Bool :=
  char = ' ' || char = '\n' || char = '\t' || char = '\r'

def skipBlanks (text : List Char) : List Char :=
  text.dropWhile isBlank

def literal {α : Type} (value : α) : List Char → List Char → Reading (α × List Char)
  | [], text => .ok (value, text)
  | _ :: _, [] => .error ⟨.endInValue, [], 0⟩
  | letter :: letters, char :: text =>
      if letter = char then literal value letters text
      else .error ⟨.expectedIdent, char :: text, 1⟩

def hexValue? (char : Char) : Option Nat :=
  if '0' ≤ char ∧ char ≤ '9' then some (char.toNat - '0'.toNat)
  else if 'a' ≤ char ∧ char ≤ 'f' then some (char.toNat - 'a'.toNat + 10)
  else if 'A' ≤ char ∧ char ≤ 'F' then some (char.toNat - 'A'.toNat + 10)
  else none

def hexCode? (first second third fourth : Char) : Option Nat := do
  let first ← hexValue? first
  let second ← hexValue? second
  let third ← hexValue? third
  let fourth ← hexValue? fourth
  return ((first * 16 + second) * 16 + third) * 16 + fourth

/-- Four bytes are taken for the digits of an escape; where the text has fewer, it ends there. -/
def hexFault (text : List Char) : Fault :=
  if bytesOf text < 4 then ⟨.endInString, [], 0⟩ else ⟨.invalidEscape, text, 4⟩

def isLeadingSurrogate (code : Nat) : Bool :=
  0xd800 ≤ code && code ≤ 0xdbff

def isTrailingSurrogate (code : Nat) : Bool :=
  0xdc00 ≤ code && code ≤ 0xdfff

def surrogatePair (leading trailing : Nat) : Char :=
  Char.ofNat ((leading - 0xd800) * 0x400 + (trailing - 0xdc00) + 0x10000)

def pairFault : List Char → Fault
  | [] | ['\\'] => ⟨.endInString, [], 0⟩
  | '\\' :: 'u' :: digits => hexFault digits
  | '\\' :: text => ⟨.unfinishedSurrogate, text, 1⟩
  | text => ⟨.unfinishedSurrogate, text, 1⟩

def simpleEscape? (char : Char) : Option Char :=
  match char with
  | '"' => some '"'
  | '\\' => some '\\'
  | '/' => some '/'
  | 'b' => some '\x08'
  | 'f' => some '\x0c'
  | 'n' => some '\n'
  | 'r' => some '\r'
  | 't' => some '\t'
  | _ => none

/-- Reads a string up to its closing quotation mark; `before` holds what is read, last first. -/
def stringBody (before : List Char) : List Char → Reading (String × List Char)
  | [] => .error ⟨.endInString, [], 0⟩
  | '"' :: text => .ok (String.ofList before.reverse, text)
  | '\\' :: 'u' :: first :: second :: third :: fourth :: text =>
      match hexCode? first second third fourth with
      | none => .error (hexFault (first :: second :: third :: fourth :: text))
      | some code =>
          if isTrailingSurrogate code then .error ⟨.loneSurrogate, text, 0⟩
          else if isLeadingSurrogate code then
            match text with
            | '\\' :: 'u' :: first :: second :: third :: fourth :: text =>
                match hexCode? first second third fourth with
                | none => .error (hexFault (first :: second :: third :: fourth :: text))
                | some trailing =>
                    if isTrailingSurrogate trailing then
                      stringBody (surrogatePair code trailing :: before) text
                    else .error ⟨.loneSurrogate, text, 0⟩
            | text => .error (pairFault text)
          else stringBody (Char.ofNat code :: before) text
  | '\\' :: 'u' :: digits => .error (hexFault digits)
  | '\\' :: char :: text =>
      match simpleEscape? char with
      | some char => stringBody (char :: before) text
      | none => .error ⟨.invalidEscape, char :: text, 1⟩
  | ['\\'] => .error ⟨.endInString, [], 0⟩
  | char :: text =>
      if char < ' ' then .error ⟨.controlCharacter, char :: text, 1⟩
      else stringBody (char :: before) text

def skipString : List Char → Reading (Unit × List Char)
  | [] => .error ⟨.endInString, [], 0⟩
  | '"' :: text => .ok ((), text)
  | '\\' :: 'u' :: first :: second :: third :: fourth :: text =>
      match hexCode? first second third fourth with
      | none => .error (hexFault (first :: second :: third :: fourth :: text))
      | some _ => skipString text
  | '\\' :: 'u' :: digits => .error (hexFault digits)
  | '\\' :: char :: text =>
      match simpleEscape? char with
      | some _ => skipString text
      | none => .error ⟨.invalidEscape, char :: text, 1⟩
  | ['\\'] => .error ⟨.endInString, [], 0⟩
  | char :: text =>
      if char < ' ' then .error ⟨.controlCharacter, char :: text, 0⟩ else skipString text

def isDigit (char : Char) : Bool :=
  '0' ≤ char && char ≤ '9'

def digitValue (char : Char) : Nat :=
  char.toNat - '0'.toNat

def absorb (limit : Nat) (value : Nat) : List Char → Nat × List Char
  | [] => (value, [])
  | digit :: digits =>
      if value * 10 + digitValue digit < limit then
        absorb limit (value * 10 + digitValue digit) digits
      else (value, digit :: digits)

def significandLimit : Nat := Nat.pow 2 64

def exponentLimit : Nat := Nat.pow 2 31

def floatOfParts (negative : Bool) (significand : Nat) (exponent : Int) (text : List Char) :
    Reading (Number × List Char) :=
  match Binary64.ofParts? negative (UInt64.ofNat significand) exponent with
  | some value => .ok (.float value, text)
  | none => .error ⟨.numberOutOfRange, text, 0⟩

def exponentSign : List Char → Bool × List Char
  | '+' :: text => (false, text)
  | '-' :: text => (true, text)
  | text => (false, text)

def exponentPart (negative : Bool) (significand : Nat) (start : Int) (text : List Char) :
    Reading (Number × List Char) :=
  let (below, text) := exponentSign text
  match text with
  | [] => .error ⟨.endInValue, [], 0⟩
  | first :: _ =>
      if isDigit first then
        let (exponent, left) := absorb exponentLimit 0 (text.takeWhile isDigit)
        let after := text.dropWhile isDigit
        if left.isEmpty then
          floatOfParts negative significand (if below then start - exponent else start + exponent)
            after
        else if significand ≠ 0 ∧ !below then .error ⟨.numberOutOfRange, left.drop 1 ++ after, 0⟩
        else .ok (.float (Binary64.zero negative), after)
      else .error ⟨.invalidNumber, text, 1⟩

def exponentOrEnd (negative : Bool) (significand : Nat) (exponent : Int) (text : List Char) :
    Reading (Number × List Char) :=
  match text with
  | 'e' :: text | 'E' :: text => exponentPart negative significand exponent text
  | text => floatOfParts negative significand exponent text

def fractionPart (negative : Bool) (significand : Nat) (start : Int) (text : List Char) :
    Reading (Number × List Char) :=
  let digits := text.takeWhile isDigit
  let after := text.dropWhile isDigit
  if digits.isEmpty then
    .error (match after with
      | [] => ⟨.endInValue, [], 0⟩
      | after => ⟨.invalidNumber, after, 1⟩)
  else
    let (significand, left) := absorb significandLimit significand digits
    exponentOrEnd negative significand (start - (digits.length - left.length)) after

/-- A number of plain digits is an integer when it fits; minus zero is not an integer. -/
def integer (negative : Bool) (value : Nat) (text : List Char) : Reading (Number × List Char) :=
  if !negative then .ok (.integer value, text)
  else if 0 < value ∧ value ≤ Nat.pow 2 63 then .ok (.integer (-value), text)
  else floatOfParts true value 0 text

def unsigned (negative : Bool) (text : List Char) : Reading (Number × List Char) :=
  match text with
  | [] => .error ⟨.endInValue, [], 0⟩
  | first :: rest =>
      if !isDigit first then .error ⟨.invalidNumber, text, 1⟩
      else if first = '0' ∧ rest.head?.any isDigit then .error ⟨.invalidNumber, rest, 1⟩
      else
        let (significand, left) := absorb significandLimit 0 (text.takeWhile isDigit)
        match text.dropWhile isDigit with
        | '.' :: after => fractionPart negative significand left.length after
        | 'e' :: after | 'E' :: after => exponentPart negative significand left.length after
        | after =>
            if left.isEmpty then integer negative significand after
            else floatOfParts negative significand left.length after

def number : List Char → Reading (Number × List Char)
  | '-' :: text => unsigned true text
  | text => unsigned false text

def skipExponent (text : List Char) : Reading (Unit × List Char) :=
  let (_, text) := exponentSign text
  if text.head?.any isDigit then .ok ((), text.dropWhile isDigit)
  else .error ⟨.invalidNumber, text, 1⟩

def skipUnsigned (text : List Char) : Reading (Unit × List Char) :=
  match text with
  | [] => .error ⟨.invalidNumber, [], 0⟩
  | first :: rest =>
      if !isDigit first then .error ⟨.invalidNumber, text, 1⟩
      else if first = '0' ∧ rest.head?.any isDigit then .error ⟨.invalidNumber, rest, 1⟩
      else
        match text.dropWhile isDigit with
        | '.' :: after =>
            if after.head?.any isDigit then
              match after.dropWhile isDigit with
              | 'e' :: after | 'E' :: after => skipExponent after
              | after => .ok ((), after)
            else .error ⟨.invalidNumber, after, 1⟩
        | 'e' :: after | 'E' :: after => skipExponent after
        | after => .ok ((), after)

end VisualNovel.Json.Reader
