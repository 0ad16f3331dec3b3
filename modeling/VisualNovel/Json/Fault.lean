import VisualNovel.Json.Value
import VisualNovel.Text.Quoted

/-!
What can be wrong with a JSON text. A `Mismatch` is a value that is not of the wanted form; a
`Fault` is a mismatch or a breach of the grammar, together with the place in the text where
reading stopped.
-/

namespace VisualNovel.Json

inductive Found where
  | null
  | bool (value : Bool)
  | number (value : Number)
  | string (value : String)
  | sequence
  | map
  | unitVariant
  deriving DecidableEq

inductive Mismatch where
  | missingField (name : String)
  | duplicateField (name : String)
  | wrongType (found : Found) (expected : String)
  | wrongValue (found : Found) (expected : String)
  | unknownVariant (name : String) (expected : List String)
  | wrongLength (length : Nat) (expected : String)
  deriving DecidableEq

inductive Cause where
  | endInValue
  | endInList
  | endInObject
  | endInString
  | expectedValue
  | expectedIdent
  | expectedColon
  | expectedListEnd
  | expectedObjectEnd
  | keyNotString
  | trailingComma
  | trailingCharacters
  | invalidNumber
  | numberOutOfRange
  | invalidEscape
  | controlCharacter
  | loneSurrogate
  | unfinishedSurrogate
  | tooDeep
  | mismatch (reason : Mismatch)
  deriving DecidableEq

/-- A cause, and the place in the text where it was noticed: `ahead` bytes into what was still
unread. -/
structure Fault where
  cause : Cause
  rest : List Char
  ahead : Nat
  deriving DecidableEq

def Found.of : Json → Found
  | .null => .null
  | .bool value => .bool value
  | .number value => .number value
  | .string value => .string value
  | .array _ => .sequence
  | .object _ => .map

def Found.message : Found → String
  | .null => "null"
  | .bool true => "boolean `true`"
  | .bool false => "boolean `false`"
  | .number (.integer value) => "integer `" ++ toString value ++ "`"
  | .number (.float value) => "floating point `" ++ String.ofList value.chars ++ "`"
  | .string value => "string " ++ Text.quoted value
  | .sequence => "sequence"
  | .map => "map"
  | .unitVariant => "unit variant"

def alternatives : List String → String
  | [] => "there are no variants"
  | [only] => "expected `" ++ only ++ "`"
  | [first, second] => "expected `" ++ first ++ "` or `" ++ second ++ "`"
  | names => "expected one of " ++ ", ".intercalate (names.map fun name => "`" ++ name ++ "`")

def Mismatch.message : Mismatch → String
  | .missingField name => "missing field `" ++ name ++ "`"
  | .duplicateField name => "duplicate field `" ++ name ++ "`"
  | .wrongType found expected => "invalid type: " ++ found.message ++ ", expected " ++ expected
  | .wrongValue found expected => "invalid value: " ++ found.message ++ ", expected " ++ expected
  | .unknownVariant name expected =>
      "unknown variant `" ++ name ++ "`, " ++ alternatives expected
  | .wrongLength length expected =>
      "invalid length " ++ toString length ++ ", expected " ++ expected

def Cause.message : Cause → String
  | .endInValue => "EOF while parsing a value"
  | .endInList => "EOF while parsing a list"
  | .endInObject => "EOF while parsing an object"
  | .endInString => "EOF while parsing a string"
  | .expectedValue => "expected value"
  | .expectedIdent => "expected ident"
  | .expectedColon => "expected `:`"
  | .expectedListEnd => "expected `,` or `]`"
  | .expectedObjectEnd => "expected `,` or `\x7d`"
  | .keyNotString => "key must be a string"
  | .trailingComma => "trailing comma"
  | .trailingCharacters => "trailing characters"
  | .invalidNumber => "invalid number"
  | .numberOutOfRange => "number out of range"
  | .invalidEscape => "invalid escape"
  | .controlCharacter => "control character (\\u0000-\\u001F) found while parsing a string"
  | .loneSurrogate => "lone leading surrogate in hex escape"
  | .unfinishedSurrogate => "unexpected end of hex escape"
  | .tooDeep => "recursion limit exceeded"
  | .mismatch reason => reason.message

inductive Category where
  | eof
  | grammar
  | data
  deriving DecidableEq

def Cause.category : Cause → Category
  | .endInValue | .endInList | .endInObject | .endInString => .eof
  | .mismatch _ => .data
  | _ => .grammar

def bytesOf (text : List Char) : Nat :=
  text.foldr (fun char bytes => char.utf8Size + bytes) 0

structure Position where
  line : Nat
  column : Nat
  deriving DecidableEq

def Position.advance : Nat → List Char → Position → Position
  | _, [], position => position
  | bytes, char :: rest, position =>
      if bytes = 0 then position
      else if bytes < char.utf8Size then ⟨position.line, position.column + bytes⟩
      else if char = '\n' then advance (bytes - 1) rest ⟨position.line + 1, 0⟩
      else advance (bytes - char.utf8Size) rest ⟨position.line, position.column + char.utf8Size⟩

/-- Lines count from 1, columns are the bytes before the place on its line. -/
def Fault.position (text : List Char) (fault : Fault) : Position :=
  let bytes := bytesOf text - bytesOf fault.rest
  Position.advance (bytes + fault.ahead) text ⟨1, 0⟩

def Fault.message (fault : Fault) : String :=
  fault.cause.message

def Fault.messageIn (text : String) (fault : Fault) : String :=
  let position := fault.position text.toList
  fault.message ++ " at line " ++ toString position.line
    ++ " column " ++ toString position.column

end VisualNovel.Json
