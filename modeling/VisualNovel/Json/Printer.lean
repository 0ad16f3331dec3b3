import VisualNovel.Json.Value

namespace VisualNovel.Json

inductive Layout where
  | compact
  | indented
  deriving DecidableEq

namespace Layout

def lineBreak : Layout → Nat → List Char
  | .compact, _ => []
  | .indented, depth => '\n' :: List.replicate (2 * depth) ' '

def colon : Layout → List Char
  | .compact => [':']
  | .indented => [':', ' ']

end Layout

def hexDigit (value : Nat) : Char :=
  (Nat.digitChar value)

def escapeChar (char : Char) : List Char :=
  if char = '"' then ['\\', '"']
  else if char = '\\' then ['\\', '\\']
  else if char = '\x08' then ['\\', 'b']
  else if char = '\x0c' then ['\\', 'f']
  else if char = '\n' then ['\\', 'n']
  else if char = '\r' then ['\\', 'r']
  else if char = '\t' then ['\\', 't']
  else if char < ' ' then
    ['\\', 'u', '0', '0', hexDigit (char.toNat / 16), hexDigit (char.toNat % 16)]
  else [char]

def stringChars (text : String) : List Char :=
  '"' :: text.toList.flatMap escapeChar ++ ['"']

mutual

def chars (layout : Layout) (depth : Nat) : Json → List Char
  | .null => ['n', 'u', 'l', 'l']
  | .bool true => ['t', 'r', 'u', 'e']
  | .bool false => ['f', 'a', 'l', 's', 'e']
  | .number value => value.chars
  | .string value => stringChars value
  | .array [] => ['[', ']']
  | .array (item :: items) =>
      '[' :: layout.lineBreak (depth + 1) ++ chars layout (depth + 1) item
        ++ itemsChars layout (depth + 1) items ++ layout.lineBreak depth ++ [']']
  | .object [] => ['\x7b', '\x7d']
  | .object ((key, value) :: members) =>
      '\x7b' :: layout.lineBreak (depth + 1) ++ stringChars key ++ layout.colon
        ++ chars layout (depth + 1) value
        ++ membersChars layout (depth + 1) members ++ layout.lineBreak depth ++ ['\x7d']

def itemsChars (layout : Layout) (depth : Nat) : List Json → List Char
  | [] => []
  | item :: items =>
      ',' :: layout.lineBreak depth ++ chars layout depth item ++ itemsChars layout depth items

def membersChars (layout : Layout) (depth : Nat) : List (String × Json) → List Char
  | [] => []
  | (key, value) :: members =>
      ',' :: layout.lineBreak depth ++ stringChars key ++ layout.colon
        ++ chars layout depth value ++ membersChars layout depth members

end

def compact (value : Json) : String :=
  String.ofList (value.chars .compact 0)

def pretty (value : Json) : String :=
  String.ofList (value.chars .indented 0)

end VisualNovel.Json
