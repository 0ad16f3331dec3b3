/-!
Paths of files. A path is a text whose pieces are separated by slashes. Empty pieces and pieces
that are a single point say nothing, except that a relative path may start with a point. Two paths
with the same parts lead to the same place.
-/

namespace VisualNovel

inductive PathPart where
  | root
  | here
  | up
  | name (text : String)
  deriving DecidableEq

namespace Path

def pieces (path : String) : List (List Char) :=
  path.toList.splitOn '/'

def ofPieces (pieces : List (List Char)) : String :=
  String.ofList (['/'].intercalate pieces)

def isSilent (piece : List Char) : Bool :=
  piece = [] || piece = ['.']

def isAbsolute (path : String) : Bool :=
  path.toList.head? = some '/'

def part? (piece : List Char) : Option PathPart :=
  if isSilent piece then none
  else if piece = ['.', '.'] then some .up
  else some (.name (String.ofList piece))

def parts (path : String) : List PathPart :=
  let rest := (pieces path).filterMap part?
  if isAbsolute path then .root :: rest
  else if (pieces path).head? = some ['.'] then .here :: rest
  else rest

def needsSlash (path : String) : Bool :=
  path.toList.getLast?.any (· ≠ '/')

/-- A path below another. An absolute path stands for itself. -/
def join (base path : String) : String :=
  if isAbsolute path then path
  else if needsSlash base then base ++ "/" ++ path
  else base ++ path

def parent (path : String) : String :=
  let below := (pieces path).reverse.dropWhile isSilent |>.drop 1
  let above := (below.dropWhile isSilent).reverse
  if above ≠ [] then ofPieces above
  else if isAbsolute path then "/"
  else if (pieces path).head? = some ['.'] then "."
  else ""

def fileName? (path : String) : Option String :=
  match (parts path).getLast? with
  | some (.name text) => some text
  | _ => none

/-- A name cut at its last point. A point at the start does not count. -/
def cut (name : String) : String × Option String :=
  let (ending, rest) := name.toList.reverse.span (· ≠ '.')
  match rest with
  | [] | [_] => (name, none)
  | _ :: stem => (String.ofList stem.reverse, some (String.ofList ending.reverse))

def stem? (path : String) : Option String :=
  (fileName? path).map fun name => (cut name).1

def ending? (path : String) : Option String :=
  (fileName? path).bind fun name => (cut name).2

end Path

end VisualNovel
