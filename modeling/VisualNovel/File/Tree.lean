import VisualNovel.File.Path
import VisualNovel.File.Access
import VisualNovel.Text.Utf8

/-!
Trees of files held in memory. A place is the list of names that lead to it from the root. A path
is walked piece by piece from the root or from where the program stands, and each piece but the
last has to be that of a directory. A path that is too long, or that holds a NUL character, is
refused before the walk.
-/

namespace VisualNovel

inductive FileNode where
  | file (bytes : List UInt8)
  | directory
  deriving DecidableEq

/-- Files and directories by their places; the places above them are directories. -/
structure FileTree where
  nodes : List (List String × FileNode)
  here : List String

namespace FileTree

def nodeAt? (tree : FileTree) (place : List String) : Option FileNode :=
  match tree.nodes.lookup place with
  | some node => some node
  | none =>
      if place.isPrefixOf tree.here || tree.nodes.any fun (below, _) => place.isPrefixOf below then
        some .directory
      else none

def nameLimit : Nat := 255

def walk (tree : FileTree) (place : List String) :
    List (List Char) → Except FileFault (List String × FileNode)
  | [] =>
      match tree.nodeAt? place with
      | some node => .ok (place, node)
      | none => .error .missing
  | piece :: pieces =>
      match tree.nodeAt? place with
      | none => .error .missing
      | some (.file _) => .error .notADirectory
      | some .directory =>
          match Path.part? piece with
          | some (.name name) =>
              if nameLimit < name.utf8ByteSize then .error .nameTooLong
              else walk tree (place ++ [name]) pieces
          | some .up => walk tree place.dropLast pieces
          | _ => walk tree place pieces

def pathLimit : Nat := 4095

def find (tree : FileTree) (path : String) : Except FileFault (List String × FileNode) :=
  if '\x00' ∈ path.toList then .error .nameWithNul
  else if pathLimit < path.utf8ByteSize then .error .nameTooLong
  else if path = "" then .error .missing
  else tree.walk (if Path.isAbsolute path then [] else tree.here) (Path.pieces path)

def read (tree : FileTree) (path : String) : Except FileFault String :=
  match tree.find path with
  | .error fault => .error fault
  | .ok (_, .directory) => .error .isADirectory
  | .ok (_, .file bytes) => (Text.decode bytes).mapError fun _ => .notText

def namesIn (tree : FileTree) (place : List String) : List String :=
  (tree.nodes.filterMap fun (below, _) =>
    if place.isPrefixOf below then (below.drop place.length).head? else none).eraseDups

def list (tree : FileTree) (path : String) : Except FileFault (List String) :=
  match tree.find path with
  | .error fault => .error fault
  | .ok (_, .file _) => .error .notADirectory
  | .ok (place, .directory) => .ok (tree.namesIn place)

def fileSystem (tree : FileTree) : FileSystem where
  isPresent path := (tree.find path).isOk
  read := tree.read
  list := tree.list

end FileTree

end VisualNovel
