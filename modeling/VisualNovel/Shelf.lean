import VisualNovel.File.Path
import VisualNovel.File.Access
import VisualNovel.Script.Reading
import VisualNovel.Catalog

/-!
Shelves of scripts. A shelf is a directory that holds a script in the file `ID.json` for each id,
and next to them may hold a catalog; a box holds scripts and a catalog in memory. Where there is
no catalog, an empty one takes its place.
-/

namespace VisualNovel

inductive ShelfFault where
  | notAScriptPath (path : String)
  | noScript (id : String)
  | unreadableScript (path : String) (fault : FileFault)
  | unreadableCatalog (path : String) (fault : FileFault)
  | unreadableDirectory (path : String) (fault : FileFault)
  | brokenScript (id text : String) (fault : ScriptFault)
  | brokenCatalog (text : String) (fault : Json.Fault)
  deriving DecidableEq

namespace ShelfFault

def messageWith (wording : String → Json.Fault → String) : ShelfFault → String
  | notAScriptPath path => "Invalid format: Not a script path: " ++ path
  | noScript id => "Script not found: " ++ id
  | unreadableScript path fault =>
      "IO error: Failed to read script file " ++ path ++ ": " ++ fault.message
  | unreadableCatalog path fault =>
      "IO error: Failed to read resource table " ++ path ++ ": " ++ fault.message
  | unreadableDirectory path fault =>
      "IO error: Failed to read directory " ++ path ++ ": " ++ fault.message
  | brokenScript id text fault =>
      "Invalid format: Failed to parse script " ++ id ++ ": " ++ fault.messageWith (wording text)
  | brokenCatalog text fault =>
      "Invalid format: Failed to parse resource table: " ++ wording text fault

def message : ShelfFault → String :=
  messageWith fun _ fault => fault.message

def messageWithPlace : ShelfFault → String :=
  messageWith fun text fault => fault.messageIn text

end ShelfFault

structure Shelf where
  directory : String
  catalogPath : String
  deriving DecidableEq

namespace Shelf

def ofDirectory (directory : String) : Shelf :=
  ⟨directory, Path.join directory "resources.json"⟩

def withCatalog (shelf : Shelf) (path : String) : Shelf :=
  { shelf with catalogPath := path }

def ofScript? (path : String) : Except ShelfFault (Shelf × String) :=
  match Path.stem? path with
  | some id => .ok (ofDirectory (Path.parent path), id)
  | none => .error (.notAScriptPath path)

def scriptPath (shelf : Shelf) (id : String) : String :=
  Path.join shelf.directory (id ++ ".json")

def loaded (id : String) (script : Script) : Journal.Record :=
  ⟨.debug, "resources",
    "loaded script '" ++ id ++ "' (" ++ toString script.length ++ " instructions)"⟩

def noCatalog (path : String) : Journal.Record :=
  ⟨.debug, "resources", "no resource table at " ++ path ++ ", ids will be used as-is"⟩

def script (files : FileSystem) (shelf : Shelf) (id : String) :
    Except ShelfFault Script × List Journal.Record :=
  let path := shelf.scriptPath id
  if files.isPresent path then
    match files.read path with
    | .error fault => (.error (.unreadableScript path fault), [])
    | .ok text =>
        let skipped := (Script.skipped text).map SkippedRecord.record
        match Script.ofText? text with
        | .error fault => (.error (.brokenScript id text fault), skipped)
        | .ok script => (.ok script, skipped ++ [loaded id script])
  else (.error (.noScript id), [])

def catalog (files : FileSystem) (shelf : Shelf) :
    Except ShelfFault Catalog × List Journal.Record :=
  if files.isPresent shelf.catalogPath then
    match files.read shelf.catalogPath with
    | .error fault => (.error (.unreadableCatalog shelf.catalogPath fault), [])
    | .ok text => ((Catalog.format.ofText? text).mapError (.brokenCatalog text), [])
  else (.ok .empty, [noCatalog shelf.catalogPath])

def idOf? (shelf : Shelf) (name : String) : Option String :=
  let path := Path.join shelf.directory name
  if Path.parts path = Path.parts shelf.catalogPath then none
  else if Path.ending? path = some "json" then Path.stem? path
  else none

def ids (files : FileSystem) (shelf : Shelf) : Except ShelfFault (List String) :=
  match files.list shelf.directory with
  | .error fault => .error (.unreadableDirectory shelf.directory fault)
  | .ok names => .ok ((names.filterMap shelf.idOf?).mergeSort fun first second => first ≤ second)

end Shelf

structure Box where
  scripts : Dict Script
  catalog : Catalog
  deriving DecidableEq

namespace Box

def script (box : Box) (id : String) : Except ShelfFault Script :=
  match box.scripts.get? id with
  | some script => .ok script
  | none => .error (.noScript id)

def ids (box : Box) : List String :=
  box.scripts.keys

end Box

end VisualNovel
