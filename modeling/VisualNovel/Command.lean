import VisualNovel.Player
import VisualNovel.Shelf
import VisualNovel.Lint

namespace VisualNovel.Command

inductive Task where
  | play
  | check
  deriving DecidableEq

structure Options where
  script : String
  catalog : Option String
  settings : Option String
  debug : Bool
  deriving DecidableEq

inductive UsageFault where
  | unknownCommand (name : String)
  | unknownOption (flag : String)
  | noFile (flag : String)
  | unexpected (argument : String)
  | noScript
  deriving DecidableEq

def UsageFault.message : UsageFault → String
  | unknownCommand name => "Unknown command '" ++ name ++ "'"
  | unknownOption flag => "Unknown option '" ++ flag ++ "'"
  | noFile flag => flag ++ " needs a file path"
  | unexpected argument => "Unexpected argument '" ++ argument ++ "'"
  | noScript => "Missing script file path"

structure Given where
  script : Option String
  catalog : Option String
  settings : Option String
  debug : Bool

/-- Reads options one after the other; a later one takes the place of an earlier one. -/
def Given.read (given : Given) : List String → Except UsageFault Options
  | [] =>
      match given.script with
      | some script => .ok ⟨script, given.catalog, given.settings, given.debug⟩
      | none => .error .noScript
  | "--resources" :: path :: rest => { given with catalog := some path }.read rest
  | ["--resources"] => .error (.noFile "--resources")
  | "--config" :: path :: rest => { given with settings := some path }.read rest
  | ["--config"] => .error (.noFile "--config")
  | "--debug" :: rest => { given with debug := true }.read rest
  | argument :: rest =>
      if ['-', '-'].isPrefixOf argument.toList then .error (.unknownOption argument)
      else
        match given.script with
        | none => { given with script := some argument }.read rest
        | some _ => .error (.unexpected argument)

def Options.read : List String → Except UsageFault Options :=
  Given.read ⟨none, none, none, false⟩

inductive Request where
  | nothing
  | help
  | run (task : Task) (options : Options)
  deriving DecidableEq

def Request.read : List String → Except UsageFault Request
  | [] => .ok .nothing
  | "play" :: rest => (Options.read rest).map (.run .play)
  | "check" :: rest => (Options.read rest).map (.run .check)
  | "--help" :: _ | "-h" :: _ => .ok .help
  | name :: _ => .error (.unknownCommand name)

def usage : String :=
  "tsuzuri - Visual Novel Scene Interpreter\n\n"
    ++ "USAGE:\n"
    ++ "    tsuzuri play <script.json> [OPTIONS]\n"
    ++ "    tsuzuri check <script.json> [OPTIONS]\n\n"
    ++ "COMMANDS:\n"
    ++ "    play <file>     Play a script in the terminal\n"
    ++ "    check <file>    Report problems in a script without playing it\n"
    ++ "    --help, -h      Show this help message\n\n"
    ++ "OPTIONS:\n"
    ++ "    --resources <file>    Resource table (default: resources.json next to the script)\n"
    ++ "    --config <file>       Engine configuration JSON\n"
    ++ "    --debug               Log interpreter activity to stderr\n\n"
    ++ "ENVIRONMENT:\n"
    ++ "    TSUZURI_DEBUG    Same as --debug when set\n"

namespace Options

def shelf? (options : Options) : Except ShelfFault (Shelf × String) := do
  let (shelf, id) ← Shelf.ofScript? options.script
  match options.catalog with
  | some path => return (shelf.withCatalog path, id)
  | none => return (shelf, id)

def paths (options : Options) : List String :=
  match options.shelf? with
  | .ok (shelf, id) => [shelf.scriptPath id, shelf.catalogPath] ++ options.settings.toList
  | .error _ => []

/-- The filter of the journal; asking for it on the command line opens all categories. -/
def filter (environment : Bool) (options : Options) : Journal.Filter :=
  if options.debug then (Journal.Filter.standard true).allCategories else .standard environment

end Options

structure Loaded where
  id : String
  script : Script
  catalog : Catalog

def load (files : FileSystem) (options : Options) :
    Except ShelfFault Loaded × List Journal.Record :=
  match options.shelf? with
  | .error fault => (.error fault, [])
  | .ok (shelf, id) =>
      match shelf.script files id with
      | (.error fault, noted) => (.error fault, noted)
      | (.ok script, noted) =>
          let (catalog, later) := shelf.catalog files
          (catalog.map fun catalog => ⟨id, script, catalog⟩, noted ++ later)

def loadSettings (files : FileSystem) (options : Options) : Except String Settings :=
  match options.settings with
  | none => .ok .standard
  | some path =>
      match files.read path with
      | .error fault => .error fault.message
      | .ok text => (Settings.format.ofText? text).mapError fun fault => fault.messageIn text

structure Outcome where
  output : List Output
  code : Nat
  deriving DecidableEq

def failed (output : List Output) (message : String) : Outcome :=
  ⟨output ++ [.complaint ("Error: " ++ message ++ "\n")], 1⟩

def misused (fault : UsageFault) : Outcome :=
  ⟨[.complaint ("Error: " ++ fault.message ++ "\n\n"), .text usage], 1⟩

def check (files : FileSystem) (options : Options) : Outcome :=
  match load files options with
  | (.error fault, noted) => failed (noted.map .record) fault.messageWithPlace
  | (.ok loaded, noted) =>
      let table := if loaded.catalog.isEmpty then none else some loaded.catalog.table
      let report := Lint.report loaded.script table
      ⟨noted.map .record ++ [.text (report.text loaded.id)], if report.hasErrors then 2 else 0⟩

structure Opening where
  noted : List Journal.Record
  stage : Stage
  script : Script

def opening (files : FileSystem) (options : Options) : Except Outcome Opening :=
  match load files options with
  | (.error fault, noted) => .error (failed (noted.map .record) fault.messageWithPlace)
  | (.ok loaded, noted) =>
      match loadSettings files options with
      | .error message => .error (failed (noted.map .record) message)
      | .ok settings => .ok ⟨noted, ⟨loaded.catalog.table, settings, .accepting⟩, loaded.script⟩

def closing (noted : List Journal.Record) (ending : Player.Ending) (player : Player) : Outcome :=
  let output := noted.map .record ++ player.output.toList
  match ending with
  | .finished => ⟨output, 0⟩
  | .unreadable fault => failed output fault.message

def play (files : FileSystem) (options : Options) (lines : List Line) : Option Outcome :=
  match opening files options with
  | .error outcome => some outcome
  | .ok opening =>
      (Player.play opening.stage options.debug opening.script lines).map fun (ending, player) =>
        closing opening.noted ending player

/-- Runs the program on its arguments and the lines that are entered; nothing, if it never
ends. -/
def run (files : FileSystem) (arguments : List String) (lines : List Line) : Option Outcome :=
  match Request.read arguments with
  | .error fault => some (misused fault)
  | .ok .nothing => some ⟨[.text usage], 1⟩
  | .ok .help => some ⟨[.text usage], 0⟩
  | .ok (.run .check options) => some (check files options)
  | .ok (.run .play options) => play files options lines

def filterOf (environment : Bool) (arguments : List String) : Journal.Filter :=
  match Request.read arguments with
  | .ok (.run _ options) => options.filter environment
  | _ => .standard environment

end VisualNovel.Command
