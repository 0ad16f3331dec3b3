import VisualNovel.Command

namespace VisualNovel.Command

def faultOf : IO.Error → FileFault
  | .noFileOrDirectory .. => .missing
  | .inappropriateType _ code _ => if code = 21 then .isADirectory else .notADirectory
  | .invalidArgument _ 36 _ => .nameTooLong
  | error => .other (toString error)

def readText (path : String) : IO (Except FileFault String) := do
  try
    let bytes ← IO.FS.readBinFile path
    return (Text.decode bytes.toList).mapError fun _ => .notText
  catch error => return .error (faultOf error)

def filesAt (paths : List String) : IO FileSystem := do
  let found ← paths.mapM fun path => return (path, ← readText path)
  let at? := fun path => (found.lookup path).getD (.error .missing)
  return {
    isPresent := fun path =>
      match at? path with
      | .error .missing | .error .notADirectory | .error .nameTooLong => false
      | _ => true
    read := at?
    list := fun _ => .error .notADirectory }

def emit (filter : Journal.Filter) (output : Output) : IO Unit := do
  IO.print (Output.screen [output])
  (← IO.getStdout).flush
  IO.eprint (Output.margin filter [output])

def pause (duration : Nat) : IO Unit := do
  let hour := 3600000
  for _ in [0 : duration / hour] do
    IO.sleep hour.toUInt32
  IO.sleep (duration % hour).toUInt32

partial def bytesOfLine (read : Array UInt8) : IO (Array UInt8) := do
  match (← (← IO.getStdin).read 1).toList with
  | [] => return read
  | bytes => if bytes = [10] then return read ++ bytes else bytesOfLine (read ++ bytes)

def nextLine : IO (Option Line) := do
  return (Line.all (← bytesOfLine #[]).toList).head?

partial def perform (filter : Journal.Filter) (opening : Opening) (debug : Bool) (shown : Nat)
    (player : Player) : IO UInt32 := do
  let seen := player.output.size
  for output in player.output.extract shown seen do
    emit filter output
  let go := perform filter opening debug seen
  let close (ending : Player.Ending) (player : Player) : IO UInt32 := do
    let outcome := closing [] ending player
    for output in outcome.output.drop seen do
      emit filter output
    return outcome.code.toUInt32
  match player.awaited with
  | .timer after wake =>
      pause after
      go (player.fire opening.stage debug wake)
  | .nothing => close .finished player.finish
  | _ =>
      match ← nextLine with
      | none => close .finished player.finish
      | some (.unreadable fault) => close (.unreadable fault) player
      | some (.text content) => go (player.enter opening.stage debug (.ofLine content))

def beginPlay (filter : Journal.Filter) (opening : Opening) (debug : Bool) : IO UInt32 := do
  for noted in opening.noted do
    emit filter (.record noted)
  perform filter opening debug 0 (.start opening.stage debug opening.script)

def conclude (filter : Journal.Filter) (outcome : Outcome) : IO UInt32 := do
  for output in outcome.output do
    emit filter output
  return outcome.code.toUInt32

end VisualNovel.Command

open VisualNovel VisualNovel.Command in
def main (arguments : List String) : IO UInt32 := do
  let environment := (← IO.getEnv "TSUZURI_DEBUG").isSome
  let filter := filterOf environment arguments
  match Request.read arguments with
  | .ok (.run .play options) =>
      match opening (← filesAt options.paths) options with
      | .ok opening => beginPlay filter opening options.debug
      | .error outcome => conclude filter outcome
  | .ok (.run .check options) => conclude filter (check (← filesAt options.paths) options)
  | _ => conclude filter ((run (← filesAt []) arguments []).getD ⟨[], 0⟩)
