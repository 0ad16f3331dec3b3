import VisualNovel.Catalog
import VisualNovel.Command
import VisualNovel.Diagnostic
import VisualNovel.Dict
import VisualNovel.File.Access
import VisualNovel.File.Path
import VisualNovel.File.Tree
import VisualNovel.Fingerprint
import VisualNovel.Interpreter.Execution
import VisualNovel.Interpreter.Operations
import VisualNovel.Interpreter.State
import VisualNovel.Journal.Filter
import VisualNovel.Journal.Record
import VisualNovel.Json.Fault
import VisualNovel.Json.Format
import VisualNovel.Json.Lexeme
import VisualNovel.Json.Printer
import VisualNovel.Json.Reader
import VisualNovel.Json.Record
import VisualNovel.Json.Tagged
import VisualNovel.Json.Value
import VisualNovel.Json.Variants
import VisualNovel.Lint
import VisualNovel.Main
import VisualNovel.Number.Binary64
import VisualNovel.Number.Shortest
import VisualNovel.Player
import VisualNovel.Proofs.Alike
import VisualNovel.Proofs.Assets
import VisualNovel.Proofs.Blocking
import VisualNovel.Proofs.CanonicalText
import VisualNovel.Proofs.Course
import VisualNovel.Proofs.Dicts
import VisualNovel.Proofs.DirectReading
import VisualNovel.Proofs.Display
import VisualNovel.Proofs.Effects
import VisualNovel.Proofs.Execution
import VisualNovel.Proofs.Firing
import VisualNovel.Proofs.Forecast
import VisualNovel.Proofs.Interference
import VisualNovel.Proofs.Issues
import VisualNovel.Proofs.Itinerary
import VisualNovel.Proofs.Json.Acceptance
import VisualNovel.Proofs.Json.Formats
import VisualNovel.Proofs.Json.Items
import VisualNovel.Proofs.Json.Order
import VisualNovel.Proofs.Json.Origins
import VisualNovel.Proofs.Json.Parts
import VisualNovel.Proofs.Json.Records
import VisualNovel.Proofs.Json.Straight
import VisualNovel.Proofs.Json.Unambiguous
import VisualNovel.Proofs.Json.Values
import VisualNovel.Proofs.Json.Words
import VisualNovel.Proofs.Labels
import VisualNovel.Proofs.Landing
import VisualNovel.Proofs.Linting
import VisualNovel.Proofs.Lockstep
import VisualNovel.Proofs.Menus
import VisualNovel.Proofs.Mirror
import VisualNovel.Proofs.Mistyping
import VisualNovel.Proofs.Moves
import VisualNovel.Proofs.NewRuns
import VisualNovel.Proofs.Overlay
import VisualNovel.Proofs.Ownership
import VisualNovel.Proofs.Passages
import VisualNovel.Proofs.Past
import VisualNovel.Proofs.Paths
import VisualNovel.Proofs.Playback
import VisualNovel.Proofs.Plays
import VisualNovel.Proofs.Positions
import VisualNovel.Proofs.Printing
import VisualNovel.Proofs.Refusals
import VisualNovel.Proofs.Rehearsing
import VisualNovel.Proofs.Reports
import VisualNovel.Proofs.Restoring
import VisualNovel.Proofs.Resumption
import VisualNovel.Proofs.Revealing
import VisualNovel.Proofs.Runs
import VisualNovel.Proofs.Saves
import VisualNovel.Proofs.ScriptFormat
import VisualNovel.Proofs.Shelves
import VisualNovel.Proofs.Slicing
import VisualNovel.Proofs.Standing
import VisualNovel.Proofs.Stretches
import VisualNovel.Proofs.Telling
import VisualNovel.Proofs.Timers
import VisualNovel.Proofs.Timing
import VisualNovel.Proofs.Waiting
import VisualNovel.Rehearsal
import VisualNovel.Reveal
import VisualNovel.SavePoint
import VisualNovel.Scene
import VisualNovel.Screen
import VisualNovel.Script.Basic
import VisualNovel.Script.Instruction
import VisualNovel.Script.Reading
import VisualNovel.Settings
import VisualNovel.Shelf
import VisualNovel.Stage
import VisualNovel.Targets
import VisualNovel.Text.Blank
import VisualNovel.Text.Bytes
import VisualNovel.Text.Invisible
import VisualNovel.Text.Quoted
import VisualNovel.Text.Utf8
import VisualNovel.Transcript
