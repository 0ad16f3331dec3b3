import VisualNovel.Json.Variants

namespace VisualNovel.Journal

inductive Level where
  | error
  | warn
  | info
  | debug
  | trace
  deriving DecidableEq

namespace Level

def rank : Level → Nat
  | error => 1
  | warn => 2
  | info => 3
  | debug => 4
  | trace => 5

def label : Level → String
  | error => "ERROR"
  | warn => "WARN"
  | info => "INFO"
  | debug => "DEBUG"
  | trace => "TRACE"

def name : Level → String
  | error => "Error"
  | warn => "Warn"
  | info => "Info"
  | debug => "Debug"
  | trace => "Trace"

def format : Json.Format Level :=
  .names ([trace, debug, info, warn, error].map fun level => (level.name, level)) name

end Level

structure Record where
  level : Level
  target : String
  message : String
  deriving DecidableEq

end VisualNovel.Journal
