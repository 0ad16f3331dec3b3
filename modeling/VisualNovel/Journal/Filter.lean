import VisualNovel.Journal.Record

/-!
Which records of the journal are printed. Warnings and errors always are; others only where the
filter is enabled, down to its level and for its categories.
-/

namespace VisualNovel.Journal

open Json

inductive Category where
  | engine
  | flow
  | resources
  | audio
  deriving DecidableEq

namespace Category

def name : Category → String
  | engine => "Engine"
  | flow => "Flow"
  | resources => "Resources"
  | audio => "Audio"

def all : List Category := [engine, flow, resources, audio]

def ofTarget? : String → Option Category
  | "engine" => some engine
  | "flow" => some flow
  | "resources" => some resources
  | "audio" => some audio
  | _ => none

def format : Format Category :=
  .names (all.map fun category => (category.name, category)) name

end Category

structure Filter where
  enabled : Bool
  level : Level
  categories : List Category
  deriving DecidableEq

namespace Filter

def standard (enabled : Bool) : Filter :=
  ⟨enabled, .debug, [.engine, .flow]⟩

def allCategories (filter : Filter) : Filter :=
  { filter with categories := filter.categories ++ [.resources, .audio] }

def sortedCategories (filter : Filter) : List Category :=
  [.audio, .engine, .flow, .resources].filter (· ∈ filter.categories)

def format : Format Filter :=
  .record "struct DebugConfig"
    (.need "enabled" .boolean <| .need "level" Level.format <|
      .need "categories" (.list Category.format) .done)
    (fun (enabled, level, categories, ()) => ⟨enabled, level, categories⟩)
    (fun filter => (filter.enabled, filter.level, filter.sortedCategories, ()))

def allows (filter : Filter) (level : Level) (target : String) : Bool :=
  if level.rank ≤ Level.warn.rank then true
  else if !filter.enabled || filter.level.rank < level.rank then false
  else match Category.ofTarget? target with
    | some category => category ∈ filter.categories
    | none => false

/-- The least severe level of which records reach the filter at all. -/
def maxLevel (filter : Filter) : Level :=
  if filter.enabled && Level.warn.rank < filter.level.rank then filter.level else .warn

def prints (filter : Filter) (record : Record) : Bool :=
  record.level.rank ≤ filter.maxLevel.rank && filter.allows record.level record.target

end Filter

def padded (width : Nat) (text : String) : String :=
  text ++ String.ofList (List.replicate (width - text.length) ' ')

def Record.line (record : Record) : String :=
  "[" ++ padded 5 record.level.label ++ "] " ++ padded 10 record.target ++ " "
    ++ record.message ++ "\n"

def printed (filter : Filter) (records : List Record) : String :=
  String.join ((records.filter filter.prints).map Record.line)

def alreadyOpen : String :=
  "attempted to set a logger after the logging system was already initialized"

end VisualNovel.Journal
