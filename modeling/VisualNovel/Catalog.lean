import VisualNovel.Json.Record

/-!
Tables of assets. A table says what the ids of a script stand for; where it does not know an id,
the id itself serves as the asset. A catalog is a table that is read from a text.
-/

namespace VisualNovel

open Json

/-- A table finds nothing unless told otherwise, and knows the characters that it can name. -/
structure AssetTable where
  characterName : String → Option String := fun _ => none
  firstState : String → Option String := fun _ => none
  stateAsset : (id state : String) → Option String := fun _ _ => none
  background : String → Option String := fun _ => none
  audio : String → Option String := fun _ => none
  hasCharacter : String → Bool := fun id => (characterName id).isSome

structure StateAsset where
  id : String
  source : String
  deriving DecidableEq

def StateAsset.format : Format StateAsset :=
  .record "struct StateDef"
    (.need "id" .text <| .need "src" .text .done)
    (fun (id, source, ()) => ⟨id, source⟩)
    (fun state => (state.id, state.source, ()))

structure CharacterEntry where
  name : String
  states : List StateAsset
  deriving DecidableEq

namespace CharacterEntry

def format : Format CharacterEntry :=
  .record "struct CharacterDef"
    (.need "name" .text <| .withDefault "states" (.list StateAsset.format) [] .done)
    (fun (name, states, ()) => ⟨name, states⟩)
    (fun entry => (entry.name, entry.states, ()))

def asset? (entry : CharacterEntry) (state : String) : Option String :=
  (entry.states.find? (fun candidate => candidate.id = state)).map (·.source)

end CharacterEntry

structure Catalog where
  characters : Dict CharacterEntry
  backgrounds : Dict String
  audio : Dict String
  deriving DecidableEq

namespace Catalog

def empty : Catalog := ⟨.empty, .empty, .empty⟩

def format : Format Catalog :=
  .record "struct AssetCatalog"
    (.withDefault "characters" (.dict CharacterEntry.format) .empty <|
      .withDefault "backgrounds" (.dict .text) .empty <|
      .withDefault "audio" (.dict .text) .empty .done)
    (fun (characters, backgrounds, audio, ()) => ⟨characters, backgrounds, audio⟩)
    (fun catalog => (catalog.characters, catalog.backgrounds, catalog.audio, ()))

def isEmpty (catalog : Catalog) : Bool :=
  catalog.characters.isEmpty && catalog.backgrounds.isEmpty && catalog.audio.isEmpty

def withCharacter (catalog : Catalog) (id name : String) (states : List StateAsset) : Catalog :=
  { catalog with characters := catalog.characters.insert id ⟨name, states⟩ }

def withBackground (catalog : Catalog) (id source : String) : Catalog :=
  { catalog with backgrounds := catalog.backgrounds.insert id source }

def withAudio (catalog : Catalog) (id source : String) : Catalog :=
  { catalog with audio := catalog.audio.insert id source }

def rebuild (catalog : Catalog) : Catalog :=
  let characters := catalog.characters.entries.foldl
    (fun built (id, entry) => built.withCharacter id entry.name entry.states) empty
  let backgrounds := catalog.backgrounds.entries.foldl
    (fun built (id, source) => built.withBackground id source) characters
  catalog.audio.entries.foldl (fun built (id, source) => built.withAudio id source) backgrounds

def table (catalog : Catalog) : AssetTable where
  characterName id := (catalog.characters.get? id).map (·.name)
  firstState id := (catalog.characters.get? id).bind (·.states.head?) |>.map (·.id)
  stateAsset id state := (catalog.characters.get? id).bind (·.asset? state)
  background := catalog.backgrounds.get?
  audio := catalog.audio.get?
  hasCharacter := catalog.characters.contains

end Catalog

end VisualNovel
