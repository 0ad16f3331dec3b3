import VisualNovel.File.Tree
import VisualNovel.Shelf
import VisualNovel.Proofs.Paths
import Mathlib.Data.String.Basic

/-!
Shelves that are opened for the path of a script. The script that such a shelf loads lies in the
directory of the path; it is the one at the path if the path ends in `.json`, and another one
otherwise.

Main statement: `ofScript?_loads`, for all paths and trees.
-/

namespace VisualNovel

namespace FileTree

variable {tree : FileTree} {place : List String}

theorem walk_missing (missing : tree.nodeAt? place = none) (pieces : List (List Char)) :
    tree.walk place pieces = .error .missing := by
  cases pieces <;> simp only [walk, missing]

theorem walk_append (first second : List (List Char)) :
    tree.walk place (first ++ second) =
      (tree.walk place first).bind fun found => tree.walk found.1 second := by
  induction first generalizing place with
  | nil =>
      rw [List.nil_append, walk]
      cases here : tree.nodeAt? place with
      | none => exact walk_missing here second
      | some node => rfl
  | cons piece first ih =>
      simp only [List.cons_append, walk]
      split
      · rfl
      · rfl
      · split
        · split
          · rfl
          · exact ih
        · exact ih
        · exact ih

theorem walk_silent {gap rest : List (List Char)} (silent : ∀ piece ∈ gap, Path.isSilent piece)
    (nonempty : rest ≠ []) : tree.walk place (gap ++ rest) = tree.walk place rest := by
  induction gap with
  | nil => rfl
  | cons piece gap ih =>
      rw [← ih fun piece member => silent piece (.tail _ member)]
      have unsaid := Path.part?_eq_none_iff.mpr (silent piece List.mem_cons_self)
      obtain ⟨next, rest', same⟩ := List.exists_cons_of_ne_nil
        (List.append_ne_nil_of_right_ne_nil gap nonempty)
      rw [List.cons_append, same]
      cases here : tree.nodeAt? place with
      | none => rw [walk_missing here, walk_missing here]
      | some node =>
          cases node with
          | file bytes => simp only [walk, here]
          | directory =>
              conv_lhs => rw [walk]
              simp only [here, unsaid]

theorem walk_append_ok {first second : List (List Char)} {found : List String × FileNode}
    (walks : tree.walk place (first ++ second) = .ok found) :
    ∃ between, tree.walk place first = .ok between ∧
      tree.walk between.1 second = .ok found := by
  rw [walk_append] at walks
  cases leads : tree.walk place first with
  | error fault =>
      rw [leads] at walks
      cases walks
  | ok between =>
      rw [leads] at walks
      exact ⟨between, rfl, walks⟩

theorem walk_of_silent_end {first rest : List (List Char)} {found : List String × FileNode}
    (silent : ∀ piece ∈ rest, Path.isSilent piece)
    (walks : tree.walk place (first ++ rest) = .ok found) : tree.walk place first = .ok found := by
  induction rest generalizing first with
  | nil => rwa [List.append_nil] at walks
  | cons piece rest ih =>
      have unsaid := Path.part?_eq_none_iff.mpr (silent piece List.mem_cons_self)
      refine ih (fun piece member => silent piece (.tail _ member)) ?_
      obtain ⟨between, leads, walks⟩ := walk_append_ok walks
      rw [walk_append, leads]
      rw [walk] at walks
      split at walks
      · cases walks
      · cases walks
      · rwa [unsaid] at walks

theorem walk_name {name : String} {found : List String × FileNode}
    (names : Path.part? name.toList = some (.name name))
    (walks : tree.walk place [name.toList] = .ok found) : found.1 = place ++ [name] := by
  rw [walk] at walks
  split at walks
  · cases walks
  · cases walks
  · rw [names] at walks
    simp only at walks
    split at walks
    · cases walks
    · rw [walk] at walks
      split at walks <;> cases walks
      rfl

def start (tree : FileTree) (way : List (List Char)) : List String :=
  if way.head? = some [] then [] else tree.here

section Finding

variable {path name : String} {way : List (List Char)} {found : List String × FileNode}
  (reaches : Path.Reaches path way name)
include reaches

theorem find_of_reaches : tree.find path =
    if '\x00' ∈ path.toList then .error .nameWithNul
    else if pathLimit < path.utf8ByteSize then .error .nameTooLong
    else tree.walk (tree.start way) (Path.pieces path) := by
  have nonempty : path ≠ "" := by
    rintro rfl
    have parts := reaches.parts_eq
    rw [show Path.parts "" = [] by decide] at parts
    exact List.append_ne_nil_of_right_ne_nil _ (List.cons_ne_nil _ _) parts.symm
  unfold find start
  simp only [nonempty, ↓reduceIte, reaches.isAbsolute_iff]

theorem find_ok (finds : tree.find path = .ok found) :
    tree.walk (tree.start way) (way ++ [name.toList]) = .ok found ∧
      ∃ directory, tree.walk (tree.start way) way = .ok directory ∧
        found.1 = directory.1 ++ [name] := by
  have walks : tree.walk (tree.start way) (Path.pieces path) = .ok found := by
    rw [find_of_reaches reaches] at finds
    split at finds
    · cases finds
    · split at finds
      · cases finds
      · exact finds
  obtain ⟨gap, rest, pieces, gaps, rests, -⟩ := reaches.pieces
  rw [pieces, List.append_assoc] at walks
  obtain ⟨directory, leads, walks⟩ := walk_append_ok walks
  rw [walk_silent gaps (List.cons_ne_nil _ _)] at walks
  have here : tree.walk directory.1 [name.toList] = .ok found := walk_of_silent_end rests walks
  constructor
  · rw [walk_append, leads]
    exact here
  · exact ⟨directory, leads, walk_name reaches.names here⟩

theorem find_shortest {shortest : String} (only : Path.pieces shortest = way ++ [name.toList])
    (finds : tree.find path = .ok found) : tree.find shortest = .ok found := by
  have walks := (find_ok reaches finds).1
  have sublist := reaches.sublist only
  rw [find_of_reaches (Path.reaches_of_pieces reaches.names only), only, walks]
  rw [find_of_reaches reaches] at finds
  split at finds
  · cases finds
  next plain =>
  split at finds
  · cases finds
  next short =>
  -- What is refused before the walk, by its characters or its length, was refused already.
  have plain' : '\x00' ∉ shortest.toList := fun within => plain (sublist.subset within)
  have short' : ¬pathLimit < shortest.utf8ByteSize := by
    have size := String.utf8Len_le_of_sublist sublist
    rw [← String.utf8ByteSize_ofList, ← String.utf8ByteSize_ofList, String.ofList_toList,
      String.ofList_toList] at size
    omega
  rw [if_neg plain', if_neg short']

end Finding

theorem read_ok {path text : String} (reads : tree.read path = .ok text) :
    ∃ found, tree.find path = .ok found := by
  unfold read at reads
  split at reads
  · cases reads
  · next finds => exact ⟨_, finds⟩
  · next finds => exact ⟨_, finds⟩

theorem read_of_find {path other : String} (same : tree.find other = tree.find path) :
    tree.read other = tree.read path := by
  rw [read, read, same]

end FileTree

namespace Shelf

variable {path id : String} {shelf : Shelf}

theorem part?_file (id : String) :
    Path.part? (id ++ ".json").toList = some (.name (id ++ ".json")) := by
  have long : 5 ≤ (id ++ ".json").toList.length := by simp
  have unlike (piece : List Char) (short : piece.length < 5) :
      (id ++ ".json").toList ≠ piece := by
    rintro rfl
    omega
  have telling : Path.isSilent (id ++ ".json").toList = false := by
    rw [Path.isSilent, decide_eq_false (unlike [] (by decide)),
      decide_eq_false (unlike ['.'] (by decide))]
    rfl
  rw [Path.part?, telling, if_neg Bool.false_ne_true, if_neg (unlike ['.', '.'] (by decide)),
    String.ofList_toList]

theorem script_of_read {tree : FileTree} {text : String}
    (reads : tree.read (shelf.scriptPath id) = .ok text) :
    (shelf.script tree.fileSystem id).1 =
      (Script.ofText? text).mapError (.brokenScript id text) := by
  obtain ⟨found, finds⟩ := FileTree.read_ok reads
  have present : tree.fileSystem.isPresent (shelf.scriptPath id) := by
    simp only [FileTree.fileSystem, finds]
    rfl
  have reads : tree.fileSystem.read (shelf.scriptPath id) = .ok text := reads
  simp only [script, present, reads, ↓reduceIte]
  cases Script.ofText? text <;> rfl

/-- What a shelf loads under an id that were both made from a path: the script `id.json` next to
it, which is the one at the path itself if that ends so. -/
structure Loads (path : String) (shelf : Shelf) (id : String) : Prop where
  beside : ∃ directory name, Path.parts path = directory ++ [.name name] ∧
    Path.parts (shelf.scriptPath id) = directory ++ [.name (id ++ ".json")]
  parts : Path.parts (shelf.scriptPath id) = Path.parts path ↔ Path.ending? path = some "json"
  places : ∀ {tree : FileTree} {found other}, tree.find path = .ok found →
    tree.find (shelf.scriptPath id) = .ok other →
    (other.1 = found.1 ↔ Path.ending? path = some "json")
  found : Path.ending? path = some "json" → ∀ {tree : FileTree} {found},
    tree.find path = .ok found → tree.find (shelf.scriptPath id) = .ok found
  script : Path.ending? path = some "json" → ∀ {tree : FileTree} {text},
    tree.read path = .ok text → (shelf.script tree.fileSystem id).1 =
      (Script.ofText? text).mapError (.brokenScript id text)

theorem ofScript?_ok (opened : ofScript? path = .ok (shelf, id)) :
    shelf = ofDirectory (Path.parent path) ∧ Path.stem? path = some id := by
  unfold ofScript? at opened
  split at opened
  · next stem =>
      cases opened
      exact ⟨rfl, stem⟩
  · cases opened

theorem loads_beside (opened : ofScript? path = .ok (shelf, id)) : Loads path shelf id := by
  obtain ⟨rfl, stem⟩ := ofScript?_ok opened
  obtain ⟨name, named, -⟩ := Option.map_eq_some_iff.mp stem
  obtain ⟨way, reaches, below⟩ := Path.reaches_of_fileName? named
  let shelf := ofDirectory (Path.parent path)
  have plain : '/' ∉ (id ++ ".json").toList := by
    have plain := Path.slash_not_mem_stem stem
    simpa using plain
  have only : Path.pieces (shelf.scriptPath id) = way ++ [(id ++ ".json").toList] :=
    below (id ++ ".json") plain
  have file := Path.reaches_of_pieces (part?_file id) only
  have ends : id ++ ".json" = name ↔ Path.ending? path = some "json" := by
    rw [← Path.stem_append_eq_iff named stem, String.append_assoc]
    rfl
  have found (ending : Path.ending? path = some "json") {tree : FileTree}
      {found : List String × FileNode} (finds : tree.find path = .ok found) :
      tree.find (shelf.scriptPath id) = .ok found := by
    rw [ends.mpr ending] at only
    exact FileTree.find_shortest reaches only finds
  constructor
  · exact ⟨Path.partsOf way, name, reaches.parts_eq, file.parts_eq⟩
  · rw [file.parts_eq, reaches.parts_eq, ← ends]
    simp
  · intro tree place other finds finds'
    obtain ⟨-, directory, leads, place_eq⟩ := FileTree.find_ok reaches finds
    obtain ⟨-, directory', leads', other_eq⟩ := FileTree.find_ok file finds'
    cases leads.symm.trans leads'
    rw [place_eq, other_eq, ← ends]
    simp
  · exact found
  · intro ending tree text reads
    apply script_of_read
    obtain ⟨place, finds⟩ := FileTree.read_ok reads
    rw [FileTree.read_of_find ((found ending finds).trans finds.symm), reads]

theorem loads_beside_hidden :
    let tree : FileTree :=
      ⟨[(["home", "d", ".b.json"], .file (Text.encode "[]"))], ["home"]⟩
    let shelf := ofDirectory "./d"
    ofScript? "./d//.b.json" = .ok (shelf, ".b") ∧ Path.ending? "./d//.b.json" = some "json" ∧
      Path.parts (shelf.scriptPath ".b") = Path.parts "./d//.b.json" ∧
      tree.read "./d//.b.json" = .ok "[]" ∧
      (shelf.script tree.fileSystem ".b").1 = .ok ⟨[]⟩ := by
  intro tree shelf
  have opened : ofScript? "./d//.b.json" = .ok (shelf, ".b") := by decide +kernel
  have ending : Path.ending? "./d//.b.json" = some "json" := by decide +kernel
  have finds : tree.find "./d//.b.json" =
      .ok (["home", "d", ".b.json"], .file (Text.encode "[]")) := by decide +kernel
  have reads : tree.read "./d//.b.json" = .ok "[]" := by
    simp only [FileTree.read, finds, Text.decode_encode]
    rfl
  have loads := loads_beside opened
  refine ⟨opened, ending, loads.parts.mpr ending, reads, ?_⟩
  rw [loads.script ending reads, show Script.ofText? "[]" = .ok ⟨[]⟩ by decide +kernel]
  rfl

theorem loads_another :
    let tree : FileTree :=
      ⟨[(["a.txt"], .file (Text.encode "[]")), (["a.json"], .file (Text.encode "0"))], []⟩
    let shelf := ofDirectory ""
    ofScript? "a.txt" = .ok (shelf, "a") ∧
      Path.parts (shelf.scriptPath "a") ≠ Path.parts "a.txt" ∧
      tree.read "a.txt" = .ok "[]" ∧ Script.ofText? "[]" = .ok ⟨[]⟩ ∧
      (shelf.script tree.fileSystem "a").1 = .error (.brokenScript "a" "0" .notASequence) := by
  intro tree shelf
  have finds : tree.find "a.txt" = .ok (["a.txt"], .file (Text.encode "[]")) := by decide +kernel
  have finds' : tree.find (shelf.scriptPath "a") =
      .ok (["a.json"], .file (Text.encode "0")) := by decide +kernel
  have reads' : tree.read (shelf.scriptPath "a") = .ok "0" := by
    simp only [FileTree.read, finds', Text.decode_encode]
    rfl
  refine ⟨by decide +kernel, by decide +kernel, ?_, by decide +kernel, ?_⟩
  · simp only [FileTree.read, finds, Text.decode_encode]
    rfl
  · rw [script_of_read reads',
      show Script.ofText? "0" = .error .notASequence by decide +kernel]
    rfl

end Shelf

end VisualNovel
