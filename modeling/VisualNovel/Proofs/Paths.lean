import VisualNovel.File.Path
import Mathlib.Data.List.DropRight
import Mathlib.Data.List.TakeDrop

namespace VisualNovel.Path

theorem pieces_ofPieces {given : List (List Char)} (plain : ∀ piece ∈ given, '/' ∉ piece)
    (nonempty : given ≠ []) : pieces (ofPieces given) = given := by
  rw [pieces, ofPieces, String.toList_ofList, List.splitOn_intercalate '/' plain nonempty]

theorem not_mem_of_mem_splitOn {mark : Char} {text piece : List Char}
    (member : piece ∈ text.splitOn mark) : mark ∉ piece := by
  induction text generalizing piece with
  | nil =>
      rw [List.splitOn_nil, List.mem_singleton] at member
      rw [member]
      exact List.not_mem_nil
  | cons char text ih =>
      rw [List.splitOn_cons_eq_if_modifyHead] at member
      split at member
      · rcases List.mem_cons.mp member with rfl | member
        · exact List.not_mem_nil
        · exact ih member
      · next other =>
          cases split : text.splitOn mark with
          | nil => exact absurd split (List.splitOn_ne_nil mark text)
          | cons first rest =>
              rw [split] at ih member
              rcases List.mem_cons.mp member with rfl | member
              · rintro (_ | ⟨_, within⟩)
                · exact other BEq.rfl
                · exact ih List.mem_cons_self within
              · exact ih (.tail _ member)

theorem slash_not_mem {path : String} {piece : List Char} (member : piece ∈ pieces path) :
    '/' ∉ piece :=
  not_mem_of_mem_splitOn member

theorem isAbsolute_iff {path : String} :
    isAbsolute path ↔ path ≠ "" ∧ (pieces path).head? = some [] := by
  rw [isAbsolute, pieces, ← String.toList_inj.ne, decide_eq_true_iff]
  cases path.toList with
  | nil => simp
  | cons char text =>
      rw [List.splitOn_cons_eq_if_modifyHead]
      by_cases slash : char = '/'
      · simp [slash]
      · cases split : text.splitOn '/' with
        | nil => exact absurd split (List.splitOn_ne_nil '/' text)
        | cons first rest => simp [slash]

theorem part?_eq_none_iff {piece : List Char} : part? piece = none ↔ isSilent piece := by
  unfold part?
  split
  · next silent => simp [silent]
  · next telling =>
      split <;> simp [telling]

theorem part?_eq_name {piece : List Char} {name : String}
    (found : part? piece = some (.name name)) : name.toList = piece := by
  unfold part? at found
  split at found
  · cases found
  · split at found
    · cases found
    · cases found
      exact String.toList_ofList

/-- A path leads through the pieces of a way to a name; what stands between and after them says
nothing. -/
structure Reaches (path : String) (way : List (List Char)) (name : String) : Prop where
  names : part? name.toList = some (.name name)
  pieces : ∃ gap rest, Path.pieces path = way ++ gap ++ name.toList :: rest ∧
    (∀ piece ∈ gap, isSilent piece) ∧ (∀ piece ∈ rest, isSilent piece) ∧
    (way = [] → gap = [])

def partsOf (way : List (List Char)) : List PathPart :=
  let rest := way.filterMap part?
  if way.head? = some [] then .root :: rest
  else if way.head? = some ['.'] then .here :: rest
  else rest

namespace Reaches

variable {path name : String} {way : List (List Char)} (reaches : Reaches path way name)
include reaches

theorem telling : ¬isSilent name.toList := by
  rw [← part?_eq_none_iff, reaches.names]
  exact nofun

theorem head?_eq_some_iff {piece : List Char} (silent : isSilent piece) :
    (Path.pieces path).head? = some piece ↔ way.head? = some piece := by
  obtain ⟨gap, rest, pieces, -, -, closed⟩ := reaches.pieces
  rw [pieces]
  cases way with
  | nil =>
      rw [closed rfl]
      constructor
      · rintro ⟨⟩
        exact absurd silent reaches.telling
      · rintro ⟨⟩
  | cons first way => rfl

theorem isAbsolute_iff : isAbsolute path ↔ way.head? = some [] := by
  rw [Path.isAbsolute_iff, reaches.head?_eq_some_iff rfl]
  refine ⟨And.right, fun absolute => ⟨?_, absolute⟩⟩
  rintro rfl
  obtain ⟨gap, rest, pieces, -⟩ := reaches.pieces
  obtain ⟨way, rfl⟩ := List.head?_eq_some_iff.mp absolute
  have short := congrArg List.length pieces
  simp [Path.pieces] at short

theorem parts_eq : parts path = partsOf way ++ [.name name] := by
  have rest : (Path.pieces path).filterMap part? = way.filterMap part? ++ [.name name] := by
    obtain ⟨gap, rest, pieces, gaps, rests, -⟩ := reaches.pieces
    have unsaid : gap.filterMap part? = [] :=
      List.filterMap_eq_nil_iff.mpr fun piece member => part?_eq_none_iff.mpr (gaps piece member)
    have unsaid' : rest.filterMap part? = [] :=
      List.filterMap_eq_nil_iff.mpr fun piece member => part?_eq_none_iff.mpr (rests piece member)
    rw [pieces, List.filterMap_append, List.filterMap_append,
      List.filterMap_cons_some reaches.names, unsaid, unsaid', List.append_nil]
  unfold parts partsOf
  have here : (Path.pieces path).head? = some ['.'] ↔ way.head? = some ['.'] :=
    reaches.head?_eq_some_iff rfl
  simp only [rest, reaches.isAbsolute_iff, here]
  split
  · rfl
  · split <;> rfl

end Reaches

theorem intercalate_sublist {α : Type} (mark : List α) {first second : List (List α)}
    (sublist : first.Sublist second) :
    (mark.intercalate first).Sublist (mark.intercalate second) := by
  have following (piece : List α) (pieces : List (List α)) :
      (mark.intercalate pieces).Sublist (mark.intercalate (piece :: pieces)) := by
    cases pieces with
    | nil => exact List.nil_sublist _
    | cons next pieces =>
        rw [List.intercalate_cons_cons]
        exact List.sublist_append_right _ _
  induction sublist with
  | slnil => exact .refl _
  | cons piece _ ih => exact ih.trans (following piece _)
  | @cons_cons first second piece sublist ih =>
      cases first with
      | nil =>
          rw [List.intercalate_singleton]
          cases second with
          | nil => rw [List.intercalate_singleton]
          | cons next second =>
              rw [List.intercalate_cons_cons, List.append_assoc]
              exact List.sublist_append_left _ _
      | cons next first =>
          have nonempty : second ≠ [] := by
            rintro rfl
            cases sublist
          rw [List.intercalate_cons_of_ne_nil nonempty, List.intercalate_cons_cons]
          exact ih.append_left _

theorem Reaches.sublist {path name shortest : String} {way : List (List Char)}
    (reaches : Reaches path way name) (only : Path.pieces shortest = way ++ [name.toList]) :
    shortest.toList.Sublist path.toList := by
  obtain ⟨gap, rest, pieces, -⟩ := reaches.pieces
  have within : (Path.pieces shortest).Sublist (Path.pieces path) := by
    rw [only, pieces, List.append_assoc]
    refine List.Sublist.append_left ?_ way
    exact (List.singleton_sublist.mpr List.mem_cons_self).trans (List.sublist_append_right _ _)
  have texts := intercalate_sublist ['/'] within
  rwa [Path.pieces, Path.pieces, List.intercalate_splitOn, List.intercalate_splitOn] at texts

theorem reaches_of_pieces {path name : String} {way : List (List Char)}
    (names : part? name.toList = some (.name name))
    (only : pieces path = way ++ [name.toList]) : Reaches path way name := by
  refine ⟨names, [], [], ?_, nofun, nofun, fun _ => rfl⟩
  rw [only, List.append_nil]

theorem exists_silent_end (given : List (List Char)) :
    ∃ first rest, given = first ++ rest ∧ given.reverse.dropWhile isSilent = first.reverse ∧
      (∀ piece ∈ rest, isSilent piece) ∧ ∀ last ∈ first.getLast?, ¬isSilent last := by
  refine ⟨given.rdropWhile isSilent, given.rtakeWhile isSilent,
    List.rdropWhile_append_rtakeWhile.symm, List.reverse_reverse _ |>.symm,
    fun piece => List.mem_rtakeWhile_imp, fun last member => ?_⟩
  obtain ⟨nonempty, rfl⟩ := List.mem_getLast?_eq_getLast member
  exact List.rdropWhile_last_not isSilent given nonempty

theorem getLast?_of_fileName? {path name : String} (named : fileName? path = some name) :
    ((pieces path).filterMap part?).getLast? = some (.name name) := by
  have last : (parts path).getLast? = some (.name name) := by
    unfold fileName? at named
    split at named
    · next text last =>
        cases named
        exact last
    · cases named
  have behind (head : PathPart) (other : head ≠ .name name) (rest : List PathPart)
      (last : (head :: rest).getLast? = some (.name name)) :
      rest.getLast? = some (.name name) := by
    cases rest with
    | nil => exact absurd (Option.some.inj last) other
    | cons next rest => rwa [List.getLast?_cons_cons] at last
  unfold parts at last
  split at last
  · exact behind .root nofun _ last
  · split at last
    · exact behind .here nofun _ last
    · exact last

theorem exists_of_fileName? {path name : String} (named : fileName? path = some name) :
    ∃ way gap rest, pieces path = way ++ gap ++ name.toList :: rest ∧
      part? name.toList = some (.name name) ∧ (∀ piece ∈ gap, isSilent piece) ∧
      (∀ piece ∈ rest, isSilent piece) ∧ (∀ last ∈ way.getLast?, ¬isSilent last) ∧
      parent path = if way ≠ [] then ofPieces way
        else if isAbsolute path then "/"
        else if (pieces path).head? = some ['.'] then "."
        else "" := by
  obtain ⟨first, rest, split, ends, rests, telling⟩ := exists_silent_end (pieces path)
  have unsaid : rest.filterMap part? = [] :=
    List.filterMap_eq_nil_iff.mpr fun piece member => part?_eq_none_iff.mpr (rests piece member)
  have last := getLast?_of_fileName? named
  rw [split, List.filterMap_append, unsaid, List.append_nil] at last
  rcases List.eq_nil_or_concat' first with rfl | ⟨above, piece, rfl⟩
  · cases last
  · have said : part? piece ≠ none := by
      rw [ne_eq, part?_eq_none_iff]
      exact telling piece List.getLast?_concat
    obtain ⟨part, said⟩ := Option.ne_none_iff_exists'.mp said
    rw [List.filterMap_append, List.filterMap_cons_some said, List.filterMap_nil,
      List.getLast?_concat] at last
    cases last
    obtain rfl := part?_eq_name said
    obtain ⟨way, gap, rfl, ends', gaps, telling'⟩ := exists_silent_end above
    refine ⟨way, gap, rest, ?_, said, gaps, rests, telling', ?_⟩
    · rw [split, List.append_assoc (way ++ gap)]
      rfl
    · unfold parent
      simp only [ends, List.reverse_append, List.reverse_singleton, List.singleton_append,
        List.drop_one, List.tail_cons]
      rw [← List.reverse_append, ends', List.reverse_reverse]

theorem needsSlash_of_telling {base : String}
    (telling : ∀ last ∈ (pieces base).getLast?, ¬isSilent last) : needsSlash base := by
  unfold pieces at telling
  unfold needsSlash
  rcases List.eq_nil_or_concat' base.toList with empty | ⟨text, char, full⟩
  · rw [empty] at telling
    exact absurd rfl (telling [] rfl)
  · rw [full, List.getLast?_concat, Option.any_some, decide_eq_true_iff]
    rintro rfl
    rw [full, List.splitOn_append_cons_self, List.splitOn_nil, List.getLast?_concat] at telling
    exact absurd rfl (telling [] rfl)

theorem pieces_join {base name : String} (plain : '/' ∉ name.toList) :
    pieces (join base name) =
      (if needsSlash base then pieces base else (pieces base).dropLast) ++ [name.toList] := by
  have relative : ¬isAbsolute name := by
    rw [isAbsolute, decide_eq_true_iff]
    exact fun slash => plain (List.mem_of_head? slash)
  have alone : name.toList.splitOn '/' = [name.toList] := List.splitOn_eq_singleton plain
  rw [join, if_neg relative]
  split
  · have text : (base ++ "/" ++ name).toList = base.toList ++ '/' :: name.toList := by simp
    rw [pieces, text, List.splitOn_append_cons_self, alone]
    rfl
  · next closed =>
      rw [pieces, pieces, String.toList_append]
      rcases List.eq_nil_or_concat' base.toList with empty | ⟨text, char, full⟩
      · rw [empty, List.nil_append, alone, List.splitOn_nil]
        rfl
      · rw [needsSlash, full, List.getLast?_concat, Option.any_some, decide_eq_true_iff,
          not_not] at closed
        rw [full, closed, List.append_assoc, List.singleton_append, List.splitOn_append_cons_self,
          List.splitOn_append_cons_self, alone, List.splitOn_nil, List.dropLast_concat]

theorem reaches_of_fileName? {path name : String} (named : fileName? path = some name) :
    ∃ way, Reaches path way name ∧ ∀ other : String, '/' ∉ other.toList →
      pieces (join (parent path) other) = way ++ [other.toList] := by
  obtain ⟨way, gap, rest, split, names, gaps, rests, telling, above⟩ :=
    exists_of_fileName? named
  by_cases nonempty : way ≠ []
  · have given : pieces (ofPieces way) = way := by
      refine pieces_ofPieces (fun piece member => ?_) nonempty
      apply slash_not_mem
      rw [split, List.append_assoc]
      exact List.mem_append_left _ member
    have slash : needsSlash (ofPieces way) := by
      apply needsSlash_of_telling
      rwa [given]
    refine ⟨way, ⟨names, gap, rest, split, gaps, rests, fun none => absurd none nonempty⟩,
      fun other plain => ?_⟩
    rw [above, if_pos nonempty, pieces_join plain, if_pos slash, given]
  · -- Nothing is above the name; its parent is what the path starts with, a slash or a point.
    obtain rfl : way = [] := Decidable.not_not.mp nonempty
    rw [if_neg nonempty] at above
    cases gap with
    | nil =>
        have reaches : Reaches path [] name :=
          ⟨names, [], rest, split, nofun, rests, fun _ => rfl⟩
        have elsewhere : (pieces path).head? ≠ some ['.'] := by
          rw [ne_eq, reaches.head?_eq_some_iff rfl]
          exact nofun
        have relative : ¬isAbsolute path := by
          rw [reaches.isAbsolute_iff]
          exact nofun
        rw [if_neg relative, if_neg elsewhere] at above
        refine ⟨[], reaches, fun other plain => ?_⟩
        rw [above, pieces_join plain]
        rfl
    | cons piece gap =>
        have gaps' : ∀ piece ∈ gap, isSilent piece := fun piece member =>
          gaps piece (.tail _ member)
        have reaches : Reaches path [piece] name :=
          ⟨names, gap, rest, split, gaps', rests, nofun⟩
        have head : (pieces path).head? = some piece := congrArg List.head? split
        have silent : piece = [] ∨ piece = ['.'] := by
          simpa [isSilent] using gaps piece List.mem_cons_self
        refine ⟨[piece], reaches, fun other plain => ?_⟩
        rw [above, pieces_join plain, head]
        simp only [reaches.isAbsolute_iff, List.head?_cons]
        rcases silent with rfl | rfl <;> rfl

theorem cut_eq (name : String) : cut name = (name, none) ∨
    ∃ stem ending, cut name = (stem, some ending) ∧ stem ++ "." ++ ending = name := by
  have whole : name.toList.reverse.takeWhile (· ≠ '.') ++
      name.toList.reverse.dropWhile (· ≠ '.') = name.toList.reverse :=
    List.takeWhile_append_dropWhile
  unfold cut
  rw [List.span_eq_takeWhile_dropWhile]
  cases found : name.toList.reverse.dropWhile (· ≠ '.') with
  | nil => exact .inl rfl
  | cons point stem =>
      cases stem with
      | nil => exact .inl rfl
      | cons char stem =>
          refine .inr ⟨_, _, rfl, ?_⟩
          have pointed : point = '.' := by
            have head := List.head?_dropWhile_not (· ≠ '.') name.toList.reverse
            rw [found] at head
            simpa using head
          rw [found, pointed] at whole
          have text := congrArg List.reverse whole
          rw [← String.toList_inj]
          simpa using text

theorem slash_not_mem_stem {path id : String} (stem : stem? path = some id) :
    '/' ∉ id.toList := by
  obtain ⟨name, named, rfl⟩ := Option.map_eq_some_iff.mp stem
  obtain ⟨way, ⟨-, gap, rest, split, -⟩, -⟩ := reaches_of_fileName? named
  have plain : '/' ∉ name.toList := by
    apply slash_not_mem
    rw [split]
    exact List.mem_append_right _ List.mem_cons_self
  rcases cut_eq name with uncut | ⟨first, last, cut, rfl⟩
  · rwa [uncut]
  · rw [cut]
    intro within
    apply plain
    simp [within]

theorem stem_append_eq_iff {path name id ending : String} (named : fileName? path = some name)
    (stem : stem? path = some id) :
    id ++ "." ++ ending = name ↔ ending? path = some ending := by
  simp only [stem?, ending?, named, Option.map_some, Option.bind_some, Option.some.injEq]
    at stem ⊢
  rcases cut_eq name with uncut | ⟨first, last, cut, rfl⟩
  · rw [uncut] at stem ⊢
    subst stem
    constructor
    · intro longer
      have length : (name ++ "." ++ ending).length = name.length := congrArg String.length longer
      rw [String.length_append, String.length_append, show ".".length = 1 from rfl] at length
      omega
    · rintro ⟨⟩
  · rw [cut] at stem ⊢
    subst stem
    rw [String.append_right_inj, Option.some.injEq, eq_comm]

end VisualNovel.Path
