/-!
Dictionaries keyed by strings. The entries are kept in ascending order of their keys, so two
dictionaries with the same entries are equal, and the order of the entries is the order in which
they are written out.
-/

namespace VisualNovel

def insertEntry {α : Type} (key : String) (value : α) :
    List (String × α) → List (String × α)
  | [] => [(key, value)]
  | entry :: rest =>
      if key < entry.1 then (key, value) :: entry :: rest
      else if key = entry.1 then (key, value) :: rest
      else entry :: insertEntry key value rest

def Ascending {α : Type} (entries : List (String × α)) : Prop :=
  entries.Pairwise (fun first second => first.1 < second.1)

theorem mem_insertEntry {α : Type} {key : String} {value : α} {entry : String × α} :
    ∀ {entries : List (String × α)},
      entry ∈ insertEntry key value entries → entry = (key, value) ∨ entry ∈ entries
  | [], member => by simpa [insertEntry] using member
  | head :: rest, member => by
      simp only [insertEntry] at member
      split at member
      · simpa using member
      split at member
      · simp only [List.mem_cons] at member ⊢
        exact member.imp id Or.inr
      · simp only [List.mem_cons] at member ⊢
        rcases member with rfl | member
        · exact .inr (.inl rfl)
        · exact (mem_insertEntry member).imp id .inr

theorem ascending_insertEntry {α : Type} {key : String} {value : α} :
    ∀ {entries : List (String × α)},
      Ascending entries → Ascending (insertEntry key value entries)
  | [], _ => by simp [insertEntry, Ascending]
  | head :: rest, ascending => by
      have ⟨first, tail⟩ := List.pairwise_cons.mp ascending
      simp only [insertEntry]
      split
      · next before =>
          refine List.pairwise_cons.mpr ⟨fun entry member => ?_, ascending⟩
          rcases List.mem_cons.mp member with rfl | member
          · exact before
          · exact String.lt_trans before (first entry member)
      · next after =>
          split
          · next same =>
              exact List.pairwise_cons.mpr ⟨fun entry member => same ▸ first entry member, tail⟩
          · next differs =>
              refine List.pairwise_cons.mpr ⟨fun entry member => ?_, ascending_insertEntry tail⟩
              rcases mem_insertEntry member with rfl | member
              · exact String.not_le.mp fun behind =>
                  differs (String.le_antisymm behind (String.not_lt.mp after))
              · exact first entry member

structure Dict (α : Type) where
  entries : List (String × α)
  ascending : Ascending entries

namespace Dict

variable {α : Type}

instance [DecidableEq α] : DecidableEq (Dict α) := fun first second =>
  decidable_of_iff (first.entries = second.entries) (by cases first; cases second; simp)

instance : Inhabited (Dict α) := ⟨⟨[], .nil⟩⟩

def empty : Dict α := ⟨[], .nil⟩

def insert (dict : Dict α) (key : String) (value : α) : Dict α :=
  ⟨insertEntry key value dict.entries, ascending_insertEntry dict.ascending⟩

def get? (dict : Dict α) (key : String) : Option α :=
  dict.entries.lookup key

def contains (dict : Dict α) (key : String) : Bool :=
  (dict.get? key).isSome

def keys (dict : Dict α) : List String :=
  dict.entries.map Prod.fst

def size (dict : Dict α) : Nat :=
  dict.entries.length

def isEmpty (dict : Dict α) : Bool :=
  dict.entries.isEmpty

/-- The dictionary of a list of entries; of two with one key the later stands. -/
def ofList (entries : List (String × α)) : Dict α :=
  entries.foldl (fun dict entry => dict.insert entry.1 entry.2) empty

@[ext] theorem ext {first second : Dict α} (same : first.entries = second.entries) :
    first = second := by
  cases first; cases second; simp_all

end Dict

end VisualNovel
