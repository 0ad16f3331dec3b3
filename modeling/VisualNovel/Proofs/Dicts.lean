import VisualNovel.Dict

namespace VisualNovel

variable {α β : Type}

theorem lookup_cons_eq (entry : String × α) (entries : List (String × α)) (key : String) :
    (entry :: entries).lookup key = if key = entry.1 then some entry.2 else entries.lookup key := by
  obtain ⟨first, value⟩ := entry
  by_cases same : key = first
  · simp [same]
  · have differs : (key == first) = false := beq_false_of_ne same
    simp [List.lookup_cons, differs, same]

theorem lookup_eq_none_iff {key : String} {entries : List (String × α)} :
    entries.lookup key = none ↔ key ∉ entries.map Prod.fst := by
  simp only [List.lookup_eq_none_iff, bne_iff_ne, List.mem_map, not_exists, not_and]
  exact forall₂_congr fun entry _ => ne_comm

theorem lookup_reverse {entries : List (String × α)} (apart : (entries.map Prod.fst).Nodup)
    (key : String) : entries.reverse.lookup key = entries.lookup key := by
  induction entries with
  | nil => rfl
  | cons entry entries ih =>
      obtain ⟨fresh, apart⟩ := List.nodup_cons.mp apart
      rw [List.reverse_cons, List.lookup_append, ih apart, lookup_cons_eq, lookup_cons_eq]
      by_cases same : key = entry.1
      · have missing : entries.lookup key = none := lookup_eq_none_iff.mpr (same ▸ fresh)
        simp [same, same ▸ missing]
      · simp [same]

theorem lookup_insertEntry (key : String) (value : α) (entries : List (String × α))
    (sought : String) :
    (insertEntry key value entries).lookup sought =
      if sought = key then some value else entries.lookup sought := by
  induction entries with
  | nil => exact lookup_cons_eq ..
  | cons entry entries ih =>
      unfold insertEntry
      split
      · exact lookup_cons_eq ..
      split
      · next same =>
          rw [lookup_cons_eq, lookup_cons_eq]
          by_cases found : sought = key
          · simp [found]
          · simp [found, same ▸ found]
      · next differs =>
          rw [lookup_cons_eq, lookup_cons_eq, ih]
          by_cases found : sought = entry.1
          · simp [found, Ne.symm differs]
          · simp [found]

theorem lookup_of_ascending {key : String} {value : α} {entries : List (String × α)}
    (ascending : Ascending ((key, value) :: entries)) : entries.lookup key = none := by
  have after := (List.pairwise_cons.mp ascending).1
  rw [List.lookup_eq_none_iff]
  intro entry member
  refine bne_iff_ne.mpr fun same => ?_
  have before := after entry member
  rw [← same] at before
  exact String.lt_irrefl key before

theorem nodup_of_ascending {entries : List (String × α)} (ascending : Ascending entries) :
    (entries.map Prod.fst).Nodup := by
  refine List.pairwise_map.mpr (ascending.imp fun {first second} before same => ?_)
  rw [same] at before
  exact String.lt_irrefl _ before

theorem length_insertEntry {key : String} {entries : List (String × α)}
    (ascending : Ascending entries) (value : α) :
    (insertEntry key value entries).length =
      if key ∈ entries.map Prod.fst then entries.length else entries.length + 1 := by
  induction entries with
  | nil => rfl
  | cons entry entries ih =>
      obtain ⟨first, ascending⟩ := List.pairwise_cons.mp ascending
      unfold insertEntry
      split
      · next before =>
          have fresh : key ∉ (entry :: entries).map Prod.fst := by
            intro listed
            obtain ⟨other, member, rfl⟩ := List.mem_map.mp listed
            rcases List.mem_cons.mp member with rfl | member
            · exact String.lt_irrefl _ before
            · exact String.lt_irrefl _ (String.lt_trans before (first other member))
          rw [if_neg fresh]
          rfl
      split
      · next same => simp [same]
      · next differs =>
          simp only [List.length_cons, List.map_cons, List.mem_cons, differs, false_or,
            ih ascending]
          split <;> rfl

theorem map_insertEntry (change : String → α → β) (key : String) (value : α)
    (entries : List (String × α)) :
    (insertEntry key value entries).map (fun entry => (entry.1, change entry.1 entry.2)) =
      insertEntry key (change key value)
        (entries.map fun entry => (entry.1, change entry.1 entry.2)) := by
  induction entries with
  | nil => rfl
  | cons entry entries ih =>
      simp only [insertEntry, List.map_cons]
      split
      · rfl
      split
      · rfl
      · rw [List.map_cons, ih]

theorem perm_insertEntry {key : String} {entries : List (String × α)}
    (fresh : key ∉ entries.map Prod.fst) (value : α) :
    (insertEntry key value entries).Perm ((key, value) :: entries) := by
  induction entries with
  | nil => exact .refl _
  | cons entry entries ih =>
      have differs : key ≠ entry.1 := List.ne_of_not_mem_cons fresh
      rw [insertEntry, if_neg differs]
      split
      · exact .refl _
      · exact ((ih (List.not_mem_of_not_mem_cons fresh)).cons entry).trans (.swap ..)

theorem insertEntry_last {key : String} {value : α} {entries : List (String × α)}
    (last : ∀ entry ∈ entries, entry.1 < key) :
    insertEntry key value entries = entries ++ [(key, value)] := by
  induction entries with
  | nil => rfl
  | cons entry entries ih =>
      have before := last entry List.mem_cons_self
      have behind : ¬key < entry.1 := fun after =>
        String.lt_irrefl key (String.lt_trans after before)
      have differs : key ≠ entry.1 := fun same => String.lt_irrefl key (same ▸ before)
      simp only [insertEntry, behind, differs, ↓reduceIte, List.cons_append]
      rw [ih fun entry listed => last entry (List.mem_cons_of_mem _ listed)]

namespace Dict

@[simp] theorem get?_insert (dict : Dict α) (key : String) (value : α) (sought : String) :
    (dict.insert key value).get? sought = if sought = key then some value else dict.get? sought :=
  lookup_insertEntry key value dict.entries sought

theorem contains_iff {dict : Dict α} {key : String} : dict.contains key ↔ key ∈ dict.keys := by
  rw [contains, get?, Option.isSome_iff_ne_none, ne_eq, lookup_eq_none_iff,
    Decidable.not_not]
  rfl

theorem size_insert (dict : Dict α) (key : String) (value : α) :
    (dict.insert key value).size = if dict.contains key then dict.size else dict.size + 1 := by
  simp only [contains_iff]
  exact length_insertEntry dict.ascending value

def map (change : String → α → β) (dict : Dict α) : Dict β where
  entries := dict.entries.map fun entry => (entry.1, change entry.1 entry.2)
  ascending := List.pairwise_map.mpr (dict.ascending.imp id)

variable (change : String → α → β) (dict : Dict α)

theorem map_insert (key : String) (value : α) :
    (dict.insert key value).map change = (dict.map change).insert key (change key value) :=
  ext (map_insertEntry change key value dict.entries)

@[simp] theorem get?_map (key : String) :
    (dict.map change).get? key = (dict.get? key).map (change key) := by
  obtain ⟨entries, ascending⟩ := dict
  show List.lookup key (entries.map _) = (entries.lookup key).map (change key)
  clear ascending
  induction entries with
  | nil => rfl
  | cons entry entries ih =>
      rw [List.map_cons, lookup_cons_eq, lookup_cons_eq, ih]
      split
      · next same => simp [same]
      · rfl

end Dict

end VisualNovel
