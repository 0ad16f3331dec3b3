import VisualNovel.Json.Value
import VisualNovel.Proofs.Dicts

namespace VisualNovel.Json

def parts : Json → List Json
  | .array items => items
  | .object members => members.map Prod.snd
  | _ => []

theorem sizeOf_parts {value part : Json} (member : part ∈ value.parts) :
    sizeOf part < sizeOf value := by
  cases value with
  | array items =>
      have smaller : sizeOf part < sizeOf items := List.sizeOf_lt_of_mem member
      simp only [array.sizeOf_spec]
      omega
  | object members =>
      obtain ⟨⟨key, content⟩, entry, rfl⟩ := List.mem_map.mp member
      have smaller := List.sizeOf_lt_of_mem entry
      simp only [Prod.mk.sizeOf_spec, object.sizeOf_spec] at smaller ⊢
      omega
  | _ => cases member

theorem induction_parts {motive : Json → Prop}
    (step : ∀ value, (∀ part ∈ value.parts, motive part) → motive value) (value : Json) :
    motive value :=
  step value fun part member =>
    have : sizeOf part < sizeOf value := sizeOf_parts member
    induction_parts step part
termination_by sizeOf value

mutual

/-- How many arrays and objects lie inside each other. -/
def depth : Json → Nat
  | .array items => depthOfItems items + 1
  | .object members => depthOfMembers members + 1
  | _ => 0

def depthOfItems : List Json → Nat
  | [] => 0
  | item :: items => max (depth item) (depthOfItems items)

def depthOfMembers : List (String × Json) → Nat
  | [] => 0
  | (_, value) :: members => max (depth value) (depthOfMembers members)

end

theorem depthOfItems_le_iff {items : List Json} {bound : Nat} :
    depthOfItems items ≤ bound ↔ ∀ item ∈ items, item.depth ≤ bound := by
  induction items with
  | nil => simp [depthOfItems]
  | cons item items ih => rw [depthOfItems, Nat.max_le, ih, List.forall_mem_cons]

theorem depthOfMembers_eq (members : List (String × Json)) :
    depthOfMembers members = depthOfItems (members.map Prod.snd) := by
  induction members with
  | nil => rfl
  | cons member members ih => simp only [depthOfMembers, depthOfItems, List.map_cons, ih]

theorem depth_parts {value part : Json} (member : part ∈ value.parts) :
    part.depth < value.depth := by
  cases value with
  | array items =>
      simp only [depth]
      exact Nat.lt_succ_of_le (depthOfItems_le_iff.mp (Nat.le_refl _) part member)
  | object members =>
      simp only [depth, depthOfMembers_eq]
      exact Nat.lt_succ_of_le (depthOfItems_le_iff.mp (Nat.le_refl _) part member)
  | _ => cases member

theorem depth_le {value : Json} {bound : Nat}
    (shallow : ∀ part ∈ value.parts, part.depth ≤ bound) : value.depth ≤ bound + 1 := by
  cases value with
  | array items =>
      simp only [depth]
      exact Nat.succ_le_succ (depthOfItems_le_iff.mpr shallow)
  | object members =>
      simp only [depth, depthOfMembers_eq]
      exact Nat.succ_le_succ (depthOfItems_le_iff.mpr shallow)
  | _ => exact Nat.zero_le _

mutual

def numbers : Json → List Number
  | .number value => [value]
  | .array items => numbersOfItems items
  | .object members => numbersOfMembers members
  | _ => []

def numbersOfItems : List Json → List Number
  | [] => []
  | item :: items => numbers item ++ numbersOfItems items

def numbersOfMembers : List (String × Json) → List Number
  | [] => []
  | (_, value) :: members => numbers value ++ numbersOfMembers members

end

theorem mem_numbersOfItems {items : List Json} {number : Number} :
    number ∈ numbersOfItems items ↔ ∃ item ∈ items, number ∈ item.numbers := by
  induction items with
  | nil => simp [numbersOfItems]
  | cons item items ih => simp [numbersOfItems, ih]

theorem numbersOfMembers_eq (members : List (String × Json)) :
    numbersOfMembers members = numbersOfItems (members.map Prod.snd) := by
  induction members with
  | nil => rfl
  | cons member members ih => simp only [numbersOfMembers, numbersOfItems, List.map_cons, ih]

theorem mem_numbers_iff {value : Json} {number : Number} :
    number ∈ value.numbers ↔
      value = .number number ∨ ∃ part ∈ value.parts, number ∈ part.numbers := by
  cases value with
  | number found => simp [numbers, parts, eq_comm]
  | array items => simp only [numbers, mem_numbersOfItems, parts, reduceCtorEq, false_or]
  | object members =>
      simp only [numbers, numbersOfMembers_eq, mem_numbersOfItems, parts, reduceCtorEq, false_or]
  | _ => simp [numbers, parts]

theorem numbers_parts {value part : Json} (member : part ∈ value.parts) :
    part.numbers ⊆ value.numbers := fun _ found =>
  mem_numbers_iff.mpr (.inr ⟨part, member, found⟩)

def Bounded (allowed : Number → Prop) (depth : Nat) (value : Json) : Prop :=
  value.depth ≤ depth ∧ ∀ number ∈ value.numbers, allowed number

section Bounded

variable {allowed : Number → Prop} {depth depth' : Nat} {value inner : Json}

theorem Bounded.part (bounded : value.Bounded allowed (depth + 1)) (member : inner ∈ value.parts) :
    inner.Bounded allowed depth :=
  ⟨Nat.le_of_lt_succ (Nat.lt_of_lt_of_le (depth_parts member) bounded.1),
    fun number found => bounded.2 number (numbers_parts member found)⟩

theorem Bounded.mono (bounded : value.Bounded allowed depth) (more : depth ≤ depth') :
    value.Bounded allowed depth' :=
  ⟨Nat.le_trans bounded.1 more, bounded.2⟩

theorem bounded_of_parts (compound : ∀ number, value ≠ .number number)
    (inside : ∀ part ∈ value.parts, part.Bounded allowed depth) :
    value.Bounded allowed (depth + 1) := by
  refine ⟨depth_le fun part member => (inside part member).1, fun number found => ?_⟩
  rcases mem_numbers_iff.mp found with scalar | ⟨part, member, found⟩
  · exact absurd scalar (compound number)
  · exact (inside part member).2 number found

end Bounded

theorem normalizeItems_eq (items : List Json) : normalizeItems items = items.map normalize := by
  induction items with
  | nil => simp [normalizeItems]
  | cons item items ih => simp [normalizeItems, ih]

section Members

variable {entries members : List (String × Json)}

theorem ascending_normalizeMembers (members : List (String × Json))
    (ascending : Ascending entries) :
    Ascending (normalizeMembers entries members) := by
  induction members generalizing entries with
  | nil => simpa only [normalizeMembers] using ascending
  | cons member members ih =>
      simp only [normalizeMembers]
      exact ih (ascending_insertEntry ascending)

theorem mem_normalizeMembers {entry : String × Json}
    (found : entry ∈ normalizeMembers entries members) :
    entry ∈ entries ∨ ∃ member ∈ members, entry = (member.1, member.2.normalize) := by
  induction members generalizing entries with
  | nil => exact .inl (by simpa only [normalizeMembers] using found)
  | cons member members ih =>
      simp only [normalizeMembers] at found
      rcases ih found with before | ⟨later, listed, same⟩
      · rcases mem_insertEntry before with same | before
        · exact .inr ⟨member, List.mem_cons_self, same⟩
        · exact .inl before
      · exact .inr ⟨later, List.mem_cons_of_mem _ listed, same⟩

theorem lookup_normalizeMembers_last (entries members : List (String × Json)) (key : String) :
    (normalizeMembers entries members).lookup key =
      ((members.reverse.lookup key).map normalize).or (entries.lookup key) := by
  induction members generalizing entries with
  | nil => simp [normalizeMembers]
  | cons member members ih =>
      obtain ⟨name, value⟩ := member
      rw [normalizeMembers, ih, List.reverse_cons, List.lookup_append, lookup_insertEntry,
        lookup_cons_eq]
      cases members.reverse.lookup key with
      | some later => rfl
      | none => split <;> simp

theorem lookup_normalizeMembers (entries : List (String × Json))
    (apart : (members.map Prod.fst).Nodup) (key : String) :
    (normalizeMembers entries members).lookup key =
      ((members.lookup key).map normalize).or (entries.lookup key) := by
  rw [lookup_normalizeMembers_last, lookup_reverse apart]

theorem perm_normalizeMembers (apart : ((entries ++ members).map Prod.fst).Nodup) :
    (normalizeMembers entries members).Perm
      (entries ++ members.map fun member => (member.1, member.2.normalize)) := by
  induction members generalizing entries with
  | nil => simp [normalizeMembers]
  | cons member members ih =>
      obtain ⟨name, value⟩ := member
      have front : ((entries ++ (name, value) :: members).map Prod.fst).Perm
          (name :: (entries ++ members).map Prod.fst) := List.perm_middle.map Prod.fst
      obtain ⟨absent, -⟩ := List.nodup_cons.mp (front.nodup_iff.mp apart)
      have fresh : name ∉ entries.map Prod.fst := fun listed => absent (by simp [listed])
      have placed := perm_insertEntry fresh value.normalize
      have keys := ((placed.append_right members).map Prod.fst).trans front.symm
      rw [normalizeMembers]
      refine (ih (keys.nodup_iff.mpr apart)).trans ((placed.append_right _).trans ?_)
      exact List.perm_middle.symm

theorem normalizeMembers_of_ascending (ascending : Ascending (entries ++ members))
    (settled : ∀ member ∈ members, member.2.normalize = member.2) :
    normalizeMembers entries members = entries ++ members := by
  induction members generalizing entries with
  | nil => simp [normalizeMembers]
  | cons member members ih =>
      have last : ∀ entry ∈ entries, entry.1 < member.1 := fun entry listed =>
        (List.pairwise_append.mp ascending).2.2 entry listed member List.mem_cons_self
      simp only [normalizeMembers, settled member List.mem_cons_self, insertEntry_last last]
      rw [ih]
      · simp
      · simpa using ascending
      · exact fun later listed => settled later (List.mem_cons_of_mem _ listed)

end Members

theorem normalize_ne_null {value : Json} (solid : value ≠ .null) : value.normalize ≠ .null := by
  cases value <;> simp_all [normalize]

theorem parts_normalize {value part : Json} (member : part ∈ value.normalize.parts) :
    ∃ inner ∈ value.parts, part = inner.normalize := by
  cases value with
  | array items =>
      simp only [normalize, parts, normalizeItems_eq] at member
      obtain ⟨inner, listed, same⟩ := List.mem_map.mp member
      exact ⟨inner, listed, same.symm⟩
  | object members =>
      simp only [normalize, parts] at member
      obtain ⟨entry, found, rfl⟩ := List.mem_map.mp member
      rcases mem_normalizeMembers found with none | ⟨inner, listed, rfl⟩
      · cases none
      · exact ⟨inner.2, List.mem_map_of_mem listed, rfl⟩
  | _ => simp [normalize, parts] at member

theorem depth_normalize_le (value : Json) : value.normalize.depth ≤ value.depth := by
  induction value using induction_parts with
  | step value ih =>
      cases bound : value.depth with
      | zero =>
          cases value with
          | array items => simp [depth] at bound
          | object members => simp [depth] at bound
          | _ => simp [normalize, depth]
      | succ bound' =>
          refine depth_le fun part member => ?_
          obtain ⟨inner, listed, rfl⟩ := parts_normalize member
          have shallow := depth_parts listed
          have smaller := ih inner listed
          omega

theorem numbers_normalize (value : Json) : value.normalize.numbers ⊆ value.numbers := by
  induction value using induction_parts with
  | step value ih =>
      intro number found
      rcases mem_numbers_iff.mp found with scalar | ⟨part, member, found⟩
      · cases value <;> simp_all [normalize, numbers]
      · obtain ⟨inner, listed, rfl⟩ := parts_normalize member
        exact numbers_parts listed (ih inner listed found)

theorem Bounded.normalize {allowed : Number → Prop} {depth : Nat} {value : Json}
    (bounded : value.Bounded allowed depth) : value.normalize.Bounded allowed depth :=
  ⟨Nat.le_trans value.depth_normalize_le bounded.1,
    fun number found => bounded.2 number (value.numbers_normalize found)⟩

theorem normalize_normalize (value : Json) : value.normalize.normalize = value.normalize := by
  induction value using induction_parts with
  | step value ih =>
      cases value with
      | array items =>
          simp only [normalize, normalizeItems_eq, List.map_map]
          congr 1
          exact List.map_congr_left ih
      | object members =>
          simp only [normalize]
          congr 1
          refine normalizeMembers_of_ascending (ascending_normalizeMembers _ .nil) ?_
          intro entry found
          rcases mem_normalizeMembers found with none | ⟨inner, listed, rfl⟩
          · cases none
          · exact ih inner.2 (List.mem_map_of_mem listed)
      | _ => simp only [normalize]

end VisualNovel.Json
