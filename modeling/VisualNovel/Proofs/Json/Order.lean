import VisualNovel.Proofs.Json.Acceptance

/-!
Reading values at hand before and after their objects are put in order. What is read from a value is
read from it in order too: a repeated key is passed over where no field has it, and refused where
one has. Where no key is repeated, nothing more is read from the value in order.

Main statements: `Fields.ofJson_steady` and `Tagged.ofJson_steady`.
-/

namespace VisualNovel.Json

/-! ## Keys -/

/-- No object inside the value repeats a key. -/
inductive KeysApart : Json → Prop where
  | intro {value : Json} :
      (∀ members, value = .object members → (members.map Prod.fst).Nodup) →
      (∀ part ∈ value.parts, KeysApart part) → KeysApart value

namespace KeysApart

variable {value inner : Json} {members : List (String × Json)} {name : String}

theorem part (apart : value.KeysApart) (inside : inner ∈ value.parts) : inner.KeysApart := by
  cases apart with
  | intro _ parts => exact parts inner inside

theorem nodup (apart : (object members).KeysApart) : (members.map Prod.fst).Nodup := by
  cases apart with
  | intro nodup _ => exact nodup members rfl

theorem lookup (apart : (object members).KeysApart) (found : members.lookup name = some inner) :
    inner.KeysApart := by
  obtain ⟨before, after, same, -⟩ := List.lookup_eq_some_iff.mp found
  apply apart.part
  exact List.mem_map.mpr ⟨(name, inner), by simp [same], rfl⟩

@[simp] theorem of_string (text : String) : (string text).KeysApart :=
  .intro nofun nofun

@[simp] theorem of_number (value : Number) : (number value).KeysApart :=
  .intro nofun nofun

@[simp] theorem array_iff {items : List Json} :
    (array items).KeysApart ↔ ∀ item ∈ items, item.KeysApart :=
  ⟨fun apart _ listed => apart.part listed, fun inside => .intro nofun inside⟩

@[simp] theorem object_iff : (object members).KeysApart ↔
    (members.map Prod.fst).Nodup ∧ ∀ member ∈ members, member.2.KeysApart := by
  constructor
  · exact fun apart => ⟨apart.nodup, fun member listed => apart.part (List.mem_map_of_mem listed)⟩
  · rintro ⟨nodup, inside⟩
    refine .intro (fun _ same => object.inj same ▸ nodup) fun part found => ?_
    obtain ⟨member, listed, rfl⟩ := List.mem_map.mp found
    exact inside member listed

theorem perm (apart : (object members).KeysApart) : (normalizeMembers [] members).Perm
    (members.map fun member => (member.1, member.2.normalize)) :=
  perm_normalizeMembers apart.nodup

end KeysApart

/-! ## Steady readers -/

/-- What is read from the value is read from it in order, and nothing else if no key repeats. -/
structure Steady {α : Type} (read : Json → Except Mismatch α) (json : Json) : Prop where
  settled {value : α} : read json = .ok value → read json.normalize = .ok value
  given {value : α} : json.KeysApart → read json.normalize = .ok value → read json = .ok value

namespace Steady

variable {α β : Type} {read : Json → Except Mismatch α} {json : Json}

theorem of_normalize (same : json.normalize = json) : Steady read json where
  settled taken := by rwa [same]
  given _ taken := by rwa [same] at taken

theorem map (steady : Steady read json) (pack : α → β) :
    Steady (fun json => (read json).map pack) json where
  settled taken := by
    obtain ⟨value, taken, same⟩ := map_eq_ok.mp taken
    exact map_eq_ok.mpr ⟨value, steady.settled taken, same⟩
  given apart taken := by
    obtain ⟨value, taken, same⟩ := map_eq_ok.mp taken
    exact map_eq_ok.mpr ⟨value, steady.given apart taken, same⟩

end Steady

/-! ## Formats -/

namespace Format

variable {α : Type} {format : Format α}

def Steady (format : Format α) : Prop :=
  ∀ json, Json.Steady format.ofJson json

theorem text_steady : text.Steady := by
  intro json
  cases json <;> constructor <;> simp [text, normalize]

theorem boolean_steady : boolean.Steady := by
  intro json
  cases json <;> constructor <;> simp [boolean, normalize]

theorem natural_steady (kind : String) : (natural kind).Steady := by
  intro json
  cases json <;> constructor <;> simp [natural, normalize]

theorem millis_steady : millis.Steady :=
  fun json => (natural_steady "u64" json).map _

theorem any_steady : any.Steady := by
  intro json
  constructor <;> simp [any, normalize_normalize]

theorem option_steady (steady : format.Steady) : format.option.Steady := by
  intro json
  by_cases empty : json = .null
  · rw [empty]
    exact .of_normalize (by simp [normalize])
  · have inOrder : format.option.ofJson json.normalize = (format.ofJson json.normalize).map some :=
      option_ofJson (normalize_ne_null empty)
    have asGiven : format.option.ofJson json = (format.ofJson json).map some :=
      option_ofJson empty
    have inside := (steady json).map some
    constructor
    · intro value taken
      rw [asGiven] at taken
      rw [inOrder]
      exact inside.settled taken
    · intro value apart taken
      rw [inOrder] at taken
      rw [asGiven]
      exact inside.given apart taken

theorem itemsOfJson_iff {items : List Json} {values : List α} :
    itemsOfJson format items = .ok values ↔
      List.Forall₂ (fun item value => format.ofJson item = .ok value) items values := by
  induction items generalizing values with
  | nil => cases values <;> simp [itemsOfJson]
  | cons item items ih =>
      simp only [itemsOfJson, bind_eq_ok, ih]
      cases values <;> simp [pure, Except.pure]

theorem list_steady (steady : format.Steady) : (list format).Steady := by
  intro json
  cases json with
  | array items =>
      have inOrder : (list format).ofJson (normalize (.array items)) =
          itemsOfJson format (items.map normalize) := by
        rw [normalize, normalizeItems_eq]
        rfl
      constructor
      · intro values taken
        rw [inOrder, itemsOfJson_iff, List.forall₂_map_left_iff]
        exact (itemsOfJson_iff.mp taken).imp fun item _ => (steady item).settled
      · intro values apart taken
        rw [inOrder, itemsOfJson_iff, List.forall₂_map_left_iff] at taken
        have inside := (List.forall₂_and_left items values).mpr
          ⟨fun item listed => apart.part listed, taken⟩
        exact itemsOfJson_iff.mpr (inside.imp fun item _ taken =>
          (steady item).given taken.1 taken.2)
  | _ => constructor <;> simp [list, normalize]

end Format

theorem Hollow.normalize_iff {content : Json} (apart : content.KeysApart) :
    Hollow content.normalize ↔ Hollow content := by
  cases content with
  | object members =>
      simp only [Hollow, normalize, object.injEq, reduceCtorEq, false_or]
      constructor
      · intro empty
        simpa [empty] using apart.perm
      · rintro rfl
        simp [normalizeMembers]
  | _ => simp [Hollow, normalize]

section Variants

variable {α : Type} {alternatives : List (Variant α)} {write : α → Json}

theorem Content.unit_steady (named : α) (json : Json) :
    Json.Steady (Content.unit named).ofJson json := by
  constructor
  · intro value taken
    obtain ⟨hollow, same⟩ := Content.unit_ofJson_iff.mp taken
    apply Content.unit_ofJson_iff.mpr
    refine ⟨?_, same⟩
    rcases hollow with rfl | rfl
    · exact .inl (by simp [normalize])
    · exact .inr (by simp [normalize, normalizeMembers])
  · intro value apart taken
    obtain ⟨hollow, same⟩ := Content.unit_ofJson_iff.mp taken
    exact Content.unit_ofJson_iff.mpr ⟨(Hollow.normalize_iff apart).mp hollow, same⟩

theorem Variant.find?_eq_ok {name : String} {content : Content α}
    (found : Variant.find? alternatives name = .ok content) :
    ∃ variant ∈ alternatives, variant.content = content := by
  unfold Variant.find? at found
  split at found
  · next variant sought =>
      cases found
      exact ⟨variant, List.mem_of_find?_eq_some sought, rfl⟩
  · cases found

theorem Format.variants_several {members : List (String × Json)} (several : 1 < members.length) :
    (variants alternatives write).ofJson (.object members) =
      .error (.wrongValue .map "map with a single key") := by
  rcases members with - | ⟨first, - | ⟨second, members⟩⟩
  · simp at several
  · simp at several
  · rfl

theorem Format.variants_steady
    (steady : ∀ variant ∈ alternatives, ∀ json, Json.Steady variant.content.ofJson json) :
    (variants alternatives write).Steady := by
  intro json
  cases json with
  | object members =>
      rcases members with - | ⟨⟨name, value⟩, - | ⟨second, members⟩⟩
      · exact .of_normalize (by simp [normalize, normalizeMembers])
      · have inOrder : normalize (.object [(name, value)]) = .object [(name, value.normalize)] := by
          simp [normalize, normalizeMembers, insertEntry]
        have inside {content : Content α}
            (found : Variant.find? alternatives name = .ok content) :
            Json.Steady content.ofJson value := by
          obtain ⟨variant, listed, rfl⟩ := Variant.find?_eq_ok found
          exact steady variant listed value
        constructor
        · intro result taken
          obtain ⟨content, found, taken⟩ := bind_eq_ok.mp taken
          rw [inOrder]
          exact bind_eq_ok.mpr ⟨content, found, (inside found).settled taken⟩
        · intro result apart taken
          rw [inOrder] at taken
          obtain ⟨content, found, taken⟩ := bind_eq_ok.mp taken
          have apart : value.KeysApart := apart.part (by simp [parts])
          exact bind_eq_ok.mpr ⟨content, found, (inside found).given apart taken⟩
      · constructor
        · intro result taken
          cases taken
        · intro result apart taken
          have length := apart.perm.length_eq
          rw [normalize, variants_several (by simp [length])] at taken
          cases taken
  | _ => constructor <;> simp [variants, normalize]

theorem Format.names_steady (entries : List (String × α)) (name : α → String) :
    (names entries name).Steady := by
  apply variants_steady
  intro variant listed
  obtain ⟨⟨name, value⟩, -, rfl⟩ := List.mem_map.mp listed
  exact Content.unit_steady value

end Variants

/-! ## Records -/

theorem lookup_zip_map (change : Json → Json) (names : List String) (items : List Json)
    (name : String) : (names.zip (items.map change)).lookup name =
      ((names.zip items).lookup name).map change := by
  induction names generalizing items with
  | nil => rfl
  | cons first names ih =>
      cases items with
      | nil => rfl
      | cons item items =>
          rw [List.map_cons, List.zip_cons_cons, List.zip_cons_cons, lookup_cons_eq, lookup_cons_eq,
            ih]
          split <;> rfl

namespace Fields

variable {α β γ σ τ : Type} {fields : Fields γ σ} {find : String → Option Json} {values : γ}
  {members : List (String × Json)}

def Steady : {γ σ : Type} → Fields γ σ → Prop
  | _, _, .done => True
  | _, _, .field _ format absent _ rest =>
      format.Steady ∧ (∀ standIn, absent ≠ .nullable standIn) ∧ rest.Steady

theorem steady_need {name : String} {format : Format α} {rest : Fields β τ}
    (first : format.Steady) (others : rest.Steady) : (need name format rest).Steady :=
  ⟨first, nofun, others⟩

theorem steady_optional {name : String} {format : Format α} {rest : Fields β τ}
    (first : format.Steady) (others : rest.Steady) : (optional name format rest).Steady :=
  ⟨Format.option_steady first, nofun, others⟩

theorem Steady.uniform (steady : fields.Steady) : fields.Uniform := by
  induction fields with
  | done => trivial
  | field name format absent hidden rest ih => exact ⟨steady.2.1, ih steady.2.2⟩

theorem Found.settled (found : fields.Found find values) (steady : fields.Steady) :
    fields.Found (fun name => (find name).map normalize) values := by
  induction fields with
  | done => trivial
  | field name format absent hidden rest ih =>
      obtain ⟨value, values⟩ := values
      obtain ⟨given, others⟩ := found
      obtain ⟨first, -, steady⟩ := steady
      refine ⟨?_, ih others steady⟩
      cases looked : find name with
      | none => simpa only [looked, Option.map_none] using given
      | some json =>
          simp only [looked, Option.map_some] at given ⊢
          exact (first json).settled given

theorem Found.given (found : fields.Found (fun name => (find name).map normalize) values)
    (steady : fields.Steady)
    (apart : ∀ {name json}, find name = some json → json.KeysApart) :
    fields.Found find values := by
  induction fields with
  | done => trivial
  | field name format absent hidden rest ih =>
      obtain ⟨value, values⟩ := values
      obtain ⟨given, others⟩ := found
      obtain ⟨first, -, steady⟩ := steady
      refine ⟨?_, ih others steady⟩
      cases looked : find name with
      | none => simpa only [looked, Option.map_none] using given
      | some json =>
          simp only [looked, Option.map_some] at given
          exact (first json).given (apart looked) given

theorem ofMembers_field {name : String} {format : Format α} {absent : Absent α}
    {hidden : α → Bool} {rest : Fields β τ} {slot slot' : Option α} {slots slots' : τ}
    (missing : name ∉ rest.names)
    (taken : (field name format absent hidden rest).ofMembers (slot, slots) members =
      .ok (slot', slots')) :
    (match members.reverse.lookup name with
      | some json => slot = none ∧ ∃ value, format.ofJson json = .ok value ∧ slot' = some value
      | none => slot' = slot) ∧ rest.ofMembers slots members = .ok slots' := by
  induction members generalizing slot slots with
  | nil =>
      cases taken
      exact ⟨rfl, rfl⟩
  | cons member members ih =>
      obtain ⟨key, json⟩ := member
      rw [ofMembers_cons] at taken
      obtain ⟨⟨between, inner⟩, one, taken⟩ := bind_eq_ok.mp taken
      obtain ⟨first, others⟩ := ih taken
      rw [List.reverse_cons, List.lookup_append, lookup_cons_eq, ofMembers_cons rest]
      by_cases same : name = key
      · subst same
        obtain ⟨rfl, value, read, result⟩ := ofMembers_own.mp one
        cases result
        -- The slot is filled, so no later member has this name.
        cases later : members.reverse.lookup name with
        | some json =>
            rw [later] at first
            cases first.1
        | none =>
            rw [later] at first
            rw [ofMembers_foreign missing, ok_bind]
            simpa using ⟨⟨value, read, first⟩, others⟩
      · rw [ofMembers_other (Ne.symm same)] at one
        obtain ⟨inner, one, result⟩ := map_eq_ok.mp one
        cases result
        rw [one, ok_bind, if_neg same]
        simpa using ⟨first, others⟩

theorem found_of_ofJson {kind : String} (distinct : fields.names.Nodup)
    (read : fields.ofJson kind (.object members) = .ok values) :
    fields.Found (fun name => members.reverse.lookup name) values := by
  obtain ⟨slots, taken, finished⟩ := bind_eq_ok.mp read
  clear read
  induction fields with
  | done => trivial
  | field name format absent hidden rest ih =>
      obtain ⟨value, values⟩ := values
      obtain ⟨missing, distinct⟩ := List.nodup_cons.mp distinct
      obtain ⟨slot, slots⟩ := slots
      obtain ⟨first, others⟩ := ofMembers_field missing taken
      obtain ⟨standing, finished⟩ := finish_field.mp finished
      refine ⟨?_, ih distinct slots others finished⟩
      cases looked : members.reverse.lookup name with
      | none =>
          rw [looked] at first
          simpa only [looked, first, reduceCtorEq, false_or, true_and] using standing
      | some json =>
          rw [looked] at first
          obtain ⟨-, found, read, rfl⟩ := first
          obtain rfl : found = value := by simpa using standing
          simpa only [looked] using read

theorem ofJson_steady (steady : fields.Steady) (distinct : fields.names.Nodup) (kind : String)
    (json : Json) : Json.Steady (fields.ofJson kind) json := by
  cases json with
  | object members =>
      have inOrder := nodup_of_ascending (ascending_normalizeMembers members .nil)
      constructor
      · intro values read
        apply (ofJson_object_iff kind distinct inOrder).mpr
        refine ((found_of_ofJson distinct read).settled steady).congr _ fun name _ => ?_
        simp [lookup_normalizeMembers_last]
      · intro values apart read
        apply (ofJson_object_iff kind distinct apart.nodup).mpr
        have found := (ofJson_object_iff kind distinct inOrder).mp read
        refine Found.given (found.congr _ fun name _ => ?_) steady apart.lookup
        simp [lookup_normalizeMembers _ apart.nodup]
  | array items =>
      have paired (name : String) := lookup_zip_map normalize fields.names items name
      constructor
      · intro values read
        obtain ⟨short, found⟩ := (ofJson_array_iff steady.uniform distinct kind).mp read
        rw [normalize, normalizeItems_eq]
        apply (ofJson_array_iff steady.uniform distinct kind).mpr
        simpa only [List.length_map, paired] using ⟨short, found.settled steady⟩
      · intro values apart read
        rw [normalize, normalizeItems_eq] at read
        obtain ⟨short, found⟩ := (ofJson_array_iff steady.uniform distinct kind).mp read
        simp only [List.length_map, paired] at short found
        apply (ofJson_array_iff steady.uniform distinct kind).mpr
        refine ⟨short, found.given steady fun {name json} looked => ?_⟩
        obtain ⟨before, after, same, -⟩ := List.lookup_eq_some_iff.mp looked
        have listed : (name, json) ∈ fields.names.zip items := by simp [same]
        exact apart.part (List.of_mem_zip listed).2
  | _ => exact .of_normalize (by simp [normalize])

end Fields

theorem Format.record_steady {α γ σ : Type} {fields : Fields γ σ} (steady : fields.Steady)
    (distinct : fields.names.Nodup) (kind : String) (pack : γ → α) (unpack : α → γ) :
    (record kind fields pack unpack).Steady :=
  fun json => (fields.ofJson_steady steady distinct kind json).map pack

/-! ## Records of several kinds -/

inductive Shape.Steady {α : Type} (tag : String) : Shape α → Prop where
  | empty (value : α) : Steady tag (.empty value)
  | record {γ σ : Type} {fields : Fields γ σ} (owner : String) (pack : γ → α) :
      fields.Steady → (tag :: fields.names).Nodup → Steady tag (.record owner fields pack)

theorem Shape.Steady.array {α : Type} {tag : String} {shape : Shape α} (steady : shape.Steady tag)
    (items : List Json) : Json.Steady shape.ofJson (.array items) := by
  cases steady with
  | empty value =>
      have alike : (Shape.empty value).ofJson (normalize (.array items)) =
          (Shape.empty value).ofJson (.array items) := by
        simp [normalize, normalizeItems_eq, Shape.ofJson]
      constructor <;> simp [alike]
  | record owner pack steady distinct =>
      exact (Fields.ofJson_steady steady (List.nodup_cons.mp distinct).2 owner _).map pack

namespace Tagged

variable {α : Type} {tagged : Tagged α} {members others : List (String × Json)}
  {kind : Option String} {value : α}

theorem split_tag {json : Json} :
    tagged.split ((tagged.tag, json) :: members) = .ok (kind, others) ↔
      ∃ name, json = .string name ∧ kind = some name ∧
        tagged.split members = .ok (none, others) := by
  simp only [split, ↓reduceIte, bind_eq_ok]
  constructor
  · rintro ⟨name, given, ⟨again, left⟩, taken, same⟩
    cases again with
    | some again => cases same
    | none =>
        cases same
        cases json with
        | string name =>
            cases given
            exact ⟨name, rfl, rfl, taken⟩
        | _ => cases given
  · rintro ⟨name, rfl, rfl, taken⟩
    exact ⟨name, rfl, _, taken, rfl⟩

theorem split_other {key : String} {json : Json} (differs : key ≠ tagged.tag) :
    tagged.split ((key, json) :: members) = .ok (kind, others) ↔
      ∃ left, tagged.split members = .ok (kind, left) ∧ others = (key, json) :: left := by
  simp only [split, if_neg differs, bind_eq_ok]
  constructor
  · rintro ⟨⟨found, left⟩, taken, same⟩
    cases same
    exact ⟨left, taken, rfl⟩
  · rintro ⟨left, taken, rfl⟩
    exact ⟨_, taken, rfl⟩

theorem lookup_of_split (taken : tagged.split members = .ok (kind, others)) :
    members.reverse.lookup tagged.tag = kind.map .string ∧
      ∀ key, key ≠ tagged.tag → others.reverse.lookup key = members.reverse.lookup key := by
  induction members generalizing kind others with
  | nil =>
      cases taken
      exact ⟨rfl, fun _ _ => rfl⟩
  | cons member members ih =>
      obtain ⟨key, json⟩ := member
      by_cases own : key = tagged.tag
      · subst own
        obtain ⟨name, rfl, rfl, later⟩ := split_tag.mp taken
        obtain ⟨missing, kept⟩ := ih later
        refine ⟨by simp [List.lookup_append, missing], fun key differs => ?_⟩
        simp [List.lookup_append, kept key differs, lookup_cons_eq, differs]
      · obtain ⟨left, later, rfl⟩ := (split_other own).mp taken
        obtain ⟨named, kept⟩ := ih later
        refine ⟨?_, fun key differs => ?_⟩
        · simp [List.lookup_append, named, lookup_cons_eq, Ne.symm own]
        · simp [List.lookup_append, kept key differs]

theorem ofJson_object_eq_ok (read : tagged.ofJson (.object members) = .ok value) :
    ∃ kind others, members.reverse.lookup tagged.tag = some (.string kind) ∧
      (∀ key, key ≠ tagged.tag → others.reverse.lookup key = members.reverse.lookup key) ∧
      (tagged.shape kind).ofJson (.object others) = .ok value := by
  obtain ⟨⟨kind, others⟩, taken, finished⟩ := bind_eq_ok.mp read
  obtain ⟨named, kept⟩ := lookup_of_split taken
  cases kind with
  | none => cases finished
  | some kind => exact ⟨kind, others, named, kept, finished⟩

section Steady

variable (steady : ∀ kind, (tagged.shape kind).Steady tagged.tag)
include steady

theorem settled_object (read : tagged.ofJson (.object members) = .ok value) :
    tagged.ofJson (.object (normalizeMembers [] members)) = .ok value := by
  have inOrder := nodup_of_ascending (ascending_normalizeMembers members .nil)
  have last := lookup_normalizeMembers_last [] members
  obtain ⟨kind, others, named, kept, read⟩ := ofJson_object_eq_ok read
  have named : (normalizeMembers [] members).lookup tagged.tag = some (.string kind) := by
    simp [last, named, normalize]
  have steady := steady kind
  generalize shaped : tagged.shape kind = shape at steady read
  cases steady with
  | empty blank =>
      rw [ofJson_empty_iff tagged inOrder named shaped]
      exact (eq_of_ofJson_empty read).symm
  | record owner pack steady distinct =>
      obtain ⟨missing, fieldsApart⟩ := List.nodup_cons.mp distinct
      obtain ⟨values, read, packed⟩ := map_eq_ok.mp read
      have found := (Fields.found_of_ofJson fieldsApart read).settled steady
      apply (ofJson_iff tagged inOrder named shaped distinct).mpr
      refine ⟨values, found.congr _ fun name listed => ?_, packed⟩
      have differs : name ≠ tagged.tag := fun same => missing (same ▸ listed)
      simp [last, kept name differs]

theorem given_object (apart : (object members).KeysApart)
    (read : tagged.ofJson (.object (normalizeMembers [] members)) = .ok value) :
    tagged.ofJson (.object members) = .ok value := by
  have inOrder := nodup_of_ascending (ascending_normalizeMembers members .nil)
  have looked := lookup_normalizeMembers [] apart.nodup
  obtain ⟨kind, others, named, -⟩ := ofJson_object_eq_ok read
  rw [lookup_reverse inOrder] at named
  have named' : members.lookup tagged.tag = some (.string kind) := by
    have same := looked tagged.tag
    rw [named] at same
    cases found : members.lookup tagged.tag with
    | none => simp [found] at same
    | some json => cases json <;> simp_all [normalize]
  have steady := steady kind
  generalize shaped : tagged.shape kind = shape at steady
  cases steady with
  | empty blank =>
      rw [ofJson_empty_iff tagged inOrder named shaped] at read
      exact (ofJson_empty_iff tagged apart.nodup named' shaped).mpr read
  | record owner pack steady distinct =>
      obtain ⟨values, found, packed⟩ := (ofJson_iff tagged inOrder named shaped distinct).mp read
      apply (ofJson_iff tagged apart.nodup named' shaped distinct).mpr
      refine ⟨values, Fields.Found.given (found.congr _ fun name _ => ?_) steady apart.lookup,
        packed⟩
      simp [looked]

theorem steady_array (items : List Json) : Json.Steady tagged.ofJson (.array items) := by
  cases items with
  | nil => exact .of_normalize (by simp [normalize, normalizeItems])
  | cons first items =>
      have inOrder : normalize (.array (first :: items)) =
          .array (first.normalize :: normalizeItems items) := by
        rw [normalize, normalizeItems]
      have named (kind : String) :
          kindOfJson first.normalize = .ok kind ↔ kindOfJson first = .ok kind := by
        cases first <;> simp [normalize, kindOfJson]
      have others (kind : String) := (steady kind).array items
      constructor
      · intro value read
        obtain ⟨kind, given, read⟩ := bind_eq_ok.mp read
        have read := (others kind).settled read
        rw [normalize] at read
        rw [inOrder]
        exact bind_eq_ok.mpr ⟨kind, (named kind).mpr given, read⟩
      · intro value apart read
        have apart : (array items).KeysApart :=
          KeysApart.array_iff.mpr (List.forall_mem_cons.mp (KeysApart.array_iff.mp apart)).2
        rw [inOrder] at read
        obtain ⟨kind, given, read⟩ := bind_eq_ok.mp read
        refine bind_eq_ok.mpr ⟨kind, (named kind).mp given, (others kind).given apart ?_⟩
        rw [normalize]
        exact read

theorem ofJson_steady (json : Json) : Json.Steady tagged.ofJson json := by
  cases json with
  | object members =>
      constructor
      · intro value read
        rw [normalize]
        exact settled_object steady read
      · intro value apart read
        rw [normalize] at read
        exact given_object steady apart read
  | array items => exact steady_array steady items
  | _ => exact .of_normalize (by simp [normalize])

end Steady

end Tagged

end VisualNovel.Json
