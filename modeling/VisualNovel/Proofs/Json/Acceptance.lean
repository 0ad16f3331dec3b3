import VisualNovel.Proofs.Json.Origins
import Mathlib.Data.List.Forall2

/-!
Which values at hand a format accepts, and what it takes them for. `Takes` ties a format to a
relation between settled values and what they stand for; the relations know no reading and no
order of reading, and each way to put formats together has a law.

Main statements: `Fields.ofJson_iff`, `Format.record_takes` and `Tagged.ofJson_iff`.
-/

namespace VisualNovel.Json

/-! ## Values that stand for something -/

/-- What a record gives for the names of its fields: an object by key, an array in order. -/
def fieldsOf? (names : List String) : Json → Option (String → Option Json)
  | .object members => some fun name => members.lookup name
  | .array items =>
      if items.length ≤ names.length then some fun name => (names.zip items).lookup name else none
  | _ => none

section Standing

variable {α : Type}

def Needs (find : String → Option Json) (name : String) (stands : Json → α → Prop) (value : α) :
    Prop :=
  ∃ json, find name = some json ∧ stands json value

def MayHave (find : String → Option Json) (name : String) (stands : Json → α → Prop) :
    Option α → Prop
  | some value => ∃ json, find name = some json ∧ json ≠ .null ∧ stands json value
  | none => find name = none ∨ find name = some .null

def IsText (json : Json) (value : String) : Prop :=
  json = .string value

def IsBoolean (json : Json) (value : Bool) : Prop :=
  json = .bool value

def IsMillis (json : Json) (value : UInt64) : Prop :=
  json = .number (.integer value.toNat)

/-- A variant by its name alone, or as the only key of an object whose content is hollow. -/
def IsVariant (hollow : Json → Prop) (name : α → String) (json : Json) (value : α) : Prop :=
  json = .string (name value) ∨ ∃ content, hollow content ∧ json = .object [(name value, content)]

def IsSequence (stands : Json → α → Prop) (json : Json) (values : List α) : Prop :=
  ∃ items, json = .array items ∧ List.Forall₂ stands items values

end Standing

def Hollow (content : Json) : Prop :=
  content = .null ∨ content = .object []

/-! ## Settled values -/

namespace Settled

theorem part {value inner : Json} (settled : value.Settled) (inside : inner ∈ value.parts) :
    inner.Settled := by
  refine ⟨?_, fun number found => settled.2 number (numbers_parts inside found)⟩
  have member : inner ∈ value.normalize.parts := settled.1.symm ▸ inside
  obtain ⟨origin, -, rfl⟩ := parts_normalize member
  exact origin.normalize_normalize

theorem nodup {members : List (String × Json)} (settled : (object members).Settled) :
    (members.map Prod.fst).Nodup := by
  have same : normalizeMembers [] members = members := by
    simpa only [normalize, object.injEq] using settled.1
  exact same ▸ nodup_of_ascending (ascending_normalizeMembers members .nil)

theorem lookup {members : List (String × Json)} {name : String} {inner : Json}
    (settled : (object members).Settled) (found : members.lookup name = some inner) :
    inner.Settled := by
  obtain ⟨before, after, same, -⟩ := List.lookup_eq_some_iff.mp found
  exact settled.part (List.mem_map.mpr ⟨(name, inner), by simp [same], rfl⟩)

theorem fieldsOf? {value inner : Json} {names : List String} {find : String → Option Json}
    {name : String} (settled : value.Settled) (given : fieldsOf? names value = some find)
    (found : find name = some inner) : inner.Settled := by
  cases value with
  | object members =>
      cases given
      exact settled.lookup found
  | array items =>
      simp only [Json.fieldsOf?, Option.ite_none_right_eq_some] at given
      obtain ⟨-, same⟩ := given
      cases same
      obtain ⟨before, after, same, -⟩ := List.lookup_eq_some_iff.mp found
      have paired : (name, inner) ∈ names.zip items := by simp [same]
      exact settled.part (List.of_mem_zip paired).2
  | _ => cases given

end Settled

/-! ## Formats -/

theorem Content.unit_ofJson_iff {α : Type} {named value : α} {content : Json} :
    (Content.unit named).ofJson content = .ok value ↔ Hollow content ∧ named = value := by
  cases content with
  | null => simp [Content.ofJson, Hollow]
  | object members => cases members <;> simp [Content.ofJson, Hollow]
  | _ => simp [Content.ofJson, Hollow]

namespace Format

variable {α : Type} {format : Format α} {stands : Json → α → Prop}

def Takes (format : Format α) (stands : Json → α → Prop) : Prop :=
  ∀ {json : Json}, json.Settled → ∀ value, format.ofJson json = .ok value ↔ stands json value

theorem text_takes : text.Takes IsText := by
  intro json settled value
  cases json <;> simp [text, IsText]

theorem boolean_takes : boolean.Takes IsBoolean := by
  intro json settled value
  cases json <;> simp [boolean, IsBoolean]

theorem any_takes : any.Takes Eq := by
  intro json settled value
  simp [any, settled.1]

theorem millis_takes : millis.Takes IsMillis := by
  intro json settled value
  have whole (number : Nat) (inRange : number < 2 ^ 64) :
      UInt64.ofNat number = value ↔ number = value.toNat := by
    rw [← UInt64.toNat_inj, UInt64.toNat_ofNat', Nat.mod_eq_of_lt inRange]
  cases json with
  | number number =>
      cases number with
      | integer integer =>
          cases integer with
          | ofNat number =>
              have inRange := settled.2 (.integer number) (by simp [numbers])
              have fits : number < 2 ^ 64 := by
                have above := inRange.2
                omega
              simpa [millis, imap, natural, naturalOfNumber, IsMillis, Except.map,
                Int.natCast_inj] using whole number fits
          | negSucc number => simp [millis, imap, natural, naturalOfNumber, IsMillis, Except.map]
      | float number => simp [millis, imap, natural, naturalOfNumber, IsMillis, Except.map]
  | _ => simp [millis, imap, natural, IsMillis, Except.map]

section Names

variable {values : List α} {name : α → String} (all : ∀ value, value ∈ values)
  (apart : Function.Injective name)
include all apart

theorem find?_named {given : String} {value : α} :
    values.find? (fun candidate => name candidate = given) = some value ↔ given = name value := by
  constructor
  · intro found
    simpa [eq_comm] using List.find?_some found
  · rintro rfl
    cases sought : values.find? (fun candidate => name candidate = name value) with
    | none => simpa using List.find?_eq_none.mp sought value (all value)
    | some other =>
        have same : name other = name value := by simpa using List.find?_some sought
        rw [apart same]

theorem find?_names {given : String} {content : Content α} :
    Variant.find? ((values.map fun value => (name value, value)).map
        fun (name, value) => .unit name value) given = .ok content ↔
      ∃ value, given = name value ∧ content = .unit value := by
  simp only [Variant.find?, List.map_map, List.find?_map]
  cases sought : values.find? (fun candidate => name candidate = given) with
  | none =>
      have unnamed (value : α) : given ≠ name value := fun same => by
        simp [(find?_named all apart).mpr same] at sought
      simp [Function.comp_def, Variant.unit, sought, unnamed]
  | some value =>
      obtain rfl := (find?_named all apart).mp sought
      simp [Function.comp_def, Variant.unit, sought, apart.eq_iff, eq_comm]

theorem names_takes :
    (names (values.map fun value => (name value, value)) name).Takes (IsVariant Hollow name) := by
  intro json settled value
  cases json with
  | string given =>
      simp only [names, variants, bind_eq_ok, find?_names all apart]
      constructor
      · rintro ⟨content, ⟨named, rfl, rfl⟩, bare⟩
        cases bare
        exact .inl rfl
      · rintro (same | ⟨content, -, other⟩)
        · exact ⟨.unit value, ⟨value, by simpa using same, rfl⟩, rfl⟩
        · cases other
  | object members =>
      rcases members with - | ⟨⟨given, content⟩, - | ⟨second, members⟩⟩
      · simp [names, variants, IsVariant]
      · simp only [names, variants, bind_eq_ok, find?_names all apart]
        constructor
        · rintro ⟨_, ⟨named, rfl, rfl⟩, held⟩
          obtain ⟨empty, rfl⟩ := Content.unit_ofJson_iff.mp held
          exact .inr ⟨content, empty, rfl⟩
        · rintro (other | ⟨content, empty, same⟩)
          · cases other
          · cases same
            exact ⟨.unit value, ⟨value, rfl, rfl⟩, Content.unit_ofJson_iff.mpr ⟨empty, rfl⟩⟩
      · simp [names, variants, IsVariant]
  | _ => simp [names, variants, IsVariant]

end Names

theorem list_takes (item : format.Takes stands) : (list format).Takes (IsSequence stands) := by
  intro json settled values
  cases json with
  | array items =>
      have inside : ∀ item ∈ items, item.Settled := fun item listed => settled.part listed
      clear settled
      simp only [list, IsSequence, array.injEq, exists_eq_left']
      induction items generalizing values with
      | nil => cases values <;> simp [itemsOfJson]
      | cons first items ih =>
          obtain ⟨this, others⟩ := List.forall_mem_cons.mp inside
          simp only [itemsOfJson, bind_eq_ok, item this, ih _ others]
          cases values <;> simp [pure, Except.pure]
  | _ => simp [list, IsSequence]

end Format

/-! ## Fields of records -/

namespace Fields

variable {α β γ σ τ : Type} {find : String → Option Json}

section First

variable {name : String} {format : Format α} {absent : Absent α} {hidden : α → Bool}
  {rest : Fields β τ}

theorem ofItems_nil (uniform : ∀ standIn, absent ≠ .nullable standIn) {expected : String}
    {place : Nat} {value : α} {values : β} {left : List Json} :
    (field name format absent hidden rest).ofItems expected place [] =
        .ok ((value, values), left) ↔
      absent.value? = some value ∧ rest.ofItems expected (place + 1) [] = .ok (values, left) := by
  cases absent with
  | refused => simp [ofItems, Absent.value?]
  | nullable standIn => exact absurd rfl (uniform standIn)
  | default standIn =>
      cases taken : rest.ofItems expected (place + 1) [] with
      | error reason => simp [ofItems, taken, bind, Except.bind]
      | ok found =>
          simp [ofItems, taken, bind, Except.bind, pure, Except.pure, Absent.value?, Prod.ext_iff,
            and_assoc]

theorem ofItems_cons {expected : String} {place : Nat} {item : Json} {items left : List Json}
    {value : α} {values : β} :
    (field name format absent hidden rest).ofItems expected place (item :: items) =
        .ok ((value, values), left) ↔
      format.ofJson item = .ok value ∧
        rest.ofItems expected (place + 1) items = .ok (values, left) := by
  cases first : format.ofJson item with
  | error reason => simp [ofItems, first, bind, Except.bind]
  | ok found =>
      cases taken : rest.ofItems expected (place + 1) items with
      | error reason => simp [ofItems, first, taken, bind, Except.bind]
      | ok others =>
          simp [ofItems, first, taken, bind, Except.bind, pure, Except.pure, Prod.ext_iff,
            and_assoc]

end First

theorem length_names (fields : Fields γ σ) : fields.names.length = fields.count := by
  induction fields with
  | done => rfl
  | field name format absent hidden rest ih => simp [names, count, ih]

theorem found_congr {find find' : String → Option Json} {fields : Fields γ σ} {values : γ}
    (same : ∀ key ∈ fields.names, find key = find' key) :
    fields.Found find values ↔ fields.Found find' values :=
  ⟨fun found => found.congr _ same,
    fun found => found.congr _ fun key listed => (same key listed).symm⟩

def Uniform : {γ σ : Type} → Fields γ σ → Prop
  | _, _, .done => True
  | _, _, .field _ _ absent _ rest => (∀ standIn, absent ≠ .nullable standIn) ∧ rest.Uniform

theorem ofItems_iff {fields : Fields γ σ} (uniform : fields.Uniform)
    (distinct : fields.names.Nodup) {expected : String} {place : Nat} {items left : List Json}
    {values : γ} : fields.ofItems expected place items = .ok (values, left) ↔
      fields.Found (fun name => (fields.names.zip items).lookup name) values ∧
        left = items.drop fields.count := by
  induction fields generalizing place items with
  | done => simp [ofItems, Found, count, eq_comm]
  | field name format absent hidden rest ih =>
      obtain ⟨value, values⟩ := values
      obtain ⟨refused, uniform⟩ := uniform
      obtain ⟨missing, distinct⟩ := List.nodup_cons.mp distinct
      cases items with
      | nil =>
          rw [ofItems_nil refused, ih uniform distinct]
          simp [Found, and_assoc]
      | cons item items =>
          -- Behind the first, the other names are paired with the other items.
          have others :
              rest.Found (fun key => ((name :: rest.names).zip (item :: items)).lookup key) values ↔
                rest.Found (fun key => (rest.names.zip items).lookup key) values := by
            apply found_congr
            intro key listed
            have differs : key ≠ name := fun same => missing (same ▸ listed)
            rw [List.zip_cons_cons, lookup_cons_eq, if_neg differs]
          rw [ofItems_cons, ih uniform distinct]
          simp only [Found, names, others, count, List.drop_succ_cons, and_assoc]
          simp

theorem ofJson_array_iff {fields : Fields γ σ} (uniform : fields.Uniform)
    (distinct : fields.names.Nodup) (kind : String) {items : List Json} {values : γ} :
    fields.ofJson kind (.array items) = .ok values ↔ items.length ≤ fields.names.length ∧
      fields.Found (fun name => (fields.names.zip items).lookup name) values := by
  rw [length_names]
  constructor
  · intro read
    obtain ⟨⟨found, left⟩, taken, read⟩ := bind_eq_ok.mp read
    obtain ⟨given, rfl⟩ := (ofItems_iff uniform distinct).mp taken
    dsimp only at read
    split at read
    · next short =>
        cases read
        exact ⟨by simpa using short, given⟩
    · cases read
  · rintro ⟨short, given⟩
    refine bind_eq_ok.mpr ⟨_, (ofItems_iff uniform distinct).mpr ⟨given, rfl⟩, ?_⟩
    have consumed : (items.drop fields.count).isEmpty := by simpa using short
    dsimp only
    rw [if_pos consumed]
    rfl

theorem ofJson_iff {fields : Fields γ σ} (uniform : fields.Uniform)
    (distinct : fields.names.Nodup) {kind : String} {json : Json} {values : γ}
    (settled : json.Settled) : fields.ofJson kind json = .ok values ↔
      ∃ find, fieldsOf? fields.names json = some find ∧ fields.Found find values := by
  cases json with
  | object members =>
      simp only [fieldsOf?, Option.some.injEq, exists_eq_left']
      exact ofJson_object_iff kind distinct settled.nodup
  | array items =>
      rw [ofJson_array_iff uniform distinct]
      simp only [fieldsOf?, Option.ite_none_right_eq_some, Option.some.injEq]
      constructor
      · rintro ⟨short, given⟩
        exact ⟨_, ⟨short, rfl⟩, given⟩
      · rintro ⟨_, ⟨short, rfl⟩, given⟩
        exact ⟨short, given⟩
  | _ => simp [ofJson, fieldsOf?]

/-! ## Required and optional fields -/

section Kinds

variable {name : String} {format : Format α} {rest : Fields β τ} {stands : Json → α → Prop}
  (takes : format.Takes stands) (settled : ∀ {name json}, find name = some json → json.Settled)
include takes settled

theorem found_need {value : α} {values : β} :
    (need name format rest).Found find (value, values) ↔
      Needs find name stands value ∧ rest.Found find values := by
  refine and_congr_left fun _ => ?_
  cases found : find name with
  | none => simp [Needs, found, Absent.value?]
  | some json => simp [Needs, found, takes (settled found)]

theorem found_optional {value : Option α} {values : β} :
    (optional name format rest).Found find (value, values) ↔
      MayHave find name stands value ∧ rest.Found find values := by
  refine and_congr_left fun _ => ?_
  cases found : find name with
  | none => cases value <;> simp [MayHave, found, Absent.value?]
  | some json =>
      by_cases empty : json = .null
      · subst empty
        cases value <;> simp [MayHave, found, Format.option]
      · dsimp only
        rw [Format.option_ofJson empty, map_eq_ok]
        cases value <;> simp [MayHave, found, empty, takes (settled found)]

end Kinds

end Fields

theorem Format.record_takes {α γ σ : Type} {kind : String} {fields : Fields γ σ} {pack : γ → α}
    {unpack : α → γ} {stands : (String → Option Json) → α → Prop} (uniform : fields.Uniform)
    (distinct : fields.names.Nodup) (packed : ∀ value, pack (unpack value) = value)
    (unpacked : ∀ values, unpack (pack values) = values)
    (found : ∀ {find}, (∀ {name json}, find name = some json → json.Settled) →
      ∀ value, fields.Found find (unpack value) ↔ stands find value) :
    (record kind fields pack unpack).Takes fun json value =>
      ∃ find, fieldsOf? fields.names json = some find ∧ stands find value := by
  intro json settled value
  have read : (record kind fields pack unpack).ofJson json = .ok value ↔
      fields.ofJson kind json = .ok (unpack value) := by
    show (fields.ofJson kind json).map pack = .ok value ↔ _
    rw [map_eq_ok]
    constructor
    · rintro ⟨values, read, rfl⟩
      rwa [unpacked]
    · exact fun read => ⟨_, read, packed value⟩
  rw [read, Fields.ofJson_iff uniform distinct settled]
  refine exists_congr fun find => and_congr_right fun given => ?_
  exact found (fun found => settled.fieldsOf? given found) value

/-! ## Records of several kinds -/

namespace Tagged

variable {α γ σ : Type} (tagged : Tagged α) {fields : Fields γ σ} {pack : γ → α}
  {members : List (String × Json)} {kind owner : String} {value : α}
  (apart : (members.map Prod.fst).Nodup)
  (named : members.lookup tagged.tag = some (.string kind))
include apart named

theorem ofJson_iff (shaped : tagged.shape kind = .record owner fields pack)
    (distinct : (tagged.tag :: fields.names).Nodup) :
    tagged.ofJson (.object members) = .ok value ↔
      ∃ values, fields.Found (fun key => members.lookup key) values ∧ pack values = value := by
  obtain ⟨foreign, distinct⟩ := List.nodup_cons.mp distinct
  obtain ⟨others, read, within, same⟩ := ofJson_of_lookup apart named
  have found (values : γ) : fields.ofJson owner (.object others) = .ok values ↔
      fields.Found (fun key => members.lookup key) values := by
    have inner : (others.map Prod.fst).Nodup := apart.sublist (within.map Prod.fst)
    rw [← Fields.found_congr fun key listed => same key fun tag => foreign (tag ▸ listed)]
    exact Fields.ofJson_object_iff owner distinct inner
  rw [read, shaped]
  show (fields.ofJson owner (.object others)).map pack = .ok value ↔ _
  simp only [map_eq_ok, found]

theorem ofJson_empty_iff {blank : α} (shaped : tagged.shape kind = .empty blank) :
    tagged.ofJson (.object members) = .ok value ↔ blank = value := by
  obtain ⟨others, read, -⟩ := ofJson_of_lookup apart named
  rw [read, shaped]
  simp [Shape.ofJson]

end Tagged

end VisualNovel.Json
