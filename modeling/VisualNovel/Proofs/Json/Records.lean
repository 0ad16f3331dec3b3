import VisualNovel.Json.Tagged
import VisualNovel.Proofs.Json.Formats

/-!
Laws of records. A record is read back from the members written for it, and taken from any object
in which each field finds its value, in whatever order the members stand. The same holds for records
that are told apart by a kind.

Main statements: `record_rereads`, `Fields.ofJson_object_iff`, `record_converts` and
`Tagged.ofJson_write`.
-/

namespace VisualNovel.Json

open Reader

theorem Reader.Steps.map {σ τ ι : Type} {step : σ → ι → σ → Prop} {step' : τ → ι → τ → Prop}
    (change : σ → τ) {items : List ι} {first last : σ} (steps : Steps step first items last)
    (takes : ∀ before, ∀ item ∈ items, ∀ after, step before item after →
      step' (change before) item (change after)) :
    Steps step' (change first) items (change last) := by
  induction steps with
  | nil state => exact .nil _
  | cons taken steps ih =>
      exact .cons (takes _ _ List.mem_cons_self _ taken)
        (ih fun before item listed => takes before item (List.mem_cons_of_mem _ listed))

namespace Fields

variable {α β γ σ τ : Type}

def names : {γ σ : Type} → Fields γ σ → List String
  | _, _, .done => []
  | _, _, .field name _ _ _ rest => name :: rest.names

def Each (holds : {α : Type} → Format α → Absent α → (α → Bool) → α → Prop) :
    {γ σ : Type} → Fields γ σ → γ → Prop
  | _, _, .done, () => True
  | _, _, .field _ format absent hidden rest, (value, values) =>
      holds format absent hidden value ∧ rest.Each holds values

theorem write_keys (fields : Fields γ σ) (values : γ) :
    ((fields.write values).map Prod.fst).Sublist fields.names := by
  induction fields with
  | done => exact .slnil
  | field name format absent hidden rest ih =>
      obtain ⟨value, values⟩ := values
      simp only [write, names]
      split
      · exact (ih values).cons _
      · exact (ih values).cons_cons _

theorem write_each (holds : Json → Prop) {fields : Fields γ σ} {values : γ}
    (each : fields.Each (fun format _ _ value => holds (format.write value)) values) :
    ∀ member ∈ fields.write values, holds member.2 := by
  induction fields with
  | done => simp [write]
  | field name format absent hidden rest ih =>
      obtain ⟨value, values⟩ := values
      obtain ⟨first, others⟩ := each
      simp only [write]
      split
      · exact ih others
      · exact List.forall_mem_cons.mpr ⟨first, ih others⟩

theorem bounded_write {allowed : Number → Prop} {depth : Nat} {fields : Fields γ σ} {values : γ}
    (each : fields.Each (fun format _ _ value => (format.write value).Bounded allowed depth)
      values) : (Json.object (fields.write values)).Bounded allowed (depth + 1) := by
  refine bounded_of_parts (by simp) fun part inside => ?_
  obtain ⟨member, listed, rfl⟩ := List.mem_map.mp inside
  exact write_each (·.Bounded allowed depth) each member listed

/-! ## Texts -/

section Texts

variable {name : String} {format : Format α} {absent : Absent α} {hidden : α → Bool}
  {rest : Fields β τ}

theorem isFilled?_of_not_mem {fields : Fields γ σ} {slots : σ} {key : String}
    (missing : key ∉ fields.names) : fields.isFilled? slots key = none := by
  induction fields with
  | done => rfl
  | field name format absent hidden rest ih =>
      have differs : key ≠ name := fun same => missing (same ▸ List.mem_cons_self)
      simp only [isFilled?, differs, ↓reduceIte]
      exact ih fun later => missing (List.mem_cons_of_mem _ later)

theorem readMember_first {fuel depth : Nat} {slots : τ} {value : α} {text text' after : List Char}
    (colon : colon text = .ok ((), text'))
    (read : format.read fuel depth text' = .ok (value, after)) :
    (field name format absent hidden rest).readMember fuel depth (none, slots) name text =
      .ok ((some value, slots), after) := by
  simp only [readMember, isFilled?, fill, ↓reduceIte, Option.isSome_none, colon, ok_bind, read]
  rfl

theorem readMember_other {fuel depth : Nat} {slot : Option α} {slots : τ} {key : String}
    (differs : key ≠ name) (text : List Char) :
    (field name format absent hidden rest).readMember fuel depth (slot, slots) key text =
      (rest.readMember fuel depth slots key text).map
        fun (slots, text) => ((slot, slots), text) := by
  simp only [readMember, isFilled?, fill, differs, ↓reduceIte]
  cases rest.isFilled? slots key with
  | none =>
      cases colon text with
      | error fault => rfl
      | ok found =>
          simp only [ok_bind]
          cases skipValue fuel found.2 with
          | error fault => rfl
          | ok skipped => rfl
  | some filled =>
      cases filled with
      | true => rfl
      | false =>
          cases colon text with
          | error fault => rfl
          | ok found =>
              simp only [ok_bind]
              cases rest.fill (fun format => format.read fuel depth found.2) slots key with
              | none => rfl
              | some read => rfl

theorem finish_field {slot : Option α} {slots : τ} {value : α} {values : β} :
    (field name format absent hidden rest).finish (slot, slots) = .ok (value, values) ↔
      (slot = some value ∨ slot = none ∧ absent.value? = some value) ∧
        rest.finish slots = .ok values := by
  have others (found : α) : (do
      let values ← rest.finish slots
      return (found, values)) = Except.ok (ε := Mismatch) (value, values) ↔
        found = value ∧ rest.finish slots = .ok values := by
    cases rest.finish slots with
    | error reason => simp [bind, Except.bind]
    | ok results => simp [bind, Except.bind, pure, Except.pure]
  cases slot with
  | some found => simpa [finish, ok_bind] using others found
  | none =>
      cases absent with
      | refused => simp [finish, bind, Except.bind, Absent.value?]
      | nullable standIn => simpa [finish, ok_bind, Absent.value?] using others standIn
      | default standIn => simpa [finish, ok_bind, Absent.value?] using others standIn

def filled : {γ σ : Type} → Fields γ σ → γ → σ
  | _, _, .done, () => ()
  | _, _, .field _ _ _ hidden rest, (value, values) =>
      (if hidden value then none else some value, rest.filled values)

/-- The values that are written are read back, and those that are hidden stand for themselves. -/
def Rereads (fields : Fields γ σ) (values : γ) : Prop :=
  fields.Each (fun format absent hidden value =>
    if hidden value then absent.value? = some value else format.Rereads value) values

theorem rereads_need {value : α} {values : β} (first : format.Rereads value)
    (others : rest.Rereads values) : (need name format rest).Rereads (value, values) :=
  ⟨first, others⟩

theorem rereads_nullable {value : Option α} {values : β} (first : format.option.Rereads value)
    (others : rest.Rereads values) : (nullable name format rest).Rereads (value, values) :=
  ⟨first, others⟩

theorem finish_filled {fields : Fields γ σ} {values : γ} (rereads : fields.Rereads values) :
    fields.finish (fields.filled values) = .ok values := by
  induction fields with
  | done => rfl
  | field name format absent hidden rest ih =>
      obtain ⟨value, values⟩ := values
      obtain ⟨first, others⟩ := rereads
      cases isHidden : hidden value with
      | false =>
          simp only [filled, isHidden]
          exact finish_field.mpr ⟨.inl rfl, ih others⟩
      | true =>
          rw [if_pos isHidden] at first
          simp only [filled, isHidden, ↓reduceIte]
          exact finish_field.mpr ⟨.inr ⟨rfl, first⟩, ih others⟩

theorem steps_write {layout : Layout} {level fuel depth : Nat} {fields : Fields γ σ} {values : γ}
    (apart : fields.names.Nodup) (rereads : fields.Rereads values)
    (room : ∀ member ∈ fields.write values,
      member.2.depth ≤ depth ∧ (chars layout level member.2).length ≤ fuel) :
    Steps (TakesMember layout level (fields.readMember fuel depth)) fields.vacant
      (fields.write values) (fields.filled values) := by
  induction fields with
  | done => exact .nil _
  | @field α β τ name format absent hidden rest ih =>
      obtain ⟨value, values⟩ := values
      obtain ⟨first, others⟩ := rereads
      obtain ⟨missing, apart⟩ := List.nodup_cons.mp apart
      -- The members of the other fields leave the slot of the first as it is.
      have later (slot : Option α) (room : ∀ member ∈ rest.write values,
            member.2.depth ≤ depth ∧ (chars layout level member.2).length ≤ fuel) :
          Steps (TakesMember layout level
            ((field name format absent hidden rest).readMember fuel depth)) (slot, rest.vacant)
            (rest.write values) (slot, rest.filled values) := by
        refine (ih apart others room).map (slot, ·) ?_
        intro before member listed after taken text delimited
        have differs : member.1 ≠ name := fun same =>
          missing (same ▸ (rest.write_keys values).subset (List.mem_map_of_mem listed))
        rw [readMember_other differs, taken text delimited]
        rfl
      cases isHidden : hidden value with
      | true =>
          simp only [write, filled, isHidden, ↓reduceIte] at room ⊢
          exact later none room
      | false =>
          simp only [write, filled, isHidden, Bool.false_eq_true, ↓reduceIte] at room first ⊢
          obtain ⟨⟨deep, short⟩, room⟩ := List.forall_mem_cons.mp room
          refine .cons (Reader.takesMember_of_reads (first deep short) ?_) (later (some value) room)
          intro text text' rest colon read
          exact readMember_first colon read

end Texts

end Fields

theorem Format.record_rereads {α γ σ : Type} {kind : String} {fields : Fields γ σ} {pack : γ → α}
    {unpack : α → γ} {value : α} (apart : fields.names.Nodup)
    (rereads : fields.Rereads (unpack value)) (packed : pack (unpack value) = value) :
    (record kind fields pack unpack).Rereads value := by
  intro layout level fuel depth deep room body rest written delimited
  obtain ⟨below, rfl, many, inside⟩ := room_of_object deep room
  obtain ⟨after, opened, read⟩ :=
    members_object level (Fields.steps_write apart rereads inside) many
  have written : skipBlanks body = '\x7b' :: (after ++ rest) := by
    rw [written, ← List.cons_append, ← opened]
    rfl
  simp only [record, Fields.read, written, nested, List.drop_succ_cons, List.drop_zero, read rest,
    ok_bind, Fields.finish_filled rereads]
  show Except.ok (pack (unpack value), rest) = _
  rw [packed]

/-! ## Objects at hand -/

namespace Fields

variable {α β γ σ τ : Type}

def Found (find : String → Option Json) : {γ σ : Type} → Fields γ σ → γ → Prop
  | _, _, .done, () => True
  | _, _, .field name format absent _ rest, (value, values) =>
      (match find name with
        | some json => format.ofJson json = .ok value
        | none => absent.value? = some value) ∧ rest.Found find values

theorem Found.congr {find : String → Option Json} (find' : String → Option Json)
    {fields : Fields γ σ} {values : γ}
    (same : ∀ key ∈ fields.names, find key = find' key) (found : fields.Found find values) :
    fields.Found find' values := by
  induction fields with
  | done => trivial
  | field name format absent hidden rest ih =>
      obtain ⟨value, values⟩ := values
      obtain ⟨first, others⟩ := found
      refine ⟨?_, ih (fun key listed => same key (List.mem_cons_of_mem _ listed)) others⟩
      rwa [← same name List.mem_cons_self]

section AtHand

variable {name : String} {format : Format α} {absent : Absent α} {hidden : α → Bool}
  {rest : Fields β τ}

theorem ofMembers_cons (fields : Fields γ σ) (slots : σ) (member : String × Json)
    (members : List (String × Json)) : fields.ofMembers slots (member :: members) =
      fields.ofMembers slots [member] >>= fun slots => fields.ofMembers slots members := by
  obtain ⟨key, json⟩ := member
  simp only [ofMembers]
  cases fields.isFilled? slots key with
  | none => rfl
  | some filled =>
      cases filled with
      | true => rfl
      | false =>
          dsimp only
          cases fields.fill (fun format => (format.ofJson json).map (·, ())) slots key with
          | none => rfl
          | some result => cases result <;> rfl

theorem ofMembers_foreign {fields : Fields γ σ} {key : String} (missing : key ∉ fields.names)
    (slots : σ) (json : Json) : fields.ofMembers slots [(key, json)] = .ok slots := by
  simp only [ofMembers, isFilled?_of_not_mem missing]

theorem ofMembers_own {slot : Option α} {slots : τ} {json : Json} {after : Option α × τ} :
    (field name format absent hidden rest).ofMembers (slot, slots) [(name, json)] = .ok after ↔
      slot = none ∧ ∃ value, format.ofJson json = .ok value ∧ after = (some value, slots) := by
  cases slot with
  | some value => simp [ofMembers, isFilled?]
  | none =>
      simp only [ofMembers, isFilled?, fill, ↓reduceIte, Option.isSome_none]
      cases format.ofJson json <;> simp [Except.map, bind, Except.bind, eq_comm]

theorem ofMembers_other {key : String} (differs : key ≠ name) (slot : Option α) (slots : τ)
    (json : Json) : (field name format absent hidden rest).ofMembers (slot, slots) [(key, json)] =
      (rest.ofMembers slots [(key, json)]).map (slot, ·) := by
  simp only [ofMembers, isFilled?, fill, differs, ↓reduceIte]
  cases rest.isFilled? slots key with
  | none => rfl
  | some filled =>
      cases filled with
      | true => rfl
      | false =>
          dsimp only
          cases rest.fill (fun format => (format.ofJson json).map (·, ())) slots key with
          | none => rfl
          | some result => cases result <;> rfl

theorem ofMembers_field_iff {members : List (String × Json)} {slot slot' : Option α}
    {slots slots' : τ} (apart : (members.map Prod.fst).Nodup) (missing : name ∉ rest.names) :
    (field name format absent hidden rest).ofMembers (slot, slots) members =
        .ok (slot', slots') ↔
      (match members.lookup name with
        | some json => slot = none ∧ ∃ value, format.ofJson json = .ok value ∧ slot' = some value
        | none => slot' = slot) ∧ rest.ofMembers slots members = .ok slots' := by
  induction members generalizing slot slots with
  | nil => simp [ofMembers, eq_comm]
  | cons member members ih =>
      obtain ⟨key, json⟩ := member
      have fresh := (List.nodup_cons.mp apart).1
      replace apart := (List.nodup_cons.mp apart).2
      rw [lookup_cons_eq, ofMembers_cons, ofMembers_cons rest]
      by_cases same : name = key
      · subst same
        have later : members.lookup name = none := lookup_eq_none_iff.mpr fresh
        rw [if_pos rfl, ofMembers_foreign missing, bind_eq_ok, ok_bind]
        constructor
        · rintro ⟨_, own, others⟩
          obtain ⟨rfl, value, read, rfl⟩ := ofMembers_own.mp own
          obtain ⟨first, others⟩ := (ih apart).mp others
          rw [later] at first
          exact ⟨⟨rfl, value, read, first⟩, others⟩
        · rintro ⟨⟨rfl, value, read, rfl⟩, others⟩
          refine ⟨_, ofMembers_own.mpr ⟨rfl, value, read, rfl⟩, (ih apart).mpr ⟨?_, others⟩⟩
          rw [later]
      · rw [if_neg same, ofMembers_other (Ne.symm same)]
        cases rest.ofMembers slots [(key, json)] with
        | error reason => simp [Except.map, bind, Except.bind]
        | ok between => exact ih apart

end AtHand

theorem ofJson_object_iff (kind : String) {fields : Fields γ σ} {members : List (String × Json)}
    {values : γ} (distinct : fields.names.Nodup) (apart : (members.map Prod.fst).Nodup) :
    fields.ofJson kind (.object members) = .ok values ↔
      fields.Found (fun key => members.lookup key) values := by
  simp only [ofJson, bind_eq_ok]
  induction fields with
  | done =>
      have passed : done.ofMembers () members = .ok () := by
        clear apart
        induction members with
        | nil => rfl
        | cons member members ih => exact ih
      exact iff_of_true ⟨(), passed, rfl⟩ trivial
  | field name format absent hidden rest ih =>
      obtain ⟨value, values⟩ := values
      obtain ⟨missing, distinct⟩ := List.nodup_cons.mp distinct
      simp only [Prod.exists, vacant, ofMembers_field_iff apart missing, finish_field, Found,
        ← ih distinct]
      cases members.lookup name with
      | none =>
          constructor
          · rintro ⟨_, slots, ⟨rfl, taken⟩, given, finished⟩
            exact ⟨by simpa using given, slots, taken, finished⟩
          · rintro ⟨given, slots, taken, finished⟩
            exact ⟨none, slots, ⟨rfl, taken⟩, .inr ⟨rfl, given⟩, finished⟩
      | some json =>
          constructor
          · rintro ⟨_, slots, ⟨⟨-, found, read, rfl⟩, taken⟩, given, finished⟩
            obtain rfl : found = value := by simpa using given
            exact ⟨read, slots, taken, finished⟩
          · rintro ⟨read, slots, taken, finished⟩
            exact ⟨some value, slots, ⟨⟨trivial, value, read, rfl⟩, taken⟩, .inl rfl, finished⟩

def Converts : {γ σ : Type} → Fields γ σ → γ → γ → Prop
  | _, _, .done, _, _ => True
  | _, _, .field _ format absent hidden rest, (value, values), (result, results) =>
      (if hidden value then absent.value? = some result else format.Converts value result) ∧
        rest.Converts values results

theorem converts_need {name : String} {format : Format α} {rest : Fields β τ} {value result : α}
    {values results : β} (first : format.Converts value result)
    (others : rest.Converts values results) :
    (need name format rest).Converts (value, values) (result, results) :=
  ⟨first, others⟩

theorem converts_optional {name : String} {format : Format α} {rest : Fields β τ}
    {value result : Option α} {values results : β} (left : value = none → result = none)
    (first : value ≠ none → format.option.Converts value result)
    (others : rest.Converts values results) :
    (optional name format rest).Converts (value, values) (result, results) := by
  refine ⟨?_, others⟩
  cases value with
  | none =>
      rw [left rfl]
      rfl
  | some content => exact first (by simp)

theorem found_write {fields : Fields γ σ} {values results : γ} (distinct : fields.names.Nodup)
    (converts : fields.Converts values results) :
    fields.Found (fun key => ((fields.write values).lookup key).map normalize) results := by
  induction fields with
  | done => trivial
  | field name format absent hidden rest ih =>
      obtain ⟨value, values⟩ := values
      obtain ⟨result, results⟩ := results
      obtain ⟨first, others⟩ := converts
      obtain ⟨missing, distinct⟩ := List.nodup_cons.mp distinct
      have absentLater : (rest.write values).lookup name = none :=
        lookup_eq_none_iff.mpr fun listed => missing ((rest.write_keys values).subset listed)
      cases isHidden : hidden value with
      | true =>
          rw [if_pos isHidden] at first
          simp only [write, isHidden, ↓reduceIte]
          refine ⟨?_, ih distinct others⟩
          simp only [absentLater]
          exact first
      | false =>
          simp only [isHidden, Bool.false_eq_true, ↓reduceIte] at first
          simp only [write, isHidden, Bool.false_eq_true, ↓reduceIte]
          refine ⟨?_, (ih distinct others).congr _ fun key listed => ?_⟩
          · simp only [lookup_cons_eq, ↓reduceIte]
            exact first
          · have differs : key ≠ name := fun same => missing (same ▸ listed)
            rw [lookup_cons_eq, if_neg differs]

end Fields

section Records

variable {α γ σ : Type} {fields : Fields γ σ} {pack : γ → α} {values results : γ}

theorem Format.record_converts {kind : String} {unpack : α → γ} {value : α} (results : γ)
    (distinct : fields.names.Nodup) (converts : fields.Converts (unpack value) results) :
    (record kind fields pack unpack).Converts value (pack results) := by
  have apart := distinct.sublist (fields.write_keys (unpack value))
  have found := (Fields.found_write distinct converts).congr
    (fun key => (normalizeMembers [] (fields.write (unpack value))).lookup key)
    fun key _ => by simp [lookup_normalizeMembers _ apart]
  have read := (Fields.ofJson_object_iff kind distinct
    (nodup_of_ascending (ascending_normalizeMembers _ .nil))).mpr found
  simp only [Converts, record, normalize, read]
  rfl

/-! ## Tagged records at hand -/

namespace Tagged

variable {tagged : Tagged α} {members : List (String × Json)}

theorem split_of_not_mem (missing : tagged.tag ∉ members.map Prod.fst) :
    tagged.split members = .ok (none, members) := by
  induction members with
  | nil => rfl
  | cons member members ih =>
      obtain ⟨key, value⟩ := member
      have differs : key ≠ tagged.tag := fun same => missing (same ▸ List.mem_cons_self)
      have others := ih fun later => missing (List.mem_cons_of_mem _ later)
      simp only [split, differs, ↓reduceIte, others, ok_bind]
      rfl

theorem split_of_lookup {kind : String} (apart : (members.map Prod.fst).Nodup)
    (named : members.lookup tagged.tag = some (.string kind)) :
    ∃ others, tagged.split members = .ok (some kind, others) ∧ others.Sublist members ∧
      ∀ key, key ≠ tagged.tag → others.lookup key = members.lookup key := by
  induction members with
  | nil => cases named
  | cons member members ih =>
      obtain ⟨key, value⟩ := member
      obtain ⟨fresh, apart⟩ := List.nodup_cons.mp apart
      rw [lookup_cons_eq] at named
      by_cases same : key = tagged.tag
      · rw [if_pos same.symm] at named
        cases named
        have others : tagged.split members = .ok (none, members) := split_of_not_mem (same ▸ fresh)
        refine ⟨members, ?_, List.sublist_cons_self _ _, fun sought differs => ?_⟩
        · simp only [split, same, ↓reduceIte, kindOfJson, others, ok_bind]
          rfl
        · rw [lookup_cons_eq, if_neg (same ▸ differs)]
      · rw [if_neg (Ne.symm same)] at named
        obtain ⟨others, taken, within, looked⟩ := ih apart named
        refine ⟨(key, value) :: others, ?_, within.cons_cons _, fun sought differs => ?_⟩
        · simp only [split, same, ↓reduceIte, taken, ok_bind]
          rfl
        · rw [lookup_cons_eq, lookup_cons_eq, looked sought differs]

theorem ofJson_of_lookup {kind : String} (apart : (members.map Prod.fst).Nodup)
    (named : members.lookup tagged.tag = some (.string kind)) :
    ∃ others, tagged.ofJson (.object members) = (tagged.shape kind).ofJson (.object others) ∧
      others.Sublist members ∧
      ∀ key, key ≠ tagged.tag → others.lookup key = members.lookup key := by
  obtain ⟨others, taken, within, looked⟩ := split_of_lookup apart named
  refine ⟨others, ?_, within, looked⟩
  simp only [ofJson, taken, ok_bind]
  rfl

theorem ofJson_empty (tagged : Tagged α) (kind : String) {value : α}
    (shaped : tagged.shape kind = .empty value) :
    tagged.ofJson (normalize (.object [(tagged.tag, .string kind)])) = .ok value := by
  have named : [(tagged.tag, Json.string kind)].lookup tagged.tag = some (.string kind) := by
    simp
  obtain ⟨others, read, -⟩ := ofJson_of_lookup (by simp) named
  have settled : normalize (.object [(tagged.tag, .string kind)]) =
      .object [(tagged.tag, .string kind)] := by
    simp [normalize, normalizeMembers, insertEntry]
  rw [settled, read, shaped]
  rfl

theorem ofJson_write (tagged : Tagged α) (kind : String) {owner : String}
    (shaped : tagged.shape kind = .record owner fields pack)
    (distinct : (tagged.tag :: fields.names).Nodup) (converts : fields.Converts values results) :
    tagged.ofJson (normalize (.object ((tagged.tag, .string kind) :: fields.write values))) =
      .ok (pack results) := by
  obtain ⟨foreign, distinct⟩ := List.nodup_cons.mp distinct
  have keys := fields.write_keys values
  have apart : (((tagged.tag, Json.string kind) :: fields.write values).map Prod.fst).Nodup :=
    List.nodup_cons.mpr ⟨fun listed => foreign (keys.subset listed), distinct.sublist keys⟩
  have inOrder := nodup_of_ascending (ascending_normalizeMembers
    ((tagged.tag, Json.string kind) :: fields.write values) .nil)
  have looked (key : String) := lookup_normalizeMembers [] apart key
  have named : (normalizeMembers [] ((tagged.tag, .string kind) :: fields.write values)).lookup
      tagged.tag = some (.string kind) := by
    rw [looked, lookup_cons_eq, if_pos rfl]
    simp [normalize]
  obtain ⟨others, read, within, same⟩ := ofJson_of_lookup inOrder named
  have found := (Fields.found_write distinct converts).congr
    (fun key => others.lookup key) fun key listed => by
      have differs : key ≠ tagged.tag := fun same => foreign (same ▸ listed)
      rw [same key differs, looked, lookup_cons_eq, if_neg differs]
      simp
  have taken := (Fields.ofJson_object_iff owner distinct
    (inOrder.sublist (within.map Prod.fst))).mpr found
  rw [normalize, read, shaped]
  show (fields.ofJson owner (.object others)).map pack = _
  rw [taken]
  rfl

end Tagged

end Records

end VisualNovel.Json
