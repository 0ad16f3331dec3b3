import VisualNovel.Proofs.Json.Records

namespace VisualNovel.Json

open Reader

namespace Format

def Readable {α : Type} (format : Format α) (value : α) : Prop :=
  ∃ fuel depth text rest, format.read fuel depth text = .ok (value, rest)

end Format

namespace Fields

variable {γ σ : Type} {holds : {α : Type} → Format α → α → Prop}

def EachRead (holds : {α : Type} → Format α → α → Prop) : {γ σ : Type} → Fields γ σ → σ → Prop
  | _, _, .done, () => True
  | _, _, .field _ format _ _ rest, (slot, slots) =>
      (∀ value ∈ slot, holds format value) ∧ rest.EachRead holds slots

def EachValue (holds : {α : Type} → Format α → α → Prop) (fields : Fields γ σ) (values : γ) :
    Prop :=
  fields.Each (fun format absent _ value => absent.value? = some value ∨ holds format value) values

variable {fields : Fields γ σ}

theorem eachRead_vacant : fields.EachRead holds fields.vacant := by
  induction fields with
  | done => trivial
  | field name format absent hidden rest ih => exact ⟨by simp, ih⟩

theorem eachRead_fill {ε ρ : Type} {read : {α : Type} → Format α → Except ε (α × ρ)}
    {before after : σ} {key : String} {left : ρ}
    (reads : ∀ {α : Type} {format : Format α} {value : α} {left : ρ},
      read format = .ok (value, left) → holds format value)
    (start : fields.EachRead holds before)
    (filled : fields.fill read before key = some (.ok (after, left))) :
    fields.EachRead holds after := by
  induction fields with
  | done => cases filled
  | field name format absent hidden rest ih =>
      obtain ⟨slot, slots⟩ := before
      obtain ⟨first, others⟩ := start
      simp only [fill] at filled
      split at filled
      · obtain ⟨⟨value, text⟩, taken, same⟩ := map_eq_ok.mp (Option.some.inj filled)
        cases same
        exact ⟨fun found same => Option.some.inj same ▸ reads taken, others⟩
      · obtain ⟨result, taken, same⟩ := Option.map_eq_some_iff.mp filled
        obtain ⟨⟨between, text⟩, rfl, same⟩ := map_eq_ok.mp same
        cases same
        exact ⟨first, ih others taken⟩

theorem eachValue_finish {slots : σ} {values : γ} (start : fields.EachRead holds slots)
    (finished : fields.finish slots = .ok values) : fields.EachValue holds values := by
  induction fields with
  | done => trivial
  | field name format absent hidden rest ih =>
      obtain ⟨slot, slots⟩ := slots
      obtain ⟨first, others⟩ := start
      obtain ⟨value, values⟩ := values
      obtain ⟨standing, finished⟩ := finish_field.mp finished
      refine ⟨?_, ih others finished⟩
      rcases standing with rfl | ⟨rfl, standing⟩
      · exact .inr (first value rfl)
      · exact .inl standing

section AtHand

variable {kind expected : String}

theorem eachRead_ofMembers {members : List (String × Json)} {before after : σ}
    (reads : ∀ member ∈ members, ∀ {α : Type} {format : Format α} {value : α},
      format.ofJson member.2 = .ok value → holds format value)
    (start : fields.EachRead holds before)
    (taken : fields.ofMembers before members = .ok after) : fields.EachRead holds after := by
  induction members generalizing before with
  | nil =>
      cases taken
      exact start
  | cons member members ih =>
      obtain ⟨key, json⟩ := member
      have ih {before : σ} (start : fields.EachRead holds before)
          (taken : fields.ofMembers before members = .ok after) : fields.EachRead holds after :=
        ih (fun member listed => reads member (List.mem_cons_of_mem _ listed)) start taken
      simp only [ofMembers] at taken
      split at taken
      · exact ih start taken
      · cases taken
      split at taken
      · exact ih start taken
      · next filled =>
          obtain ⟨⟨between, ⟨⟩⟩, same, taken⟩ := bind_eq_ok.mp taken
          refine ih (eachRead_fill ?_ start (filled.trans (congrArg some same))) taken
          intro α format value left read
          obtain ⟨found, inner, same⟩ := map_eq_ok.mp read
          cases same
          exact reads _ List.mem_cons_self inner

theorem eachValue_ofItems {place : Nat} {items left : List Json} {values : γ}
    (reads : ∀ item ∈ items, ∀ {α : Type} {format : Format α} {value : α},
      format.ofJson item = .ok value → holds format value)
    (taken : fields.ofItems expected place items = .ok (values, left)) :
    fields.EachValue holds values := by
  induction fields generalizing place items with
  | done => trivial
  | field name format absent hidden rest ih =>
      cases items with
      | nil =>
          cases absent with
          | default standIn =>
              obtain ⟨⟨results, left⟩, taken, same⟩ := bind_eq_ok.mp taken
              cases same
              exact ⟨.inl rfl, ih (by simp) taken⟩
          | refused => cases taken
          | nullable standIn => cases taken
      | cons item items =>
          obtain ⟨value, read, taken⟩ := bind_eq_ok.mp taken
          obtain ⟨⟨results, left⟩, taken, same⟩ := bind_eq_ok.mp taken
          cases same
          exact ⟨.inr (reads item List.mem_cons_self read),
            ih (fun item listed => reads item (List.mem_cons_of_mem _ listed)) taken⟩

theorem ofJson_each {json : Json} {values : γ} (read : fields.ofJson kind json = .ok values) :
    fields.EachValue (fun format value => ∃ part ∈ json.parts, format.ofJson part = .ok value)
      values := by
  cases json with
  | object members =>
      obtain ⟨slots, taken, finished⟩ := bind_eq_ok.mp read
      refine eachValue_finish (eachRead_ofMembers (fun member listed => ?_) eachRead_vacant taken)
        finished
      exact fun read => ⟨_, List.mem_map_of_mem listed, read⟩
  | array items =>
      obtain ⟨⟨results, left⟩, taken, finished⟩ := bind_eq_ok.mp read
      dsimp only at finished
      split at finished
      · cases finished
        exact eachValue_ofItems (fun item listed => fun read => ⟨item, listed, read⟩) taken
      · cases finished
  | _ => cases read

end AtHand

section InText

variable {fuel depth : Nat} {text rest : List Char}

theorem eachRead_readMember {before after : σ} {key : String}
    (start : fields.EachRead Format.Readable before)
    (taken : fields.readMember fuel depth before key text = .ok (after, rest)) :
    fields.EachRead Format.Readable after := by
  simp only [readMember] at taken
  split at taken
  · obtain ⟨⟨⟨⟩, colonRest⟩, -, taken⟩ := bind_eq_ok.mp taken
    obtain ⟨⟨⟨⟩, skipRest⟩, -, same⟩ := bind_eq_ok.mp taken
    cases same
    exact start
  · cases taken
  · obtain ⟨⟨⟨⟩, colonRest⟩, -, taken⟩ := bind_eq_ok.mp taken
    dsimp only at taken
    split at taken
    · next filled =>
        exact eachRead_fill (fun read => ⟨_, _, _, _, read⟩) start
          (filled.trans (congrArg some taken))
    · cases taken
      exact start

theorem eachValue_readItems {expected : String} {place : Nat} {values : γ}
    (taken : fields.readItems fuel depth expected place text = .ok (values, rest)) :
    fields.EachValue Format.Readable values := by
  induction fields generalizing place text with
  | done => trivial
  | field name format absent hidden others ih =>
      obtain ⟨next, -, taken⟩ := bind_eq_ok.mp taken
      cases next with
      | close after =>
          dsimp only at taken
          split at taken
          · next found =>
              cases taken
              exact eachValue_ofItems (by simp) found
          · cases taken
      | more head after =>
          obtain ⟨⟨value, between⟩, read, taken⟩ := bind_eq_ok.mp taken
          obtain ⟨⟨results, last⟩, taken, same⟩ := bind_eq_ok.mp taken
          cases same
          exact ⟨.inr ⟨_, _, _, _, read⟩, ih taken⟩

theorem read_each {kind : String} {values : γ}
    (read : fields.read kind fuel depth text = .ok (values, rest)) :
    fields.EachValue Format.Readable values := by
  have below {body : Nat → List Char → Reading (γ × List Char)} {depth : Nat} {text : List Char}
      (read : nested depth text body = .ok (values, rest)) :
      ∃ below after, body below after = .ok (values, rest) := by
    cases depth with
    | zero => cases read
    | succ depth => exact ⟨depth, _, read⟩
  simp only [Fields.read] at read
  split at read
  · obtain ⟨depth, after, taken⟩ := below read
    exact eachValue_readItems taken
  · obtain ⟨depth, after, taken⟩ := below read
    obtain ⟨⟨slots, between⟩, taken, finished⟩ := bind_eq_ok.mp taken
    dsimp only at finished
    split at finished
    · next found =>
        cases finished
        exact eachValue_finish (members_rule _ eachRead_readMember eachRead_vacant taken) found
    · cases finished
  · cases read

end InText

end Fields

namespace Tagged

variable {α : Type} {tagged : Tagged α}

theorem sublist_of_split {members others : List (String × Json)} {kind : Option String}
    (taken : tagged.split members = .ok (kind, others)) : others.Sublist members := by
  induction members generalizing kind others with
  | nil =>
      cases taken
      exact .slnil
  | cons member members ih =>
      obtain ⟨key, value⟩ := member
      simp only [split] at taken
      split at taken
      · obtain ⟨named, -, taken⟩ := bind_eq_ok.mp taken
        obtain ⟨⟨again, left⟩, taken, same⟩ := bind_eq_ok.mp taken
        cases again with
        | none =>
            cases same
            exact (ih taken).cons _
        | some kind => cases same
      · obtain ⟨⟨named, left⟩, later, same⟩ := bind_eq_ok.mp taken
        cases same
        exact (ih later).cons_cons _

theorem ofJson_eq_ok {json : Json} {value : α} (read : tagged.ofJson json = .ok value) :
    ∃ kind rest, (tagged.shape kind).ofJson rest = .ok value ∧ rest.parts ⊆ json.parts := by
  have named {kind : Option String} {rest : Json} (finished : tagged.finish kind rest = .ok value) :
      ∃ kind, (tagged.shape kind).ofJson rest = .ok value := by
    cases kind with
    | none => cases finished
    | some kind => exact ⟨kind, finished⟩
  cases json with
  | object members =>
      obtain ⟨⟨kind, others⟩, taken, finished⟩ := bind_eq_ok.mp read
      obtain ⟨kind, read⟩ := named finished
      exact ⟨kind, _, read, ((sublist_of_split taken).map Prod.snd).subset⟩
  | array items =>
      cases items with
      | nil => cases read
      | cons first items =>
          obtain ⟨kind, -, finished⟩ := bind_eq_ok.mp read
          obtain ⟨kind, read⟩ := named finished
          exact ⟨kind, _, read, List.subset_cons_self _ _⟩
  | _ => cases read

theorem eq_of_ofJson_empty {json : Json} {value result : α}
    (read : (Shape.empty value).ofJson json = .ok result) : result = value := by
  cases json with
  | array items =>
      simp only [Shape.ofJson] at read
      split at read
      · cases read
        rfl
      · cases read
  | _ =>
      cases read
      rfl

theorem shape_eq (tagged : Tagged α) (kind : String) :
    tagged.shape kind = tagged.other ∨ ∃ entry ∈ tagged.kinds, tagged.shape kind = entry.2 := by
  unfold shape
  cases found : tagged.kinds.lookup kind with
  | none => exact .inl rfl
  | some shape =>
      obtain ⟨before, after, same, -⟩ := List.lookup_eq_some_iff.mp found
      exact .inr ⟨(kind, shape), by simp [same], rfl⟩

end Tagged

namespace Format

variable {α γ σ : Type} {format : Format α}

theorem option_ofJson_some {json : Json} {value : α}
    (read : format.option.ofJson json = .ok (some value)) :
    json ≠ .null ∧ format.ofJson json = .ok value := by
  by_cases empty : json = .null
  · subst empty
    cases read
  · rw [option_ofJson empty] at read
    obtain ⟨found, read, same⟩ := map_eq_ok.mp read
    cases same
    exact ⟨empty, read⟩

theorem list_ofJson {json : Json} {values : List α}
    (read : (list format).ofJson json = .ok values) :
    ∀ value ∈ values, ∃ part ∈ json.parts, format.ofJson part = .ok value := by
  cases json with
  | array items =>
      simp only [list] at read
      induction items generalizing values with
      | nil =>
          cases read
          simp
      | cons item items ih =>
          obtain ⟨first, taken, goesOn⟩ := bind_eq_ok.mp read
          obtain ⟨others, left, same⟩ := bind_eq_ok.mp goesOn
          cases same
          refine List.forall_mem_cons.mpr
            ⟨⟨item, List.mem_cons_self, taken⟩, fun value listed => ?_⟩
          obtain ⟨part, member, taken⟩ := ih left value listed
          exact ⟨part, List.mem_cons_of_mem _ member, taken⟩
  | _ => cases read

theorem natural_readable {kind : String} {value : Nat} (readable : (natural kind).Readable value) :
    value < 2 ^ 64 := by
  obtain ⟨fuel, depth, text, rest, read⟩ := readable
  simp only [natural] at read
  split at read
  · cases read
  split at read
  · obtain ⟨⟨found, after⟩, taken, same⟩ := bind_eq_ok.mp read
    have range := number_inRange taken
    dsimp only at same
    split at same
    · next natural =>
        cases same
        cases found with
        | float found => cases natural
        | integer found =>
            cases found with
            | negSucc found => cases natural
            | ofNat found =>
                cases natural
                exact Int.ofNat_lt.mp range.2
    · cases same
  · cases read

theorem option_readable {value : α} (readable : format.option.Readable (some value)) :
    format.Readable value := by
  obtain ⟨fuel, depth, text, rest, read⟩ := readable
  simp only [option] at read
  split at read
  · cases literal_eq read
  · obtain ⟨⟨found, after⟩, taken, same⟩ := bind_eq_ok.mp read
    cases same
    exact ⟨_, _, _, _, taken⟩

theorem record_readable {kind : String} {fields : Fields γ σ} {pack : γ → α} {unpack : α → γ}
    {value : α} (readable : (record kind fields pack unpack).Readable value) :
    ∃ values, pack values = value ∧ fields.EachValue Readable values := by
  obtain ⟨fuel, depth, text, rest, read⟩ := readable
  obtain ⟨⟨values, after⟩, taken, same⟩ := bind_eq_ok.mp read
  cases same
  exact ⟨values, rfl, Fields.read_each taken⟩

end Format

end VisualNovel.Json
