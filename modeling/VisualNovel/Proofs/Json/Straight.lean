import VisualNovel.Proofs.Json.Order

/-!
Reading a form straight from a text, and reading the text as a value first. Both come to the same
where the form is made of items and members that are each taken for what they are, since either
way goes through the brackets alike.

Main statements: `Tagged.straight`, `Format.list_straight` and `Format.Straight.ofText?_iff`.
-/

namespace VisualNovel.Json

open Reader

namespace Reader

/-! ## Two readers side by side -/

section SideBySide

variable {σ : Type} {inner : List Char → Reading (Json × List Char)} {fuel : Nat} {start : Bool}
  {text rest : List Char}

/-- Where one reader collects the items, another that takes each of them goes the same way. -/
theorem items_iff {good : Json → Prop} {item : σ → List Char → Reading (σ × List Char)}
    {step : σ → Json → σ → Prop}
    (takes : ∀ {text rest value}, good value → inner text = .ok (value, rest) →
      ∀ {state state' rest'}, item state text = .ok (state', rest') ↔
        rest' = rest ∧ step state value state')
    {before after : List Json}
    (given : items (itemInto inner (· :: ·)) fuel start before text = .ok (after, rest)) :
    ∃ values, after = values.reverse ++ before ∧ ((∀ value ∈ values, good value) →
      ∀ {state state' rest'}, items item fuel start state text = .ok (state', rest') ↔
        rest' = rest ∧ Steps step state values state') := by
  induction fuel generalizing start before text with
  | zero => cases given
  | succ fuel ih =>
      simp only [items, bind_eq_ok] at given
      obtain ⟨next, came, given⟩ := given
      cases next with
      | close text =>
          cases given
          refine ⟨[], rfl, fun _ state state' rest' => ?_⟩
          rw [items_close came]
          constructor
          · rintro ⟨⟩
            exact ⟨rfl, .nil _⟩
          · rintro ⟨rfl, ⟨⟩⟩
            rfl
      | more head body =>
          obtain ⟨⟨between, text'⟩, taken, given⟩ := bind_eq_ok.mp given
          obtain ⟨⟨value, text''⟩, read, same⟩ := bind_eq_ok.mp taken
          cases same
          obtain ⟨values, rfl, alike⟩ := ih given
          refine ⟨value :: values, by simp, fun all state state' rest' => ?_⟩
          obtain ⟨first, others⟩ := List.forall_mem_cons.mp all
          have unfolds : items item (fuel + 1) start state text =
              item state body >>= fun next => items item fuel false next.1 next.2 := by
            simp only [items, came, ok_bind]
          rw [unfolds, bind_eq_ok]
          constructor
          · rintro ⟨⟨between, left⟩, taken, more⟩
            obtain ⟨rfl, step⟩ := (takes first read).mp taken
            obtain ⟨rfl, steps⟩ := (alike others).mp more
            exact ⟨rfl, .cons step steps⟩
          · rintro ⟨rfl, steps⟩
            cases steps with
            | cons step steps =>
                exact ⟨_, (takes first read).mpr ⟨rfl, step⟩, (alike others).mpr ⟨rfl, steps⟩⟩

theorem members_iff {member : σ → String → List Char → Reading (σ × List Char)}
    {step : σ → String × Json → σ → Prop}
    (takes : ∀ {text text' rest key value}, colon text = .ok ((), text') →
      inner text' = .ok (value, rest) →
      ∀ {state state' rest'}, member state key text = .ok (state', rest') ↔
        rest' = rest ∧ step state (key, value) state')
    {before after : List (String × Json)}
    (given : members (memberInto inner fun key value before => (key, value) :: before) fuel start
      before text = .ok (after, rest)) :
    ∃ entries, after = entries.reverse ++ before ∧
      ∀ {state state' rest'}, members member fuel start state text = .ok (state', rest') ↔
        rest' = rest ∧ Steps step state entries state' := by
  induction fuel generalizing start before text with
  | zero => cases given
  | succ fuel ih =>
      simp only [members, bind_eq_ok] at given
      obtain ⟨next, came, given⟩ := given
      cases next with
      | close text =>
          cases given
          refine ⟨[], rfl, fun {state state' rest'} => ?_⟩
          rw [members_close came]
          constructor
          · rintro ⟨⟩
            exact ⟨rfl, .nil _⟩
          · rintro ⟨rfl, ⟨⟩⟩
            rfl
      | more key body =>
          obtain ⟨⟨between, text'⟩, taken, given⟩ := bind_eq_ok.mp given
          obtain ⟨⟨⟨⟩, text''⟩, opened, taken⟩ := bind_eq_ok.mp taken
          obtain ⟨⟨value, text'''⟩, read, same⟩ := bind_eq_ok.mp taken
          cases same
          obtain ⟨entries, rfl, alike⟩ := ih given
          refine ⟨(key, value) :: entries, by simp, fun {state state' rest'} => ?_⟩
          have unfolds : members member (fuel + 1) start state text =
              member state key body >>= fun next => members member fuel false next.1 next.2 := by
            simp only [members, came, ok_bind]
          rw [unfolds, bind_eq_ok]
          constructor
          · rintro ⟨⟨between, left⟩, taken, more⟩
            obtain ⟨rfl, step⟩ := (takes opened read).mp taken
            obtain ⟨rfl, steps⟩ := alike.mp more
            exact ⟨rfl, .cons step steps⟩
          · rintro ⟨rfl, steps⟩
            cases steps with
            | cons step steps =>
                exact ⟨_, (takes opened read).mpr ⟨rfl, step⟩, alike.mpr ⟨rfl, steps⟩⟩

end SideBySide

/-! ## Values that are read -/

def Unquoted (text : List Char) : Prop :=
  ∀ body, skipBlanks text ≠ '"' :: body

inductive Opens (fuel depth : Nat) (text : List Char) : Json → List Char → Prop where
  | null {rest : List Char} : Unquoted text → Opens fuel depth text .null rest
  | bool {value : Bool} {rest : List Char} : Unquoted text →
      Opens fuel depth text (.bool value) rest
  | number {value : Number} {rest : List Char} : Unquoted text →
      Opens fuel depth text (.number value) rest
  | string {content : String} {body rest : List Char} : skipBlanks text = '"' :: body →
      stringBody [] body = .ok (content, rest) → Opens fuel depth text (.string content) rest
  | array {below : Nat} {parts : List Json} {body rest : List Char} : depth = below + 1 →
      skipBlanks text = '[' :: body →
      items (itemInto (value fuel below) (· :: ·)) fuel true [] body = .ok (parts.reverse, rest) →
      Opens fuel depth text (.array parts) rest
  | object {below : Nat} {entries : List (String × Json)} {body rest : List Char} :
      depth = below + 1 → skipBlanks text = '\x7b' :: body →
      members (memberInto (value fuel below) fun key value before => (key, value) :: before) fuel
        true [] body = .ok (entries.reverse, rest) →
      Opens fuel depth text (.object entries) rest

section Values

variable {fuel depth : Nat} {text rest : List Char} {json : Json}

theorem opens (read : value fuel depth text = .ok (json, rest)) :
    Opens fuel depth text json rest := by
  obtain ⟨inner, unfolds, inside⟩ : ∃ inner, value fuel depth = valueWith fuel inner ∧
      ∀ read ∈ inner, ∃ below, depth = below + 1 ∧ read = value fuel below := by
    cases depth with
    | zero => exact ⟨none, rfl, by simp⟩
    | succ below => exact ⟨some (value fuel below), rfl, by simp⟩
  have unquoted {char : Char} {body : List Char} (head : skipBlanks text = char :: body)
      (letter : char ≠ '"') : Unquoted text := by
    intro body' quoted
    rw [head] at quoted
    cases quoted
    exact letter rfl
  rw [unfolds] at read
  unfold valueWith at read
  split at read
  · cases read
  · next head =>
      rw [literal_eq read]
      exact .null (unquoted head (by decide))
  · next head =>
      rw [literal_eq read]
      exact .bool (unquoted head (by decide))
  · next head =>
      rw [literal_eq read]
      exact .bool (unquoted head (by decide))
  · next body head =>
      obtain ⟨⟨content, text⟩, taken, same⟩ := bind_eq_ok.mp read
      cases same
      exact .string head taken
  · next body head =>
      cases inner with
      | none => cases read
      | some inner =>
          obtain ⟨below, deep, rfl⟩ := inside inner rfl
          obtain ⟨⟨reversed, text⟩, taken, same⟩ := bind_eq_ok.mp read
          cases same
          apply Opens.array deep head
          rw [List.reverse_reverse]
          exact taken
  · next body head =>
      cases inner with
      | none => cases read
      | some inner =>
          obtain ⟨below, deep, rfl⟩ := inside inner rfl
          obtain ⟨⟨reversed, text⟩, taken, same⟩ := bind_eq_ok.mp read
          cases same
          apply Opens.object deep head
          rw [List.reverse_reverse]
          exact taken
  · next char body _ _ _ letter _ _ head =>
      split at read
      · obtain ⟨⟨number, text⟩, taken, same⟩ := bind_eq_ok.mp read
        cases same
        exact .number (unquoted head letter)
      · cases read

end Values

end Reader

/-! ## Straight formats -/

namespace Format

variable {α β : Type} {format : Format α} {good : Json → Prop}

/-- Where a good value stands in a text, the format reads what it takes the value for. -/
def Straight (format : Format α) (good : Json → Prop) : Prop :=
  ∀ {fuel depth : Nat} {text rest : List Char} {json : Json}, good json →
    value fuel depth text = .ok (json, rest) →
    ∀ {result rest'}, format.read fuel depth text = .ok (result, rest') ↔
      rest' = rest ∧ format.ofJson json = .ok result

theorem imap_straight (straight : format.Straight good) (pack : α → β) (unpack : β → α) :
    (format.imap pack unpack).Straight good := by
  intro fuel depth text rest json holds given result rest'
  simp only [imap, bind_eq_ok, map_eq_ok, Prod.exists]
  constructor
  · rintro ⟨value, left, read, same⟩
    cases same
    obtain ⟨rfl, taken⟩ := (straight holds given).mp read
    exact ⟨rfl, value, taken, rfl⟩
  · rintro ⟨rfl, value, taken, rfl⟩
    exact ⟨value, _, (straight holds given).mpr ⟨rfl, taken⟩, rfl⟩

def Adds (format : Format α) (before : List α) (item : Json) (after : List α) : Prop :=
  ∃ value, format.ofJson item = .ok value ∧ after = value :: before

theorem steps_adds {items : List Json} {before after : List α} :
    Steps format.Adds before items after ↔
      ∃ values, itemsOfJson format items = .ok values ∧ after = values.reverse ++ before := by
  simp only [itemsOfJson_iff]
  constructor
  · intro steps
    induction steps with
    | nil before => exact ⟨[], .nil, rfl⟩
    | cons step steps ih =>
        obtain ⟨value, taken, rfl⟩ := step
        obtain ⟨values, others, rfl⟩ := ih
        exact ⟨value :: values, .cons taken others, by simp⟩
  · rintro ⟨values, taken, rfl⟩
    induction taken generalizing before with
    | nil => exact .nil _
    | cons first others ih =>
        rw [List.reverse_cons, List.append_assoc]
        exact .cons ⟨_, first, rfl⟩ ih

theorem list_straight (straight : format.Straight good) : (list format).Straight fun json =>
    ∃ items, json = .array items ∧ ∀ item ∈ items, good item := by
  rintro fuel depth text rest _ ⟨parts, rfl, all⟩ given values rest'
  cases opens given with
  | @array below _ body _ deep head taken =>
      subst deep
      have takes {text rest : List Char} {json : Json} (holds : good json)
          (stands : value fuel below text = .ok (json, rest)) {before after : List α}
          {rest' : List Char} :
          itemInto (format.read fuel below) (· :: ·) before text = .ok (after, rest') ↔
            rest' = rest ∧ format.Adds before json after := by
        simp only [itemInto, bind_eq_ok, Prod.exists]
        constructor
        · rintro ⟨value, left, read, same⟩
          cases same
          obtain ⟨rfl, taken⟩ := (straight holds stands).mp read
          exact ⟨rfl, value, taken, rfl⟩
        · rintro ⟨rfl, value, taken, rfl⟩
          exact ⟨value, _, (straight holds stands).mpr ⟨rfl, taken⟩, rfl⟩
      obtain ⟨items, same, alike⟩ := items_iff takes taken
      obtain rfl : parts = items := by simpa using same
      have reads : (list format).read fuel (below + 1) text =
          Reader.items (itemInto (format.read fuel below) (· :: ·)) fuel true [] body >>=
            fun next => .ok (next.1.reverse, next.2) := by
        simp only [list, head, nested]
        rfl
      rw [reads, bind_eq_ok]
      constructor
      · rintro ⟨⟨reversed, left⟩, read, same⟩
        cases same
        obtain ⟨rfl, steps⟩ := (alike all).mp read
        obtain ⟨values, listed, rfl⟩ := steps_adds.mp steps
        rw [List.append_nil, List.reverse_reverse]
        exact ⟨rfl, listed⟩
      · rintro ⟨rfl, listed⟩
        have steps : Steps format.Adds [] parts (values.reverse ++ []) :=
          steps_adds.mpr ⟨values, listed, rfl⟩
        exact ⟨_, (alike all).mpr ⟨rfl, steps⟩, by simp⟩

theorem Straight.ofText?_iff (straight : format.Straight good) {text : String} {json : Json}
    (holds : good json) (parsed : Json.ofText? text = .ok json) {result : α} :
    format.ofText? text = .ok result ↔ format.ofJson json = .ok result := by
  obtain ⟨rest, given, blank⟩ := whole_eq_ok_iff.mp parsed
  rw [Format.ofText?, whole_eq_ok_iff]
  constructor
  · rintro ⟨rest', read, -⟩
    exact ((straight holds given).mp read).2
  · intro taken
    exact ⟨rest, (straight holds given).mpr ⟨rfl, taken⟩, blank⟩

theorem placed_eq_ok {result : Except Mismatch α} {text rest : List Char} {value : α} :
    placed result text = .ok (value, rest) ↔ result = .ok value ∧ rest = text := by
  cases result <;> simp [placed, eq_comm]

end Format

namespace Tagged

variable {α : Type} (tagged : Tagged α)

theorem readKind_iff {fuel depth : Nat} {text rest rest' : List Char} {json : Json} {kind : String}
    (given : value fuel depth text = .ok (json, rest)) :
    readKind text = .ok (kind, rest') ↔ json = .string kind ∧ rest' = rest := by
  have unquoted (unquoted : Unquoted text) : readKind text ≠ .ok (kind, rest') := by
    unfold readKind
    split
    · next body head => exact absurd head (unquoted body)
    · nofun
  cases opens given with
  | string head taken =>
      simp only [readKind, head, taken]
      simp [eq_comm]
  | null none => simp [unquoted none]
  | bool none => simp [unquoted none]
  | number none => simp [unquoted none]
  | array _ head => simp [unquoted fun body quoted => by simp [head] at quoted]
  | object _ head => simp [unquoted fun body quoted => by simp [head] at quoted]

inductive Adds : Option String × List (String × Json) → String × Json →
    Option String × List (String × Json) → Prop where
  | tag {before : List (String × Json)} (kind : String) :
      Adds (none, before) (tagged.tag, .string kind) (some kind, before)
  | other {kind : Option String} {before : List (String × Json)} {key : String} (json : Json) :
      key ≠ tagged.tag → Adds (kind, before) (key, json) (kind, (key, json) :: before)

theorem readMember_iff {fuel depth : Nat} {text text' rest : List Char} {key : String}
    {json : Json} (opened : colon text = .ok ((), text'))
    (given : value fuel depth text' = .ok (json, rest))
    {state state' : Option String × List (String × Json)} {rest' : List Char} :
    tagged.readMember fuel depth state key text = .ok (state', rest') ↔
      rest' = rest ∧ tagged.Adds state (key, json) state' := by
  obtain ⟨kind, before⟩ := state
  simp only [readMember]
  by_cases own : key = tagged.tag
  · rw [if_pos own]
    cases kind with
    | some kind =>
        constructor
        · nofun
        · rintro ⟨-, ⟨⟩⟩
          contradiction
    | none =>
        simp only [Option.isSome_none, Bool.false_eq_true, ↓reduceIte, opened, ok_bind, bind_eq_ok,
          Prod.exists]
        constructor
        · rintro ⟨kind, left, read, same⟩
          cases same
          obtain ⟨rfl, rfl⟩ := (readKind_iff given).mp read
          exact ⟨rfl, own ▸ .tag kind⟩
        · rintro ⟨rfl, adds⟩
          cases adds with
          | tag kind => exact ⟨kind, _, (readKind_iff given).mpr ⟨rfl, rfl⟩, rfl⟩
          | other _ differs => exact absurd own differs
  · rw [if_neg own]
    simp only [opened, given, ok_bind]
    constructor
    · intro same
      cases same
      exact ⟨rfl, .other json own⟩
    · rintro ⟨rfl, adds⟩
      cases adds with
      | tag => exact absurd rfl own
      | other => rfl

variable {tagged} {entries before after : List (String × Json)} {start kind : Option String}

theorem steps_adds : Steps tagged.Adds (start, before) entries (kind, after) ↔
    ∃ found others, tagged.split entries = .ok (found, others) ∧ after = others.reverse ++ before ∧
      (start = none ∧ kind = found ∨ found = none ∧ kind = start) := by
  induction entries generalizing start before with
  | nil =>
      constructor
      · rintro ⟨⟩
        exact ⟨none, [], rfl, rfl, .inr ⟨rfl, rfl⟩⟩
      · rintro ⟨found, others, ⟨⟩, rfl, ⟨rfl, rfl⟩ | ⟨-, rfl⟩⟩
        · exact .nil _
        · exact .nil _
  | cons entry entries ih =>
      constructor
      · intro steps
        cases steps with
        | cons adds steps =>
            cases adds with
            | tag name =>
                obtain ⟨found, others, taken, rfl, ⟨⟨⟩, -⟩ | ⟨rfl, rfl⟩⟩ := ih.mp steps
                exact ⟨some name, others, split_tag.mpr ⟨name, rfl, rfl, taken⟩, rfl,
                  .inl ⟨rfl, rfl⟩⟩
            | other json differs =>
                obtain ⟨found, others, taken, rfl, how⟩ := ih.mp steps
                exact ⟨found, _, (split_other differs).mpr ⟨others, taken, rfl⟩, by simp, how⟩
      · rintro ⟨found, others, taken, rfl, how⟩
        obtain ⟨key, json⟩ := entry
        by_cases own : key = tagged.tag
        · subst own
          obtain ⟨name, rfl, rfl, later⟩ := split_tag.mp taken
          obtain ⟨rfl, rfl⟩ | ⟨⟨⟩, -⟩ := how
          exact .cons (.tag name) (ih.mpr ⟨none, others, later, rfl, .inr ⟨rfl, rfl⟩⟩)
        · obtain ⟨left, later, rfl⟩ := (split_other own).mp taken
          exact .cons (.other json own) (ih.mpr ⟨found, left, later, by simp, how⟩)

theorem straight (tagged : Tagged α) (write : α → Json) :
    (Format.tagged tagged write).Straight fun json => ∃ members, json = .object members := by
  rintro fuel depth text rest _ ⟨entries, rfl⟩ given result rest'
  cases opens given with
  | @object below _ body _ deep head taken =>
      subst deep
      obtain ⟨members, same, alike⟩ := members_iff (readMember_iff tagged) taken
      obtain rfl : entries = members := by simpa using same
      have reads : tagged.read fuel (below + 1) text =
          Reader.members (tagged.readMember fuel below) fuel true (none, []) body >>= fun next =>
            Format.placed (tagged.finish next.1.1 (.object next.1.2.reverse)) next.2 := by
        simp only [read, head, nested]
        rfl
      show tagged.read fuel (below + 1) text = .ok (result, rest') ↔
        rest' = rest ∧ tagged.ofJson (.object entries) = .ok result
      rw [reads, bind_eq_ok]
      constructor
      · rintro ⟨⟨⟨kind, after⟩, left⟩, read, finished⟩
        obtain ⟨rfl, steps⟩ := alike.mp read
        obtain ⟨found, others, split, rfl, how⟩ := steps_adds.mp steps
        obtain ⟨finished, rfl⟩ := Format.placed_eq_ok.mp finished
        obtain rfl : kind = found := by
          rcases how with ⟨-, same⟩ | ⟨none, same⟩
          · exact same
          · rw [same, none]
        rw [List.append_nil, List.reverse_reverse] at finished
        exact ⟨rfl, bind_eq_ok.mpr ⟨_, split, finished⟩⟩
      · rintro ⟨rfl, read⟩
        obtain ⟨⟨kind, others⟩, split, finished⟩ := bind_eq_ok.mp read
        have steps : Steps tagged.Adds (none, []) entries (kind, others.reverse ++ []) :=
          steps_adds.mpr ⟨kind, others, split, rfl, .inl ⟨rfl, rfl⟩⟩
        refine ⟨_, alike.mpr ⟨rfl, steps⟩, Format.placed_eq_ok.mpr ⟨?_, rfl⟩⟩
        rw [List.append_nil, List.reverse_reverse]
        exact finished

end Tagged

end VisualNovel.Json
