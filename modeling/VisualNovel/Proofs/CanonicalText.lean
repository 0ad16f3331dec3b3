import VisualNovel.Script.Reading
import VisualNovel.Proofs.Json.Origins

/-!
Canonical texts. A script whose payloads are free of floats is read back from its canonical text,
but for payloads that are `null`, which are taken for none; a script that was read from a text has
no such payload and no text that is too deep.

Main statement: `canonicalText_rereads`.
-/

namespace VisualNovel

open Json

/-! ## Payloads -/

def Signal.withoutNull (signal : Signal) : Signal :=
  { signal with payload := signal.payload.filter (· ≠ .null) }

namespace ChoiceOption

def payload? (option : ChoiceOption) : Option Json :=
  option.signal.bind Signal.payload

def withoutNull (option : ChoiceOption) : ChoiceOption :=
  { option with signal := option.signal.map Signal.withoutNull }

end ChoiceOption

namespace Instruction

def payloads : Instruction → List Json
  | choice options => options.filterMap ChoiceOption.payload?
  | _ => []

def withoutNull : Instruction → Instruction
  | choice options => choice (options.map ChoiceOption.withoutNull)
  | instruction => instruction

end Instruction

namespace Script

def payloads (script : Script) : List Json :=
  script.instructions.flatMap Instruction.payloads

def withoutNull (script : Script) : Script :=
  ⟨script.instructions.map Instruction.withoutNull⟩

/-- The other form of a script, an object with the instructions as its only member. -/
def wrapped (script : Script) : Json :=
  .object [("script", format.write script)]

end Script

theorem Signal.withoutNull_eq {signal : Signal}
    (solid : ∀ payload ∈ signal.payload, payload ≠ .null) : signal.withoutNull = signal := by
  obtain ⟨event, payload⟩ := signal
  cases payload with
  | none => rfl
  | some payload => simp [withoutNull, solid payload rfl]

theorem ChoiceOption.withoutNull_eq {option : ChoiceOption}
    (solid : ∀ payload ∈ option.payload?, payload ≠ .null) : option.withoutNull = option := by
  obtain ⟨text, target, signal⟩ := option
  cases signal with
  | none => rfl
  | some signal => simp [withoutNull, signal.withoutNull_eq solid]

theorem Instruction.withoutNull_eq {instruction : Instruction}
    (solid : ∀ payload ∈ instruction.payloads, payload ≠ .null) :
    instruction.withoutNull = instruction := by
  cases instruction with
  | choice options =>
      have same : ∀ option ∈ options, option.withoutNull = id option := fun option listed =>
        option.withoutNull_eq fun payload given =>
          solid payload (List.mem_filterMap.mpr ⟨option, listed, given⟩)
      simp [withoutNull, List.map_congr_left same]
  | _ => rfl

theorem Script.withoutNull_eq {script : Script}
    (solid : ∀ payload ∈ script.payloads, payload ≠ .null) : script.withoutNull = script := by
  have same : ∀ instruction ∈ script.instructions, instruction.withoutNull = id instruction :=
    fun instruction listed => instruction.withoutNull_eq fun payload given =>
      solid payload (List.mem_flatMap.mpr ⟨instruction, listed, given⟩)
  simp [withoutNull, List.map_congr_left same]

/-! ## What is written -/

section Written

variable {allowed : Number → Prop} {depth : Nat}

theorem Signal.bounded_write {signal : Signal}
    (bounded : ∀ payload ∈ signal.payload, payload.Bounded allowed depth) :
    (format.write signal).Bounded allowed (depth + 1) :=
  Fields.bounded_write ⟨Format.bounded_text _, Format.bounded_option bounded, trivial⟩

theorem ChoiceOption.bounded_write {option : ChoiceOption}
    (bounded : ∀ payload ∈ option.payload?, payload.Bounded allowed depth) :
    (format.write option).Bounded allowed (depth + 2) := by
  refine Fields.bounded_write ⟨Format.bounded_text _,
    Format.bounded_option fun _ _ => Format.bounded_text _, Format.bounded_option ?_, trivial⟩
  intro signal given
  exact signal.bounded_write fun payload found =>
    bounded payload (Option.bind_eq_some_iff.mpr ⟨signal, given, found⟩)

theorem Instruction.bounded_write (plain : ∀ number : Number, number.Plain → allowed number)
    {instruction : Instruction}
    (bounded : ∀ payload ∈ instruction.payloads, payload.Bounded allowed depth) :
    (format.write instruction).Bounded allowed (depth + 4) := by
  have tagged {members : List (String × Json)}
      (bounded : (object members).Bounded allowed (depth + 4)) :
      (object (("kind", .string instruction.kind) :: members)).Bounded allowed (depth + 4) := by
    refine bounded_of_parts (by simp) fun part inside => ?_
    rcases List.mem_cons.mp inside with rfl | inside
    · exact Format.bounded_text _
    · exact bounded.part inside
  refine tagged ?_
  cases instruction with
  | label id => exact Fields.bounded_write ⟨Format.bounded_text _, trivial⟩
  | say speaker text =>
      exact Fields.bounded_write ⟨Format.bounded_option fun _ _ => Format.bounded_text _,
        Format.bounded_text _, trivial⟩
  | background visible image delay =>
      exact Fields.bounded_write ⟨Format.bounded_option fun _ _ => Format.bounded_boolean _,
        Format.bounded_option fun _ _ => Format.bounded_text _,
        Format.bounded_option fun _ _ => Format.bounded_millis plain _, trivial⟩
  | character id action state side delay =>
      exact Fields.bounded_write ⟨Format.bounded_text _, Format.bounded_names ..,
        Format.bounded_option fun _ _ => Format.bounded_text _,
        Format.bounded_option fun _ _ => Format.bounded_names ..,
        Format.bounded_option fun _ _ => Format.bounded_millis plain _, trivial⟩
  | choice options =>
      refine Fields.bounded_write ⟨Format.bounded_list fun option listed => ?_, trivial⟩
      exact option.bounded_write fun payload given =>
        bounded payload (List.mem_filterMap.mpr ⟨option, listed, given⟩)
  | wait duration =>
      exact Fields.bounded_write
        ⟨Format.bounded_option fun _ _ => Format.bounded_millis plain _, trivial⟩
  | jump target => exact Fields.bounded_write ⟨Format.bounded_text _, trivial⟩
  | music action track looping =>
      exact Fields.bounded_write ⟨Format.bounded_names ..,
        Format.bounded_option fun _ _ => Format.bounded_text _,
        Format.bounded_option fun _ _ => Format.bounded_boolean _, trivial⟩
  | ending => exact bounded_of_parts (by simp) (by simp [members, parts])
  | unknown => exact bounded_of_parts (by simp) (by simp [members, parts])

theorem Script.bounded_write (plain : ∀ number : Number, number.Plain → allowed number)
    {script : Script} (bounded : ∀ payload ∈ script.payloads, payload.Bounded allowed depth) :
    (format.write script).Bounded allowed (depth + 5) :=
  Format.bounded_list fun instruction listed => instruction.bounded_write plain
    fun payload given => bounded payload (List.mem_flatMap.mpr ⟨instruction, listed, given⟩)

theorem Script.plain_wrapped {script : Script}
    (plain : (format.write script).Bounded Number.Plain depth) :
    script.wrapped.Bounded Number.Plain (depth + 1) := by
  refine bounded_of_parts (by simp [wrapped]) fun part inside => ?_
  cases List.mem_singleton.mp inside
  exact plain

theorem Script.plain_of_shallow {script : Script}
    (proper : ∀ payload ∈ script.payloads, payload.Settled ∧ payload.FloatFree)
    (shallow : (format.write script).depth ≤ depth) :
    (format.write script).Bounded Number.Plain depth := by
  have plain : ∀ payload ∈ script.payloads,
      payload.Bounded Number.Plain (depthOfItems script.payloads) := by
    intro payload given
    obtain ⟨settled, floatFree⟩ := proper payload given
    exact floatFree.plain ⟨depthOfItems_le_iff.mp (Nat.le_refl _) payload given, settled.2⟩
  exact ⟨shallow, (script.bounded_write (fun _ => id) plain).2⟩

end Written

/-! ## What that is taken for -/

theorem Json.Format.optional_converts {α : Type} {format : Format α} {value : Option α}
    (inner : ∀ content ∈ value, format.Converts content content)
    (solid : ∀ content ∈ value, (format.write content).normalize ≠ .null) :
    format.option.Converts value value := by
  simpa using option_converts id inner solid

theorem Json.Format.optionalText_converts (value : Option String) :
    Format.text.option.Converts value value :=
  optional_converts (fun content _ => text_converts content)
    fun content _ => by simp [text, Json.normalize]

theorem Json.Format.optionalBoolean_converts (value : Option Bool) :
    Format.boolean.option.Converts value value :=
  optional_converts (fun content _ => boolean_converts content)
    fun content _ => by simp [boolean, Json.normalize]

theorem Json.Format.optionalMillis_converts (value : Option UInt64) :
    Format.millis.option.Converts value value :=
  optional_converts (fun content _ => millis_converts content)
    fun content _ => by simp [millis, imap, natural, nat, Json.normalize]

theorem CharacterAction.converts (action : CharacterAction) : format.Converts action action :=
  Format.names_converts (by cases action <;> rfl)

theorem MusicAction.converts (action : MusicAction) : format.Converts action action :=
  Format.names_converts (by cases action <;> rfl)

theorem Side.converts (side : Side) : format.Converts side side :=
  Format.names_converts (by cases side <;> rfl)

theorem Signal.converts {signal : Signal}
    (settled : ∀ payload ∈ signal.payload, payload.normalize = payload) :
    format.Converts signal signal.withoutNull := by
  have payload : Format.any.option.Converts signal.payload (signal.payload.filter (· ≠ .null)) := by
    cases given : signal.payload with
    | none => rfl
    | some payload =>
        have same := settled payload given
        by_cases empty : payload = .null
        · subst empty
          rfl
        · have kept : (some payload).filter (· ≠ .null) = some payload := by simp [empty]
          rw [kept]
          exact Format.optional_converts
            (fun content given => by cases given; exact Format.any_converts same)
            (fun content given => by cases given; exact fun none => empty (same.symm.trans none))
  refine Format.record_converts (signal.event, _, ()) (by decide) ?_
  exact Fields.converts_need (Format.text_converts _) <|
    Fields.converts_optional (fun missing => by simp [missing]) (fun _ => payload) trivial

theorem ChoiceOption.converts {option : ChoiceOption}
    (settled : ∀ payload ∈ option.payload?, payload.normalize = payload) :
    format.Converts option option.withoutNull := by
  have signal : Signal.format.option.Converts option.signal
      (option.signal.map Signal.withoutNull) := by
    refine Format.option_converts _ (fun signal given => ?_) fun signal given => ?_
    · exact signal.converts fun payload found =>
        settled payload (Option.bind_eq_some_iff.mpr ⟨signal, given, found⟩)
    · simp [Signal.format, Format.record, Json.normalize]
  refine Format.record_converts (option.text, option.target, _, ()) (by decide) ?_
  exact Fields.converts_need (Format.text_converts _) <|
    Fields.converts_optional id (fun _ => Format.optionalText_converts _) <|
    Fields.converts_optional (fun missing => by simp [missing]) (fun _ => signal) trivial

namespace Instruction

theorem converts {instruction : Instruction}
    (settled : ∀ payload ∈ instruction.payloads, payload.normalize = payload) :
    format.Converts instruction instruction.withoutNull := by
  cases instruction with
  | label id =>
      have fields : labelFields.Converts (id, ()) (id, ()) :=
        Fields.converts_need (Format.text_converts _) trivial
      exact Tagged.ofJson_write tagged "label" rfl (by decide) fields
  | say speaker text =>
      have fields : sayFields.Converts (speaker, text, ()) (speaker, text, ()) :=
        Fields.converts_optional id (fun _ => Format.optionalText_converts _) <|
        Fields.converts_need (Format.text_converts _) trivial
      exact Tagged.ofJson_write tagged "say" rfl (by decide) fields
  | background visible image delay =>
      have fields : backgroundFields.Converts (visible, image, delay, ())
          (visible, image, delay, ()) :=
        Fields.converts_optional id (fun _ => Format.optionalBoolean_converts _) <|
        Fields.converts_optional id (fun _ => Format.optionalText_converts _) <|
        Fields.converts_optional id (fun _ => Format.optionalMillis_converts _) trivial
      exact Tagged.ofJson_write tagged "bg" rfl (by decide) fields
  | character id action state side delay =>
      have onSide : Side.format.option.Converts side side :=
        Format.optional_converts (fun side _ => side.converts)
          fun side _ => by simp [Side.format, Format.names, Format.variants, Json.normalize]
      have fields : characterFields.Converts (id, action, state, side, delay, ())
          (id, action, state, side, delay, ()) :=
        Fields.converts_need (Format.text_converts _) <|
        Fields.converts_need (CharacterAction.converts _) <|
        Fields.converts_optional (fun missing => missing)
          (fun _ => Format.optionalText_converts _) <|
        Fields.converts_optional (fun missing => missing) (fun _ => onSide) <|
        Fields.converts_optional (fun missing => missing)
          (fun _ => Format.optionalMillis_converts _) trivial
      exact Tagged.ofJson_write tagged "char" rfl (by decide) fields
  | choice options =>
      have inner : (Format.list ChoiceOption.format).Converts options
          (options.map ChoiceOption.withoutNull) :=
        Format.list_converts _ fun option listed => option.converts fun payload given =>
          settled payload (List.mem_filterMap.mpr ⟨option, listed, given⟩)
      have fields : choiceFields.Converts (options, ())
          (options.map ChoiceOption.withoutNull, ()) := Fields.converts_need inner trivial
      exact Tagged.ofJson_write tagged "choice" rfl (by decide) fields
  | wait duration =>
      have fields : waitFields.Converts (duration, ()) (duration, ()) :=
        Fields.converts_optional id (fun _ => Format.optionalMillis_converts _) trivial
      exact Tagged.ofJson_write tagged "wait" rfl (by decide) fields
  | jump target =>
      have fields : jumpFields.Converts (target, ()) (target, ()) :=
        Fields.converts_need (Format.text_converts _) trivial
      exact Tagged.ofJson_write tagged "jump" rfl (by decide) fields
  | music action track looping =>
      have fields : musicFields.Converts (action, track, looping, ())
          (action, track, looping, ()) :=
        Fields.converts_need (MusicAction.converts _) <|
        Fields.converts_optional id (fun _ => Format.optionalText_converts _) <|
        Fields.converts_optional id (fun _ => Format.optionalBoolean_converts _) trivial
      exact Tagged.ofJson_write tagged "bgm" rfl (by decide) fields
  | ending => exact Tagged.ofJson_empty tagged "end" rfl
  | unknown => exact Tagged.ofJson_empty tagged "unknown" rfl

theorem keys_nodup (instruction : Instruction) :
    ((("kind", Json.string instruction.kind) :: instruction.members).map Prod.fst).Nodup := by
  have apart {γ σ : Type} {fields : Fields γ σ} (distinct : ("kind" :: fields.names).Nodup)
      (values : γ) (kind : Json) : ((("kind", kind) :: fields.write values).map Prod.fst).Nodup :=
    distinct.sublist ((fields.write_keys values).cons_cons _)
  cases instruction with
  | ending => simp [members]
  | unknown => simp [members]
  | _ => exact apart (by decide) _ _

theorem kindOf?_write (instruction : Instruction) :
    Script.kindOf? (format.write instruction).normalize = some instruction.kind := by
  have named := lookup_normalizeMembers [] instruction.keys_nodup "kind"
  rw [lookup_cons_eq, if_pos rfl] at named
  have found : (format.write instruction).normalize.member? "kind" =
      some (.string instruction.kind) := by
    show (normalizeMembers [] _).lookup "kind" = _
    rw [named]
    simp [Json.normalize]
  simp only [Script.kindOf?, found]

theorem instructionOf_write {instruction : Instruction}
    (settled : ∀ payload ∈ instruction.payloads, payload.normalize = payload) (offset : Nat) :
    Script.instructionOf offset (format.write instruction).normalize =
      .ok instruction.withoutNull := by
  have read : format.ofJson (format.write instruction).normalize = .ok instruction.withoutNull :=
    converts settled
  simp only [Script.instructionOf, kindOf?_write, read]

end Instruction

namespace Script

theorem instructionsOf_write {instructions : List Instruction}
    (settled : ∀ instruction ∈ instructions, ∀ payload ∈ instruction.payloads,
      payload.normalize = payload) (offset : Nat) :
    instructionsOf offset
        ((instructions.map Instruction.format.write).map Json.normalize) =
      .ok (instructions.map Instruction.withoutNull) := by
  induction instructions generalizing offset with
  | nil => rfl
  | cons instruction instructions ih =>
      have first := Instruction.instructionOf_write (settled _ List.mem_cons_self) offset
      have others := ih (fun later listed => settled later (List.mem_cons_of_mem _ listed))
        (offset + 1)
      simp only [List.map_cons, instructionsOf, first, others, ok_bind]
      rfl

theorem normalize_write (script : Script) : (format.write script).normalize =
    .array ((script.instructions.map Instruction.format.write).map Json.normalize) := by
  show Json.normalize (.array (script.instructions.map Instruction.format.write)) = _
  rw [Json.normalize, normalizeItems_eq]

theorem ofText?_document {script : Script} {document : Json}
    (settled : ∀ payload ∈ script.payloads, payload.normalize = payload)
    (plain : document.Bounded Number.Plain Reader.depthLimit)
    (records : recordsOf document.normalize =
      .ok ((script.instructions.map Instruction.format.write).map Json.normalize)) :
    ofText? document.compact = .ok script.withoutNull := by
  have read : instructionsOf 0 _ = .ok _ := instructionsOf_write
    (fun instruction listed payload given =>
      settled payload (List.mem_flatMap.mpr ⟨instruction, listed, given⟩)) 0
  simp only [ofText?, records?, ofText?_compact plain, records, read, ok_bind]
  rfl

theorem ofText?_canonicalText {script : Script}
    (settled : ∀ payload ∈ script.payloads, payload.normalize = payload)
    (plain : (format.write script).Bounded Number.Plain Reader.depthLimit) :
    ofText? script.canonicalText = .ok script.withoutNull :=
  ofText?_document settled plain (by rw [normalize_write]; rfl)

theorem ofText?_wrapped {script : Script}
    (settled : ∀ payload ∈ script.payloads, payload.normalize = payload)
    (plain : script.wrapped.Bounded Number.Plain Reader.depthLimit) :
    ofText? script.wrapped.compact = .ok script.withoutNull := by
  refine ofText?_document settled plain ?_
  simp only [wrapped, Json.normalize, normalizeMembers, insertEntry, normalize_write]
  simp [recordsOf]

end Script

/-! ## Where payloads come from -/

/-- A payload that was found so many levels down in a value. -/
def Json.Holds (levels : Nat) (value payload : Json) : Prop :=
  payload.normalize = payload ∧ payload ≠ .null ∧
    ∀ {allowed depth}, value.Bounded allowed (depth + levels) → payload.Bounded allowed depth

namespace Json

theorem holds_normalize {value : Json} (solid : value ≠ .null) :
    Holds 0 value value.normalize :=
  ⟨value.normalize_normalize, normalize_ne_null solid, fun bounded => bounded.normalize⟩

theorem Holds.of_succ {levels : Nat} {value payload : Json}
    (holds : Holds (levels + 1) value payload) : Holds levels value payload :=
  ⟨holds.1, holds.2.1, fun bounded => holds.2.2 (bounded.mono (Nat.le_succ _))⟩

theorem Holds.of_part {levels : Nat} {value part payload : Json} (holds : Holds levels part payload)
    (inside : part ∈ value.parts) : Holds (levels + 1) value payload :=
  ⟨holds.1, holds.2.1, fun bounded => holds.2.2 (bounded.part inside)⟩

end Json

theorem Signal.holds_of_ofJson {json payload : Json} {signal : Signal}
    (read : format.ofJson json = .ok signal) (given : payload ∈ signal.payload) :
    Holds 1 json payload := by
  obtain ⟨⟨event, found, ⟨⟩⟩, taken, rfl⟩ := map_eq_ok.mp read
  obtain ⟨-, origin, -⟩ := Fields.ofJson_each taken
  cases given
  rcases origin with absent | ⟨part, inside, read⟩
  · cases absent
  · obtain ⟨solid, read⟩ := Format.option_ofJson_some read
    cases read
    exact (holds_normalize solid).of_part inside

theorem ChoiceOption.holds_of_ofJson {json payload : Json} {option : ChoiceOption}
    (read : format.ofJson json = .ok option) (given : payload ∈ option.payload?) :
    Holds 2 json payload := by
  obtain ⟨⟨text, target, found, ⟨⟩⟩, taken, rfl⟩ := map_eq_ok.mp read
  obtain ⟨-, -, origin, -⟩ := Fields.ofJson_each taken
  obtain ⟨signal, same, given⟩ := Option.bind_eq_some_iff.mp given
  cases same
  rcases origin with absent | ⟨part, inside, read⟩
  · cases absent
  · exact (Signal.holds_of_ofJson (Format.option_ofJson_some read).2 given).of_part inside

theorem Instruction.holds_of_ofJson {json payload : Json} {instruction : Instruction}
    (read : format.ofJson json = .ok instruction) (given : payload ∈ instruction.payloads) :
    Holds 4 json payload := by
  obtain ⟨kind, rest, read, within⟩ := Tagged.ofJson_eq_ok read
  have ofChoice {options : List ChoiceOption} (same : instruction = choice options)
      (taken : choiceFields.ofJson "struct variant Instruction::Choice" rest = .ok (options, ())) :
      Holds 4 json payload := by
    subst same
    obtain ⟨option, listed, given⟩ := List.mem_filterMap.mp given
    obtain ⟨origin, -⟩ := Fields.ofJson_each taken
    rcases origin with absent | ⟨part, inside, read⟩
    · cases absent
    · obtain ⟨item, member, read⟩ := Format.list_ofJson read option listed
      exact ((option.holds_of_ofJson read given).of_part member).of_part (within inside)
  have ofOther (none : instruction.payloads = []) : Holds 4 json payload := by
    rw [none] at given
    cases given
  have ofRecord {γ σ : Type} {owner : String} {fields : Fields γ σ} {pack : γ → Instruction}
      (none : ∀ values, (pack values).payloads = [])
      (read : (Shape.record owner fields pack).ofJson rest = .ok instruction) :
      Holds 4 json payload := by
    obtain ⟨values, taken, same⟩ := map_eq_ok.mp read
    exact ofOther (same ▸ none values)
  rcases tagged.shape_eq kind with shaped | ⟨entry, listed, shaped⟩
  · rw [shaped] at read
    exact ofOther (Tagged.eq_of_ofJson_empty read ▸ rfl)
  · rw [shaped] at read
    simp only [tagged, List.mem_cons, List.not_mem_nil, or_false] at listed
    rcases listed with rfl | rfl | rfl | rfl | rfl | rfl | rfl | rfl | rfl
    · exact ofRecord (fun _ => rfl) read
    · exact ofRecord (fun _ => rfl) read
    · exact ofRecord (fun _ => rfl) read
    · exact ofRecord (fun _ => rfl) read
    · obtain ⟨⟨options, ⟨⟩⟩, taken, same⟩ := map_eq_ok.mp read
      exact ofChoice same.symm taken
    · exact ofRecord (fun _ => rfl) read
    · exact ofRecord (fun _ => rfl) read
    · exact ofRecord (fun _ => rfl) read
    · exact ofOther (Tagged.eq_of_ofJson_empty read ▸ rfl)

namespace Script

theorem holds_of_instructionOf {offset : Nat} {record payload : Json} {instruction : Instruction}
    (read : instructionOf offset record = .ok instruction)
    (given : payload ∈ instruction.payloads) : Holds 4 record payload := by
  unfold instructionOf at read
  split at read
  · cases read
    cases given
  split at read
  · next taken =>
      cases read
      exact Instruction.holds_of_ofJson taken given
  · cases read

theorem mem_instructionsOf {offset : Nat} {records : List Json} {instructions : List Instruction}
    (read : instructionsOf offset records = .ok instructions) :
    ∀ instruction ∈ instructions, ∃ record ∈ records, ∃ offset,
      instructionOf offset record = .ok instruction := by
  induction records generalizing offset instructions with
  | nil =>
      cases read
      simp
  | cons record records ih =>
      obtain ⟨first, taken, goesOn⟩ := bind_eq_ok.mp read
      obtain ⟨others, later, same⟩ := bind_eq_ok.mp goesOn
      cases same
      refine List.forall_mem_cons.mpr ⟨⟨record, List.mem_cons_self, offset, taken⟩, ?_⟩
      intro instruction listed
      obtain ⟨origin, member, taken⟩ := ih later instruction listed
      exact ⟨origin, List.mem_cons_of_mem _ member, taken⟩

theorem recordsOf_eq_ok {document : Json} {records : List Json}
    (taken : recordsOf document = .ok records) :
    document = .array records ∨ ∃ members, document = .object members ∧
      .array records ∈ document.parts := by
  unfold recordsOf at taken
  split at taken
  · cases taken
    exact .inl rfl
  · next members =>
      split at taken
      · next found =>
          cases taken
          obtain ⟨before, after, same, -⟩ := List.lookup_eq_some_iff.mp found
          exact .inr ⟨members, rfl, List.mem_map.mpr ⟨("script", _), by simp [same], rfl⟩⟩
      · cases taken
  · cases taken

theorem holds_of_ofText? {text : String} {script : Script} (read : ofText? text = .ok script) :
    ∃ document, Json.ofText? text = .ok document ∧ ∀ payload ∈ script.payloads,
      Holds 5 document.normalize payload ∧
        ∀ members, document = .object members → Holds 6 document.normalize payload := by
  obtain ⟨records, found, read⟩ := bind_eq_ok.mp read
  obtain ⟨instructions, taken, same⟩ := bind_eq_ok.mp read
  cases same
  unfold records? at found
  split at found
  · next document parsed =>
      refine ⟨document, parsed, fun payload given => ?_⟩
      obtain ⟨instruction, listed, given⟩ := List.mem_flatMap.mp given
      obtain ⟨record, member, offset, read⟩ := mem_instructionsOf taken instruction listed
      have holds : Holds 5 (.array records) payload :=
        (holds_of_instructionOf read given).of_part member
      rcases recordsOf_eq_ok found with bare | ⟨members, wrapped, inside⟩
      · refine ⟨bare ▸ holds, fun members same => ?_⟩
        rw [same, Json.normalize] at bare
        cases bare
      · have deeper := holds.of_part inside
        exact ⟨deeper.of_succ, fun _ _ => deeper⟩
  · cases found

theorem writable_of_ofText? {text : String} {script : Script} (read : ofText? text = .ok script)
    (floatFree : ∀ payload ∈ script.payloads, payload.FloatFree) :
    (∀ payload ∈ script.payloads, payload.normalize = payload) ∧ script.withoutNull = script ∧
      (format.write script).Bounded Number.Plain Reader.depthLimit ∧
      ∀ members, Json.ofText? text = .ok (.object members) →
        script.wrapped.Bounded Number.Plain Reader.depthLimit := by
  obtain ⟨document, parsed, holds⟩ := holds_of_ofText? read
  have bounded := (ofText?_bounded parsed).normalize
  refine ⟨fun payload given => (holds payload given).1.1,
    withoutNull_eq fun payload given => (holds payload given).1.2.1, ?_, fun members shaped => ?_⟩
  · exact script.bounded_write (fun _ => id) fun payload given =>
      (floatFree payload given).plain ((holds payload given).1.2.2 bounded)
  · have isObject : document = .object members := Except.ok.inj (parsed.symm.trans shaped)
    exact plain_wrapped <| script.bounded_write (fun _ => id) fun payload given =>
      (floatFree payload given).plain (((holds payload given).2 members isObject).2.2 bounded)

theorem canonicalText_rereads :
    (∀ script : Script, (∀ payload ∈ script.payloads, payload.Settled ∧ payload.FloatFree) →
      ((format.write script).depth ≤ Reader.depthLimit →
        ofText? script.canonicalText = .ok script.withoutNull) ∧
      (script.wrapped.depth ≤ Reader.depthLimit →
        ofText? script.wrapped.compact = .ok script.withoutNull)) ∧
    ∀ text script, ofText? text = .ok script → (∀ payload ∈ script.payloads, payload.FloatFree) →
      ofText? script.canonicalText = .ok script ∧
        (ofText? script.canonicalText).map fingerprint = .ok script.fingerprint ∧
        ∀ members, Json.ofText? text = .ok (.object members) →
          ofText? script.wrapped.compact = .ok script := by
  constructor
  · intro script proper
    have settled payload (given : payload ∈ script.payloads) := (proper payload given).1.1
    refine ⟨fun shallow => ofText?_canonicalText settled (plain_of_shallow proper shallow),
      fun shallow => ofText?_wrapped settled ?_⟩
    have inside : format.write script ∈ script.wrapped.parts := List.mem_singleton.mpr rfl
    have below := Nat.lt_of_lt_of_le (depth_parts inside) shallow
    exact plain_wrapped (plain_of_shallow proper (Nat.le_of_lt_succ below))
  · intro text script read floatFree
    obtain ⟨settled, same, plain, deeper⟩ := writable_of_ofText? read floatFree
    have again := ofText?_canonicalText settled plain
    rw [same] at again
    refine ⟨again, by rw [again]; rfl, fun members shaped => ?_⟩
    have wrapped := ofText?_wrapped settled (deeper members shaped)
    rwa [same] at wrapped

def intricate : Script :=
  ⟨[.label "\"\\ü\x00", .background (some false) none (some 18446744073709551615),
    .choice [⟨"a", some "\n", some ⟨"e", some .null⟩⟩,
      ⟨"", none, some ⟨"f", some (.object [("", .array [.number (.integer (-2 ^ 63)),
        .number (.integer (2 ^ 64 - 1))]), ("k", .null)])⟩⟩], .unknown, .ending]⟩

theorem intricate_rereads :
    (∀ payload ∈ intricate.payloads, payload.Settled ∧ payload.FloatFree) ∧
      (format.write intricate).depth ≤ Reader.depthLimit ∧
      intricate.wrapped.depth ≤ Reader.depthLimit ∧
      ofText? intricate.canonicalText = .ok intricate.withoutNull ∧
      ofText? intricate.wrapped.compact = .ok intricate.withoutNull ∧
      (∀ payload ∈ intricate.withoutNull.payloads, payload.FloatFree) ∧
      ofText? intricate.withoutNull.canonicalText = .ok intricate.withoutNull := by
  have payloads : intricate.payloads = [.null, .object [("", .array [.number (.integer (-2 ^ 63)),
      .number (.integer (2 ^ 64 - 1))]), ("k", .null)]] := rfl
  have kept : intricate.withoutNull.payloads = [.object [("", .array [
      .number (.integer (-2 ^ 63)), .number (.integer (2 ^ 64 - 1))]), ("k", .null)]] := rfl
  have settled : ∀ payload ∈ intricate.payloads, payload.normalize = payload := by
    intro payload given
    rw [payloads] at given
    simp only [List.mem_cons, List.not_mem_nil, or_false] at given
    rcases given with rfl | rfl <;> rfl
  have integers : ∀ payload ∈ intricate.payloads, ∀ number ∈ payload.numbers,
      number.InRange ∧ number.IsInteger := by
    simp [payloads, numbers, numbersOfItems, numbersOfMembers, Number.InRange, Number.IsInteger]
  have proper : ∀ payload ∈ intricate.payloads, payload.Settled ∧ payload.FloatFree :=
    fun payload given => ⟨⟨settled payload given, fun number found =>
      (integers payload given number found).1⟩, fun number found =>
      (integers payload given number found).2⟩
  have floatFree : ∀ payload ∈ intricate.withoutNull.payloads, payload.FloatFree := by
    simp [kept, FloatFree, numbers, numbersOfItems, numbersOfMembers, Number.IsInteger]
  have shallow : (format.write intricate).depth ≤ Reader.depthLimit := by decide
  have shallow' : intricate.wrapped.depth ≤ Reader.depthLimit := by decide
  obtain ⟨bare, wrapped⟩ := canonicalText_rereads.1 intricate proper
  have again := canonicalText_rereads.2 _ _ (wrapped shallow') floatFree
  exact ⟨proper, shallow, shallow', bare shallow, wrapped shallow', floatFree, again.1⟩

end Script

end VisualNovel
