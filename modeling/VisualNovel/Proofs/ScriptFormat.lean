import VisualNovel.Script.Reading
import VisualNovel.Proofs.Json.Acceptance

/-!
The format of scripts. Which records stand for which instructions is said here without reading
any; a script is then read from a text just when all its records stand for something, each for the
instruction at its offset, and the first that does not is the one that is reported.

Main statement: `ofText?_exact`.
-/

namespace VisualNovel

open Json

/-! ## What stands for an instruction -/

def Signal.Stands (json : Json) (signal : Signal) : Prop :=
  ∃ find, fieldsOf? ["event", "payload"] json = some find ∧
    Needs find "event" IsText signal.event ∧ MayHave find "payload" Eq signal.payload

def ChoiceOption.Stands (json : Json) (option : ChoiceOption) : Prop :=
  ∃ find, fieldsOf? ["text", "goto", "onSelect"] json = some find ∧
    Needs find "text" IsText option.text ∧ MayHave find "goto" IsText option.target ∧
    MayHave find "onSelect" Signal.Stands option.signal

namespace Instruction

def kinds : List String :=
  ["label", "say", "bg", "char", "choice", "wait", "jump", "bgm", "end"]

/-- The rules for the fields of each kind. -/
def Stands (hollow : Json → Prop) (find : String → Option Json) : Instruction → Prop
  | label id => Needs find "id" IsText id
  | say speaker text => MayHave find "who" IsText speaker ∧ Needs find "text" IsText text
  | background visible image delay =>
      MayHave find "show" IsBoolean visible ∧ MayHave find "src" IsText image ∧
      MayHave find "wait" IsMillis delay
  | character id action state side delay =>
      Needs find "id" IsText id ∧
      Needs find "action" (IsVariant hollow CharacterAction.name) action ∧
      MayHave find "state" IsText state ∧ MayHave find "side" (IsVariant hollow Side.name) side ∧
      MayHave find "wait" IsMillis delay
  | choice options => Needs find "choices" (IsSequence ChoiceOption.Stands) options
  | wait duration => MayHave find "ms" IsMillis duration
  | jump target => Needs find "to" IsText target
  | music action track looping =>
      Needs find "action" (IsVariant hollow MusicAction.name) action ∧
      MayHave find "id" IsText track ∧ MayHave find "loop" IsBoolean looping
  | ending => True
  | unknown => False

end Instruction

namespace Json

def OfKind (record : Json) (kind : String) : Prop :=
  ∃ members, record = .object members ∧ members.lookup "kind" = some (.string kind)

/-- Not an object, without a `kind` that is a string, or of no kind that is known. -/
def Inert (record : Json) : Prop :=
  ∀ kind, record.OfKind kind → kind ∉ Instruction.kinds

inductive Accepted (hollow : Json → Prop) : Json → Instruction → Prop
  | inert {record : Json} : record.Inert → Accepted hollow record .unknown
  | decoded {members : List (String × Json)} {instruction : Instruction} :
      members.lookup "kind" = some (.string instruction.kind) →
      instruction.Stands hollow (fun name => members.lookup name) →
      Accepted hollow (.object members) instruction

/-- A document is an array of records, or an object whose member `script` is one. -/
inductive Document : Json → List Json → Prop
  | bare (records : List Json) : Document (.array records) records
  | wrapped {members : List (String × Json)} {records : List Json} :
      members.lookup "script" = some (.array records) → Document (.object members) records

end Json

/-! ## Parts of instructions -/

theorem CharacterAction.takes : CharacterAction.format.Takes (IsVariant Hollow name) :=
  Format.names_takes (by intro action; cases action <;> simp)
    (by intro first second; cases first <;> cases second <;> decide)

theorem MusicAction.takes : MusicAction.format.Takes (IsVariant Hollow name) :=
  Format.names_takes (by intro action; cases action <;> simp)
    (by intro first second; cases first <;> cases second <;> decide)

theorem Side.takes : Side.format.Takes (IsVariant Hollow name) :=
  Format.names_takes (by intro side; cases side <;> simp)
    (by intro first second; cases first <;> cases second <;> decide)

theorem Signal.takes : Signal.format.Takes Signal.Stands := by
  refine Format.record_takes (by simp [Fields.Uniform, Fields.need, Fields.optional]) (by decide)
    (fun _ => rfl) (fun _ => rfl) fun settled signal => ?_
  rw [Fields.found_need Format.text_takes settled, Fields.found_optional Format.any_takes settled]
  simp [Fields.Found]

theorem ChoiceOption.takes : ChoiceOption.format.Takes ChoiceOption.Stands := by
  refine Format.record_takes (by simp [Fields.Uniform, Fields.need, Fields.optional]) (by decide)
    (fun _ => rfl) (fun _ => rfl) fun settled option => ?_
  rw [Fields.found_need Format.text_takes settled, Fields.found_optional Format.text_takes settled,
    Fields.found_optional Signal.takes settled]
  simp [Fields.Found]

/-! ## Instructions -/

namespace Instruction

theorem kind_mem_kinds (instruction : Instruction) :
    instruction.kind ∈ kinds ↔ instruction ≠ .unknown := by
  cases instruction <;> simp [kind, kinds]

theorem Stands.known {hollow : Json → Prop} {find : String → Option Json}
    {instruction : Instruction} (stands : instruction.Stands hollow find) :
    instruction ≠ .unknown := by
  rintro rfl
  exact stands

section AtHand

variable {members : List (String × Json)} {instruction : Instruction}
  (settled : (Json.object members).Settled)
include settled

theorem ofJson_iff (named : members.lookup "kind" = some (.string instruction.kind))
    (known : instruction ≠ .unknown) : format.ofJson (.object members) = .ok instruction ↔
      instruction.Stands Hollow fun name => members.lookup name := by
  have apart := settled.nodup
  have inner {name : String} {json : Json} (found : members.lookup name = some json) :
      json.Settled := settled.lookup found
  show tagged.ofJson (.object members) = .ok instruction ↔ _
  cases instruction with
  | label id =>
      rw [tagged.ofJson_iff apart named rfl (by decide)]
      simp [labelFields, Fields.found_need Format.text_takes inner, Fields.Found, Stands]
  | say speaker text =>
      rw [tagged.ofJson_iff apart named rfl (by decide)]
      simp [sayFields, Fields.found_need Format.text_takes inner,
        Fields.found_optional Format.text_takes inner, Fields.Found, Stands]
  | background visible image delay =>
      rw [tagged.ofJson_iff apart named rfl (by decide)]
      simp [backgroundFields, Fields.found_optional Format.boolean_takes inner,
        Fields.found_optional Format.text_takes inner,
        Fields.found_optional Format.millis_takes inner, Fields.Found, Stands]
  | character id action state side delay =>
      rw [tagged.ofJson_iff apart named rfl (by decide)]
      simp [characterFields, Fields.found_need Format.text_takes inner,
        Fields.found_need CharacterAction.takes inner,
        Fields.found_optional Format.text_takes inner, Fields.found_optional Side.takes inner,
        Fields.found_optional Format.millis_takes inner, Fields.Found, Stands]
  | choice options =>
      rw [tagged.ofJson_iff apart named rfl (by decide)]
      simp [choiceFields, Fields.found_need (Format.list_takes ChoiceOption.takes) inner,
        Fields.Found, Stands]
  | wait duration =>
      rw [tagged.ofJson_iff apart named rfl (by decide)]
      simp [waitFields, Fields.found_optional Format.millis_takes inner, Fields.Found, Stands]
  | jump target =>
      rw [tagged.ofJson_iff apart named rfl (by decide)]
      simp [jumpFields, Fields.found_need Format.text_takes inner, Fields.Found, Stands]
  | music action track looping =>
      rw [tagged.ofJson_iff apart named rfl (by decide)]
      simp [musicFields, Fields.found_need MusicAction.takes inner,
        Fields.found_optional Format.text_takes inner,
        Fields.found_optional Format.boolean_takes inner, Fields.Found, Stands]
  | ending =>
      rw [tagged.ofJson_empty_iff apart named rfl]
      simp [Stands]
  | unknown => exact absurd rfl known

theorem kind_of_ofJson {kind : String} (named : members.lookup "kind" = some (.string kind))
    (listed : kind ∈ kinds) (read : format.ofJson (.object members) = .ok instruction) :
    instruction.kind = kind := by
  have ofRecord {γ σ : Type} {owner : String} {fields : Fields γ σ} {pack : γ → Instruction}
      (shaped : tagged.shape kind = .record owner fields pack)
      (distinct : ("kind" :: fields.names).Nodup) (ofKind : ∀ values, (pack values).kind = kind) :
      instruction.kind = kind := by
    obtain ⟨values, -, rfl⟩ := (tagged.ofJson_iff settled.nodup named shaped distinct).mp read
    exact ofKind values
  simp only [kinds, List.mem_cons, List.not_mem_nil, or_false] at listed
  rcases listed with rfl | rfl | rfl | rfl | rfl | rfl | rfl | rfl | rfl
  · exact ofRecord rfl (by decide) fun _ => rfl
  · exact ofRecord rfl (by decide) fun _ => rfl
  · exact ofRecord rfl (by decide) fun _ => rfl
  · exact ofRecord rfl (by decide) fun _ => rfl
  · exact ofRecord rfl (by decide) fun _ => rfl
  · exact ofRecord rfl (by decide) fun _ => rfl
  · exact ofRecord rfl (by decide) fun _ => rfl
  · exact ofRecord rfl (by decide) fun _ => rfl
  · obtain rfl := (tagged.ofJson_empty_iff settled.nodup named rfl).mp read
    rfl

theorem ofJson_of_not_mem {kind : String} (named : members.lookup "kind" = some (.string kind))
    (foreign : kind ∉ kinds) :
    format.ofJson (.object members) = .ok instruction ↔ .unknown = instruction := by
  have missing : tagged.kinds.lookup kind = none := lookup_eq_none_iff.mpr foreign
  have shaped : tagged.shape kind = .empty .unknown := by
    rw [Tagged.shape, missing]
    rfl
  exact tagged.ofJson_empty_iff settled.nodup named shaped

theorem ofJson_accepted_iff {kind : String}
    (named : members.lookup "kind" = some (.string kind)) :
    format.ofJson (.object members) = .ok instruction ↔
      (object members).Accepted Hollow instruction := by
  have sameKind {other : String} (again : members.lookup "kind" = some (.string other)) :
      other = kind := by
    simpa [named, eq_comm] using again
  by_cases listed : kind ∈ kinds
  · constructor
    · intro read
      have same := kind_of_ofJson settled named listed read
      have known := instruction.kind_mem_kinds.mp (same ▸ listed)
      subst same
      exact .decoded named ((ofJson_iff settled named known).mp read)
    · intro accepted
      cases accepted with
      | inert inert => exact absurd listed (inert kind ⟨members, rfl, named⟩)
      | decoded named stands => exact (ofJson_iff settled named stands.known).mpr stands
  · rw [ofJson_of_not_mem settled named listed]
    constructor
    · rintro rfl
      refine .inert ?_
      rintro other ⟨_, ⟨⟩, again⟩
      exact sameKind again ▸ listed
    · intro accepted
      cases accepted with
      | inert => rfl
      | decoded again stands =>
          have known := instruction.kind_mem_kinds.mpr stands.known
          exact absurd (sameKind again ▸ known) listed

end AtHand

end Instruction

/-! ## Records -/

namespace Script

theorem kindOf?_eq_some_iff {record : Json} {kind : String} :
    kindOf? record = some kind ↔ record.OfKind kind := by
  unfold kindOf?
  cases record with
  | object members =>
      simp only [Json.member?, OfKind, object.injEq, exists_eq_left']
      split
      · next found => simp [found]
      · next other => simpa using other kind
  | _ => simp [Json.member?, OfKind]

section Records

variable {record : Json} {kind : String} {instruction : Instruction}

theorem instructionOf_ok_iff (settled : record.Settled) (offset : Nat) :
    instructionOf offset record = .ok instruction ↔ record.Accepted Hollow instruction := by
  cases named : kindOf? record with
  | none =>
      have kindless (kind : String) : ¬ record.OfKind kind := fun ofKind => by
        simp [kindOf?_eq_some_iff.mpr ofKind] at named
      simp only [instructionOf, named, Except.ok.injEq]
      constructor
      · rintro rfl
        exact .inert fun kind ofKind => absurd ofKind (kindless kind)
      · intro accepted
        cases accepted with
        | inert => rfl
        | decoded found => exact absurd ⟨_, rfl, found⟩ (kindless _)
  | some kind =>
      obtain ⟨members, rfl, found⟩ := kindOf?_eq_some_iff.mp named
      rw [← Instruction.ofJson_accepted_iff settled found]
      simp only [instructionOf, named]
      cases Instruction.format.ofJson (.object members) <;> simp

theorem instructionOf_error {offset : Nat} {fault : ScriptFault}
    (refused : instructionOf offset record = .error fault) :
    ∃ kind reason, record.OfKind kind ∧ fault = .malformed offset kind reason := by
  unfold instructionOf at refused
  split at refused
  · cases refused
  · next kind named =>
      split at refused
      · cases refused
      · next reason _ =>
          cases refused
          exact ⟨kind, reason, kindOf?_eq_some_iff.mp named, rfl⟩

theorem instructionOf_malformed_iff (settled : record.Settled) {offset place : Nat} :
    (∃ reason, instructionOf offset record = .error (.malformed place kind reason)) ↔
      offset = place ∧ record.OfKind kind ∧
        ∀ instruction, ¬ record.Accepted Hollow instruction := by
  constructor
  · rintro ⟨reason, refused⟩
    obtain ⟨_, _, ofKind, same⟩ := instructionOf_error refused
    cases same
    refine ⟨rfl, ofKind, fun instruction accepted => ?_⟩
    simp [(instructionOf_ok_iff settled offset).mpr accepted] at refused
  · rintro ⟨rfl, ofKind, senseless⟩
    cases read : instructionOf offset record with
    | ok instruction => exact absurd ((instructionOf_ok_iff settled offset).mp read) (senseless _)
    | error fault =>
        obtain ⟨other, reason, again, rfl⟩ := instructionOf_error read
        have same : some other = some kind :=
          (kindOf?_eq_some_iff.mpr again).symm.trans (kindOf?_eq_some_iff.mpr ofKind)
        cases same
        exact ⟨reason, rfl⟩

end Records

theorem instructionsOf_ok_iff {records : List Json} (settled : ∀ record ∈ records, record.Settled)
    {offset : Nat} {instructions : List Instruction} :
    instructionsOf offset records = .ok instructions ↔
      List.Forall₂ (Accepted Hollow) records instructions := by
  induction records generalizing offset instructions with
  | nil => cases instructions <;> simp [instructionsOf]
  | cons record records ih =>
      obtain ⟨first, others⟩ := List.forall_mem_cons.mp settled
      simp only [instructionsOf, bind_eq_ok, instructionOf_ok_iff first, ih others]
      cases instructions <;> simp [pure, Except.pure]

theorem instructionsOf_error {records : List Json} (settled : ∀ record ∈ records, record.Settled)
    {start : Nat} {fault : ScriptFault} (refused : instructionsOf start records = .error fault) :
    ∃ before record after, records = before ++ record :: after ∧
      instructionOf (start + before.length) record = .error fault ∧
      ∀ earlier ∈ before, ∃ instruction, earlier.Accepted Hollow instruction := by
  induction records generalizing start with
  | nil => cases refused
  | cons record records ih =>
      obtain ⟨first, others⟩ := List.forall_mem_cons.mp settled
      cases read : instructionOf start record with
      | error reason =>
          simp only [instructionsOf, read] at refused
          cases refused
          exact ⟨[], record, records, rfl, read, by simp⟩
      | ok instruction =>
          have accepted := (instructionOf_ok_iff first start).mp read
          cases later : instructionsOf (start + 1) records with
          | ok instructions =>
              simp only [instructionsOf, read, later] at refused
              cases refused
          | error reason =>
              simp only [instructionsOf, read, later] at refused
              cases refused
              obtain ⟨before, found, after, rfl, faulty, earlier⟩ := ih others later
              refine ⟨record :: before, found, after, rfl, ?_, ?_⟩
              · rwa [List.length_cons, Nat.add_comm before.length, ← Nat.add_assoc]
              · exact List.forall_mem_cons.mpr ⟨⟨instruction, accepted⟩, earlier⟩

theorem instructionsOf_of_error {before after : List Json} {record : Json}
    (settled : ∀ earlier ∈ before, earlier.Settled) {start : Nat} {fault : ScriptFault}
    (faulty : instructionOf (start + before.length) record = .error fault)
    (accepted : ∀ earlier ∈ before, ∃ instruction, earlier.Accepted Hollow instruction) :
    instructionsOf start (before ++ record :: after) = .error fault := by
  induction before generalizing start with
  | nil =>
      rw [List.length_nil, Nat.add_zero] at faulty
      rw [List.nil_append, instructionsOf, faulty]
      rfl
  | cons first before ih =>
      obtain ⟨this, settled⟩ := List.forall_mem_cons.mp settled
      obtain ⟨⟨instruction, stands⟩, accepted⟩ := List.forall_mem_cons.mp accepted
      rw [List.length_cons, Nat.add_comm before.length, ← Nat.add_assoc] at faulty
      rw [List.cons_append, instructionsOf, (instructionOf_ok_iff this start).mpr stands,
        ih settled faulty accepted]
      rfl

/-- What is refused is the first record that stands for nothing. -/
theorem instructionsOf_malformed_iff {records : List Json}
    (settled : ∀ record ∈ records, record.Settled) {offset : Nat} {kind : String} :
    (∃ reason, instructionsOf 0 records = .error (.malformed offset kind reason)) ↔
      ∃ before record after, records = before ++ record :: after ∧ before.length = offset ∧
        record.OfKind kind ∧ (∀ instruction, ¬ record.Accepted Hollow instruction) ∧
        ∀ earlier ∈ before, ∃ instruction, earlier.Accepted Hollow instruction := by
  constructor
  · rintro ⟨reason, refused⟩
    obtain ⟨before, record, after, rfl, faulty, earlier⟩ := instructionsOf_error settled refused
    rw [Nat.zero_add] at faulty
    obtain ⟨same, ofKind, senseless⟩ :=
      (instructionOf_malformed_iff (settled record (by simp))).mp ⟨reason, faulty⟩
    exact ⟨before, record, after, rfl, same, ofKind, senseless, earlier⟩
  · rintro ⟨before, record, after, rfl, rfl, ofKind, senseless, earlier⟩
    obtain ⟨reason, faulty⟩ := (instructionOf_malformed_iff (settled record (by simp))).mpr
      ⟨Nat.zero_add before.length, ofKind, senseless⟩
    have inFront : ∀ first ∈ before, first.Settled := fun first listed =>
      settled first (List.mem_append_left _ listed)
    exact ⟨reason, instructionsOf_of_error inFront faulty earlier⟩

/-! ## Documents -/

theorem recordsOf_iff {document : Json} {records : List Json} :
    recordsOf document = .ok records ↔ document.Document records := by
  constructor
  · intro taken
    unfold recordsOf at taken
    split at taken
    · cases taken
      exact .bare records
    · split at taken
      · next found =>
          cases taken
          exact .wrapped found
      · cases taken
    · cases taken
  · intro shaped
    cases shaped with
    | bare => rfl
    | wrapped found => simp [recordsOf, found]

theorem recordsOf_error {document : Json} {fault : ScriptFault}
    (refused : recordsOf document = .error fault) : fault = .notASequence := by
  unfold recordsOf at refused
  split at refused
  · cases refused
  · split at refused
    · cases refused
    · cases refused
      rfl
  · cases refused
    rfl

theorem settled_of_document {document : Json} {records : List Json} (settled : document.Settled)
    (shaped : document.Document records) : ∀ record ∈ records, record.Settled := by
  cases shaped with
  | bare => exact fun record listed => settled.part listed
  | wrapped found => exact fun record listed => (settled.lookup found).part listed

section Texts

variable {text : String} {value : Json} (parsed : Json.ofText? text = .ok value)
include parsed

theorem settled_of_ofText? : value.normalize.Settled :=
  ⟨value.normalize_normalize, (ofText?_bounded parsed).normalize.2⟩

theorem ofText?_eq : ofText? text = recordsOf value.normalize >>= fun records =>
    (instructionsOf 0 records).map Script.mk := by
  simp only [ofText?, records?, parsed]
  rfl

theorem ofText?_of_document {records : List Json} (shaped : value.normalize.Document records) :
    ofText? text = (instructionsOf 0 records).map Script.mk := by
  rw [ofText?_eq parsed, recordsOf_iff.mpr shaped, ok_bind]

theorem ofText?_error_iff {records : List Json} (shaped : value.normalize.Document records)
    {fault : ScriptFault} : ofText? text = .error fault ↔
      instructionsOf 0 records = .error fault := by
  rw [ofText?_of_document parsed shaped]
  cases instructionsOf 0 records <;> simp [Except.map]

theorem ofText?_notASequence_iff :
    ofText? text = .error .notASequence ↔ ∀ records, ¬ value.normalize.Document records := by
  constructor
  · intro shapeless records shaped
    have settled := settled_of_document (settled_of_ofText? parsed) shaped
    obtain ⟨_, record, _, _, faulty, -⟩ :=
      instructionsOf_error settled ((ofText?_error_iff parsed shaped).mp shapeless)
    obtain ⟨_, _, -, other⟩ := instructionOf_error faulty
    cases other
  · intro shapeless
    rw [ofText?_eq parsed]
    cases taken : recordsOf value.normalize with
    | ok records => exact absurd (recordsOf_iff.mp taken) (shapeless records)
    | error fault =>
        cases recordsOf_error taken
        rfl

end Texts

theorem ofText?_exact {text : String} {value : Json} (parsed : Json.ofText? text = .ok value) :
    (ofText? text = .error .notASequence ↔ ∀ records, ¬ value.normalize.Document records) ∧
    ∀ records, value.normalize.Document records →
      (∀ script, ofText? text = .ok script ↔
        List.Forall₂ (Accepted Hollow) records script.instructions) ∧
      ((∀ record ∈ records, ∃ instruction, record.Accepted Hollow instruction) →
        ∃ script, ofText? text = .ok script) ∧
      ∀ offset kind, (∃ reason, ofText? text = .error (.malformed offset kind reason)) ↔
        ∃ before record after, records = before ++ record :: after ∧ before.length = offset ∧
          record.OfKind kind ∧ (∀ instruction, ¬ record.Accepted Hollow instruction) ∧
          ∀ earlier ∈ before, ∃ instruction, earlier.Accepted Hollow instruction := by
  refine ⟨ofText?_notASequence_iff parsed, fun records shaped => ?_⟩
  have settled := settled_of_document (settled_of_ofText? parsed) shaped
  refine ⟨fun script => ?_, fun accepted => ?_, fun offset kind => ?_⟩
  · rw [ofText?_of_document parsed shaped, map_eq_ok, ← instructionsOf_ok_iff settled]
    constructor
    · rintro ⟨instructions, taken, rfl⟩
      exact taken
    · exact fun taken => ⟨_, taken, rfl⟩
  · cases taken : instructionsOf 0 records with
    | ok instructions =>
        exact ⟨⟨instructions⟩, by rw [ofText?_of_document parsed shaped, taken]; rfl⟩
    | error fault =>
        obtain ⟨before, record, after, rfl, faulty, -⟩ := instructionsOf_error settled taken
        obtain ⟨instruction, stands⟩ := accepted record (by simp)
        have first := settled record (by simp)
        rw [(instructionOf_ok_iff first _).mpr stands] at faulty
        cases faulty
  · simp only [ofText?_error_iff parsed shaped, instructionsOf_malformed_iff settled]

def aimless : String :=
  "[7,\x7b\"kind\":\"say\",\"text\":\"Hi\"\x7d,\x7b\"kind\":\"jump\"\x7d]"

theorem ofText?_exact_aimless :
    ∃ value, Json.ofText? aimless = .ok value ∧
      ∃ reason, ofText? aimless = .error (.malformed 2 "jump" reason) := by
  let line : List (String × Json) := [("kind", .string "say"), ("text", .string "Hi")]
  let jump : List (String × Json) := [("kind", .string "jump")]
  have parsed : Json.ofText? aimless = .ok (.array [nat 7, .object line, .object jump]) := by
    decide +kernel
  have kept : (nat 7).Accepted Hollow .unknown := .inert (by rintro kind ⟨members, ⟨⟩, -⟩)
  have read : (object line).Accepted Hollow (.say none "Hi") :=
    .decoded rfl ⟨.inl rfl, _, rfl, rfl⟩
  have senseless (instruction : Instruction) : ¬ (object jump).Accepted Hollow instruction := by
    intro accepted
    cases accepted with
    | inert inert => exact inert "jump" ⟨_, rfl, rfl⟩ (by decide)
    | decoded named stands =>
        cases instruction with
        | jump target =>
            obtain ⟨json, found, -⟩ := stands
            cases found
        | _ => simp [jump, Instruction.kind] at named
  refine ⟨_, parsed, ((ofText?_exact parsed).2 _ (.bare _)).2.2 2 "jump" |>.mpr ?_⟩
  refine ⟨[nat 7, .object line], .object jump, [], rfl, rfl, ⟨_, rfl, rfl⟩, senseless, ?_⟩
  simpa using ⟨⟨_, kept⟩, ⟨_, read⟩⟩

def emptyContent : String :=
  "[\x7b\"kind\":\"char\",\"id\":\"a\",\"action\":\x7b\"show\":\x7b\x7d\x7d\x7d]"

/-- An empty object does for the content of a variant that has none, as `null` does. -/
theorem ofText?_emptyContent :
    ∃ value members, Json.ofText? emptyContent = .ok value ∧
      value.normalize.Document [.object members] ∧ ¬ (object members).Inert ∧
      (∀ instruction, ¬ (object members).Accepted (· = .null) instruction) ∧
      ofText? emptyContent = .ok ⟨[.character "a" .shown none none none]⟩ := by
  let members : List (String × Json) :=
    [("action", .object [("show", .object [])]), ("id", .string "a"), ("kind", .string "char")]
  have parsed : Json.ofText? emptyContent = .ok (.array [.object [("kind", .string "char"),
      ("id", .string "a"), ("action", .object [("show", .object [])])]]) := by
    decide +kernel
  have known : ¬ (object members).Inert := fun inert => inert "char" ⟨_, rfl, rfl⟩ (by decide)
  refine ⟨_, members, parsed, .bare _, known, fun instruction accepted => ?_, by decide +kernel⟩
  cases accepted with
  | inert inert => exact known inert
  | decoded named stands =>
      have same : some (Json.string "char") = some (.string instruction.kind) := named
      cases instruction with
      | character id action state side delay =>
          obtain ⟨-, ⟨json, found, variant⟩, -⟩ := stands
          cases found
          rcases variant with other | ⟨content, rfl, other⟩
          · cases other
          · simp at other
      | _ => simp [Instruction.kind] at same

end Script

end VisualNovel
