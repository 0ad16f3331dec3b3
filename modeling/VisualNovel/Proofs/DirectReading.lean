import VisualNovel.Proofs.Json.Straight
import VisualNovel.Proofs.ScriptFormat

/-!
Reading a script straight from its text, instruction by instruction, and reading the text as a value
whose records are looked at one by one. The first way refuses records without a kind and objects
that repeat the key of a field; where neither occurs, both come to the same script.

Main statement: `direct_reading_agrees`.
-/

namespace VisualNovel

open Json

theorem CharacterAction.steady : CharacterAction.format.Steady :=
  Format.names_steady _ _

theorem MusicAction.steady : MusicAction.format.Steady :=
  Format.names_steady _ _

theorem Side.steady : Side.format.Steady :=
  Format.names_steady _ _

theorem Signal.steady : Signal.format.Steady := by
  apply Format.record_steady
  · exact Fields.steady_need Format.text_steady <|
      Fields.steady_optional Format.any_steady trivial
  · decide

theorem ChoiceOption.steady : ChoiceOption.format.Steady := by
  apply Format.record_steady
  · exact Fields.steady_need Format.text_steady <|
      Fields.steady_optional Format.text_steady <| Fields.steady_optional Signal.steady trivial
  · decide

namespace Instruction

open Fields Json.Format in
theorem shape_steady (kind : String) : (tagged.shape kind).Steady "kind" := by
  obtain same | ⟨entry, listed, same⟩ := tagged.shape_eq kind
  · rw [same]
    exact .empty unknown
  · rw [same]
    simp only [tagged, List.mem_cons, List.not_mem_nil, or_false] at listed
    rcases listed with rfl | rfl | rfl | rfl | rfl | rfl | rfl | rfl | rfl
    · refine .record _ _ ?_ (by decide)
      exact steady_need text_steady trivial
    · refine .record _ _ ?_ (by decide)
      exact steady_optional text_steady <| steady_need text_steady trivial
    · refine .record _ _ ?_ (by decide)
      exact steady_optional boolean_steady <| steady_optional text_steady <|
        steady_optional millis_steady trivial
    · refine .record _ _ ?_ (by decide)
      exact steady_need text_steady <| steady_need CharacterAction.steady <|
        steady_optional text_steady <| steady_optional Side.steady <|
        steady_optional millis_steady trivial
    · refine .record _ _ ?_ (by decide)
      exact steady_need (list_steady ChoiceOption.steady) trivial
    · refine .record _ _ ?_ (by decide)
      exact steady_optional millis_steady trivial
    · refine .record _ _ ?_ (by decide)
      exact steady_need text_steady trivial
    · refine .record _ _ ?_ (by decide)
      exact steady_need MusicAction.steady <| steady_optional text_steady <|
        steady_optional boolean_steady trivial
    · exact .empty ending

theorem steady : format.Steady :=
  Tagged.ofJson_steady shape_steady

section AtHand

variable {members : List (String × Json)} {instruction : Instruction}
  (settled : (Json.normalize (.object members)).Settled)
include settled

theorem accepted_of_ofJson (read : format.ofJson (.object members) = .ok instruction) :
    (Json.normalize (.object members)).Accepted Hollow instruction := by
  obtain ⟨kind, others, named, -⟩ := Tagged.ofJson_object_eq_ok read
  have named : (normalizeMembers [] members).lookup "kind" = some (.string kind) := by
    have last : members.reverse.lookup "kind" = some (.string kind) := named
    simp [lookup_normalizeMembers_last, last, Json.normalize]
  have read := (steady (.object members)).settled read
  rw [Json.normalize] at settled read ⊢
  exact (ofJson_accepted_iff settled named).mp read

theorem ofJson_of_accepted (apart : (object members).KeysApart) {kind : String}
    (named : members.lookup "kind" = some (.string kind))
    (accepted : (Json.normalize (.object members)).Accepted Hollow instruction) :
    format.ofJson (.object members) = .ok instruction := by
  have named : (normalizeMembers [] members).lookup "kind" = some (.string kind) := by
    simp [lookup_normalizeMembers _ apart.nodup, named, Json.normalize]
  apply (steady (.object members)).given apart
  rw [Json.normalize] at settled accepted ⊢
  exact (ofJson_accepted_iff settled named).mpr accepted

end AtHand

end Instruction

namespace Script

section Texts

variable {text : String} {records : List Json} {script : Script}

theorem format_straight : format.Straight fun json => ∃ records, json = .array records ∧
    ∀ record ∈ records, ∃ members, record = .object members :=
  Format.imap_straight (Format.list_straight (Instruction.tagged.straight _)) _ _

theorem format_ofText?_iff (parsed : Json.ofText? text = .ok (.array records))
    (objects : ∀ record ∈ records, ∃ members, record = .object members) :
    format.ofText? text = .ok script ↔
      List.Forall₂ (fun record instruction => Instruction.format.ofJson record = .ok instruction)
        records script.instructions := by
  rw [format_straight.ofText?_iff ⟨records, rfl, objects⟩ parsed, ← Format.itemsOfJson_iff]
  show (Instruction.format.itemsOfJson records).map mk = .ok script ↔ _
  rw [map_eq_ok]
  constructor
  · rintro ⟨instructions, taken, rfl⟩
    exact taken
  · exact fun taken => ⟨_, taken, rfl⟩

theorem settled_records (parsed : Json.ofText? text = .ok (.array records)) :
    ∀ record ∈ records, record.normalize.Settled := by
  intro record listed
  apply (settled_of_ofText? parsed).part
  rw [Json.normalize, normalizeItems_eq]
  exact List.mem_map_of_mem listed

theorem ofText?_records_iff (parsed : Json.ofText? text = .ok (.array records)) :
    ofText? text = .ok script ↔
      List.Forall₂ (fun record instruction => record.normalize.Accepted Hollow instruction)
        records script.instructions := by
  have shaped : (Json.normalize (.array records)).Document (records.map Json.normalize) := by
    rw [Json.normalize, normalizeItems_eq]
    exact .bare _
  have settled := settled_of_document (settled_of_ofText? parsed) shaped
  rw [ofText?_of_document parsed shaped, map_eq_ok, ← List.forall₂_map_left_iff]
  constructor
  · rintro ⟨instructions, taken, rfl⟩
    exact (instructionsOf_ok_iff settled).mp taken
  · exact fun accepted => ⟨_, (instructionsOf_ok_iff settled).mpr accepted, rfl⟩

end Texts

/-- What is read straight from a text of records is the script of the text; and the script of the
text is read straight from it if each record has a kind and no object repeats a key. -/
theorem direct_reading_agrees {text : String} {records : List Json}
    (parsed : Json.ofText? text = .ok (.array records))
    (objects : ∀ record ∈ records, ∃ members, record = .object members) :
    (∀ script, format.ofText? text = .ok script → ofText? text = .ok script) ∧
    ((∀ record ∈ records, ∃ kind, record.OfKind kind) → (array records).KeysApart →
      ∀ script, ofText? text = .ok script → format.ofText? text = .ok script) := by
  have settled := settled_records parsed
  constructor
  · intro script read
    have decoded := (format_ofText?_iff parsed objects).mp read
    have each := (List.forall₂_and_left records script.instructions).mpr
      ⟨fun record listed => And.intro (objects record listed) (settled record listed), decoded⟩
    apply (ofText?_records_iff parsed).mpr
    apply each.imp
    rintro _ instruction ⟨⟨⟨members, rfl⟩, settled⟩, read⟩
    exact Instruction.accepted_of_ofJson settled read
  · intro named apart script read
    have accepted := (ofText?_records_iff parsed).mp read
    have each := (List.forall₂_and_left records script.instructions).mpr
      ⟨fun record listed => And.intro (named record listed)
        (And.intro (apart.part listed) (settled record listed)), accepted⟩
    apply (format_ofText?_iff parsed objects).mpr
    apply each.imp
    rintro _ instruction ⟨⟨⟨kind, members, rfl, named⟩, apart, settled⟩, accepted⟩
    exact Instruction.ofJson_of_accepted settled apart named accepted

def disordered : String :=
  "[\x7b\"id\":\"a\",\"kind\":\"label\"\x7d,\x7b\"ms\":5,\"kind\":\"fade\"\x7d," ++
    "\x7b\"choices\":[\x7b\"onSelect\":\x7b\"payload\":\x7b\"y\":1,\"x\":2\x7d," ++
    "\"event\":\"e\"\x7d,\"text\":\"Go\"\x7d],\"kind\":\"choice\"\x7d]"

theorem direct_reading_agrees_disordered : ∃ script,
    ofText? disordered = .ok script ∧ format.ofText? disordered = .ok script ∧
      script.instructions.map (·.kind) = ["label", "unknown", "choice"] := by
  let signal : Json := .object
    [("payload", .object [("y", nat 1), ("x", nat 2)]), ("event", .string "e")]
  let choices : Json := .array [.object [("onSelect", signal), ("text", .string "Go")]]
  let records : List Json := [
    .object [("id", .string "a"), ("kind", .string "label")],
    .object [("ms", nat 5), ("kind", .string "fade")],
    .object [("choices", choices), ("kind", .string "choice")]]
  let script : Script := ⟨[.label "a", .unknown,
    .choice [⟨"Go", none, some ⟨"e", some (.object [("x", nat 2), ("y", nat 1)])⟩⟩]]⟩
  have parsed : Json.ofText? disordered = .ok (.array records) := by decide +kernel
  have read : ofText? disordered = .ok script := by decide +kernel
  have objects : ∀ record ∈ records, ∃ members, record = .object members := by simp [records]
  have named : ∀ record ∈ records, ∃ kind, record.OfKind kind := by
    simp [records, OfKind, List.lookup_cons]
  have apart : (array records).KeysApart := by simp [records, choices, signal, nat]
  exact ⟨script, read, (direct_reading_agrees parsed objects).2 named apart script read, rfl⟩

end Script

end VisualNovel
