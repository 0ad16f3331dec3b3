import VisualNovel.SavePoint
import VisualNovel.Proofs.Json.Origins

namespace VisualNovel

open Json

theorem Phase.rereads (phase : Phase) : format.Rereads phase :=
  Format.names_rereads (by cases phase <;> rfl)

theorem Side.rereads (side : Side) : format.Rereads side :=
  Format.names_rereads (by cases side <;> rfl)

theorem MusicStatus.rereads (status : MusicStatus) : format.Rereads status :=
  Format.names_rereads (by cases status <;> rfl)

theorem Json.Format.optionalText_rereads (value : Option String) :
    Format.text.option.Rereads value :=
  option_rereads (fun content _ => text_rereads content) fun content _ => by simp [text]

theorem Json.Format.optionalIndex_rereads {value : Option Nat}
    (inRange : ∀ offset ∈ value, offset < 2 ^ 64) : Format.index.option.Rereads value :=
  option_rereads (fun offset given => natural_rereads (inRange offset given))
    fun offset _ => by simp [natural, nat]

theorem Sprite.rereads (sprite : Sprite) : format.Rereads sprite := by
  refine Format.record_rereads (by decide) ?_ rfl
  exact Fields.rereads_need (Format.boolean_rereads _) <|
    Fields.rereads_nullable (Format.optionalText_rereads _) <|
    Fields.rereads_need (Side.rereads _) trivial

theorem Sprite.plain_write (sprite : Sprite) : (format.write sprite).Bounded Number.Plain 1 :=
  Fields.bounded_write ⟨Format.bounded_boolean _,
    Format.bounded_option fun _ _ => Format.bounded_text _, Format.bounded_names .., trivial⟩

theorem Backdrop.rereads (backdrop : Backdrop) : format.Rereads backdrop := by
  refine Format.record_rereads (by decide) ?_ rfl
  exact Fields.rereads_need (Format.boolean_rereads _) <|
    Fields.rereads_nullable (Format.optionalText_rereads _) trivial

theorem Backdrop.plain_write (backdrop : Backdrop) :
    (format.write backdrop).Bounded Number.Plain 1 :=
  Fields.bounded_write ⟨Format.bounded_boolean _,
    Format.bounded_option fun _ _ => Format.bounded_text _, trivial⟩

theorem Music.rereads (music : Music) : format.Rereads music := by
  refine Format.record_rereads (by decide) ?_ rfl
  exact Fields.rereads_nullable (Format.optionalText_rereads _) <|
    Fields.rereads_need (Format.boolean_rereads _) <|
    Fields.rereads_need (MusicStatus.rereads _) trivial

theorem Music.plain_write (music : Music) : (format.write music).Bounded Number.Plain 1 :=
  Fields.bounded_write ⟨Format.bounded_option fun _ _ => Format.bounded_text _,
    Format.bounded_boolean _, Format.bounded_names .., trivial⟩

theorem Dialogue.rereads (dialogue : Dialogue) : format.Rereads dialogue := by
  refine Format.record_rereads (by decide) ?_ rfl
  exact Fields.rereads_nullable (Format.optionalText_rereads _) <|
    Fields.rereads_need (Format.text_rereads _) trivial

theorem Dialogue.plain_write (dialogue : Dialogue) :
    (format.write dialogue).Bounded Number.Plain 1 :=
  Fields.bounded_write ⟨Format.bounded_option fun _ _ => Format.bounded_text _,
    Format.bounded_text _, trivial⟩

namespace SavePoint

def InRange (save : SavePoint) : Prop :=
  save.pc < 2 ^ 64 ∧ ∀ offset ∈ save.choiceAt, offset < 2 ^ 64

theorem rereads {save : SavePoint} (inRange : save.InRange) : format.Rereads save := by
  refine Format.record_rereads (by decide) ?_ rfl
  exact Fields.rereads_need (Format.text_rereads _) <|
    Fields.rereads_need (Format.natural_rereads inRange.1) <|
    Fields.rereads_need (Phase.rereads _) <|
    Fields.rereads_need (Format.dict_rereads fun entry _ => entry.2.rereads) <|
    Fields.rereads_need (Backdrop.rereads _) <|
    Fields.rereads_need (Music.rereads _) <|
    Fields.rereads_nullable (Format.option_rereads (fun dialogue _ => dialogue.rereads)
      fun dialogue _ => by simp [Dialogue.format, Format.record]) <|
    Fields.rereads_nullable (Format.optionalIndex_rereads inRange.2) trivial

theorem plain_write {save : SavePoint} (inRange : save.InRange) :
    (format.write save).Bounded Number.Plain 3 := by
  have characters : ((Format.dict Sprite.format).write save.scene.characters).Bounded
      Number.Plain 2 := Format.bounded_dict fun entry _ => entry.2.plain_write
  have dialogue : (Dialogue.format.option.write save.scene.dialogue).Bounded Number.Plain 2 :=
    Format.bounded_option fun dialogue _ => dialogue.plain_write.mono (by decide)
  exact Fields.bounded_write ⟨Format.bounded_text _,
    Format.bounded_natural _ (Number.plain_natural inRange.1), Format.bounded_names .., characters,
    (Backdrop.plain_write _).mono (by decide), (Music.plain_write _).mono (by decide), dialogue,
    Format.bounded_option fun offset given =>
      Format.bounded_natural _ (Number.plain_natural (inRange.2 offset given)), trivial⟩

theorem ofBytes?_chars (layout : Layout) {save : SavePoint} (inRange : save.InRange) :
    ofBytes? (Text.encode (String.ofList ((format.write save).chars layout 0))) = .ok save := by
  have read : format.ofText? (String.ofList ((format.write save).chars layout 0)) = .ok save :=
    whole_chars (rereads inRange (Nat.le_trans (plain_write inRange).1 (by decide)) (Nat.le_succ _))
  simp only [ofBytes?, Text.decode_encode, read]

theorem inRange_of_ofBytes? {bytes : List UInt8} {save : SavePoint}
    (read : ofBytes? bytes = .ok save) : save.InRange := by
  unfold ofBytes? at read
  split at read
  · cases read
  split at read
  · cases read
  next text _ _ taken =>
  cases read
  obtain ⟨rest, taken, -⟩ := whole_eq_ok_iff.mp taken
  obtain ⟨values, rfl, each⟩ := Format.record_readable ⟨_, _, _, _, taken⟩
  obtain ⟨fingerprint, pc, phase, characters, background, audio, dialogue, choiceAt, ⟨⟩⟩ := values
  obtain ⟨-, pcRead, -, -, -, -, -, choiceRead, -⟩ := each
  refine ⟨?_, fun offset given => ?_⟩
  · rcases pcRead with absent | readable
    · cases absent
    · exact Format.natural_readable readable
  · cases given
    rcases choiceRead with absent | readable
    · cases absent
    · exact Format.natural_readable (Format.option_readable readable)

theorem saved_lossless :
    (∀ save : SavePoint, save.InRange → ofBytes? save.bytes = .ok save) ∧
      ∀ bytes save, ofBytes? bytes = .ok save → ofBytes? save.bytes = .ok save :=
  ⟨fun _ inRange => ofBytes?_chars .indented inRange,
    fun _ _ read => ofBytes?_chars .indented (inRange_of_ofBytes? read)⟩

def crowded : SavePoint where
  fingerprint := "\x00\"\\ é"
  pc := 2 ^ 64 - 1
  phase := .running
  scene := ⟨.ofList [("hana\n", ⟨true, some "smile", .right⟩), ("", ⟨false, none, .left⟩)],
    ⟨true, some "café"⟩, ⟨none, true, .paused⟩, some ⟨none, "\t\x7f"⟩⟩
  choiceAt := some 0

theorem crowded_lossless :
    crowded.InRange ∧ ofBytes? crowded.bytes = .ok crowded ∧
      ofBytes? (Text.encode (format.write crowded).compact) = .ok crowded ∧
      ofBytes? crowded.bytes = .ok crowded := by
  have inRange : crowded.InRange := ⟨by decide, by simp [crowded]⟩
  have loaded := ofBytes?_chars .compact inRange
  exact ⟨inRange, saved_lossless.1 crowded inRange, loaded, saved_lossless.2 _ crowded loaded⟩

end SavePoint

end VisualNovel
