namespace VisualNovel.Text

/-- The first broken character starts at `offset`. Either its first `length` bytes cannot go on,
or the bytes end inside it. -/
inductive EncodingFault where
  | invalid (length offset : Nat)
  | incomplete (offset : Nat)
  deriving DecidableEq

def EncodingFault.message : EncodingFault → String
  | invalid length offset =>
      "invalid utf-8 sequence of " ++ toString length ++ " bytes from index " ++ toString offset
  | incomplete offset => "incomplete utf-8 byte sequence from index " ++ toString offset

/-- How many bytes follow the first byte of a character, and the bounds of the second one, so that
no character is longer than it need be, a surrogate or too large. -/
def following? (first : UInt8) : Option (Nat × UInt8 × UInt8) :=
  if first < 0x80 then some (0, 0, 0)
  else if 0xc2 ≤ first ∧ first ≤ 0xdf then some (1, 0x80, 0xbf)
  else if first = 0xe0 then some (2, 0xa0, 0xbf)
  else if first = 0xed then some (2, 0x80, 0x9f)
  else if 0xe1 ≤ first ∧ first ≤ 0xef then some (2, 0x80, 0xbf)
  else if first = 0xf0 then some (3, 0x90, 0xbf)
  else if 0xf1 ≤ first ∧ first ≤ 0xf3 then some (3, 0x80, 0xbf)
  else if first = 0xf4 then some (3, 0x80, 0x8f)
  else none

/-- Looks for the first broken character. Of the character at `offset`, `taken` bytes are read and
`wanted` are still to come, the next one between `low` and `high`. -/
def locate (offset taken wanted : Nat) (low high : UInt8) : List UInt8 → EncodingFault
  | [] => .incomplete offset
  | byte :: rest =>
      match wanted with
      | 0 =>
          match following? byte with
          | some (wanted, low, high) => locate (offset + taken) 1 wanted low high rest
          | none => .invalid 1 (offset + taken)
      | wanted + 1 =>
          if low ≤ byte ∧ byte ≤ high then locate offset (taken + 1) wanted 0x80 0xbf rest
          else .invalid taken offset

def encode (text : String) : List UInt8 :=
  text.toUTF8.data.toList

def decode (bytes : List UInt8) : Except EncodingFault String :=
  match String.fromUTF8? ⟨bytes.toArray⟩ with
  | some text => .ok text
  | none => .error (locate 0 0 0 0 0 bytes)

theorem decode_encode (text : String) : decode (encode text) = .ok text := by
  have bytes : (⟨(encode text).toArray⟩ : ByteArray) = text.toByteArray := by simp [encode]
  simp [decode, bytes, String.fromUTF8?, text.isValidUTF8, String.fromUTF8]

end VisualNovel.Text
