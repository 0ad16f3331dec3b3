import VisualNovel.Text.Utf8

/-!
MD5 fingerprints. The message is padded to blocks of 64 bytes that end with its length
in bits; each block is mixed into four words of 32 bits in 64 steps.
-/

namespace VisualNovel.Fingerprint

/-- The whole part of `2 ^ 32 * |sin (i + 1)|` for the step `i`. -/
def sines : Array UInt32 := #[
  0xd76aa478, 0xe8c7b756, 0x242070db, 0xc1bdceee, 0xf57c0faf, 0x4787c62a,
  0xa8304613, 0xfd469501, 0x698098d8, 0x8b44f7af, 0xffff5bb1, 0x895cd7be,
  0x6b901122, 0xfd987193, 0xa679438e, 0x49b40821, 0xf61e2562, 0xc040b340,
  0x265e5a51, 0xe9b6c7aa, 0xd62f105d, 0x02441453, 0xd8a1e681, 0xe7d3fbc8,
  0x21e1cde6, 0xc33707d6, 0xf4d50d87, 0x455a14ed, 0xa9e3e905, 0xfcefa3f8,
  0x676f02d9, 0x8d2a4c8a, 0xfffa3942, 0x8771f681, 0x6d9d6122, 0xfde5380c,
  0xa4beea44, 0x4bdecfa9, 0xf6bb4b60, 0xbebfbc70, 0x289b7ec6, 0xeaa127fa,
  0xd4ef3085, 0x04881d05, 0xd9d4d039, 0xe6db99e5, 0x1fa27cf8, 0xc4ac5665,
  0xf4292244, 0x432aff97, 0xab9423a7, 0xfc93a039, 0x655b59c3, 0x8f0ccc92,
  0xffeff47d, 0x85845dd1, 0x6fa87e4f, 0xfe2ce6e0, 0xa3014314, 0x4e0811a1,
  0xf7537e82, 0xbd3af235, 0x2ad7d2bb, 0xeb86d391]

/-- The rotation of a step; each round of 16 steps goes through four of them. -/
def rotations : Array UInt32 := #[7, 12, 17, 22, 5, 9, 14, 20, 4, 11, 16, 23, 6, 10, 15, 21]

structure State where
  a : UInt32
  b : UInt32
  c : UInt32
  d : UInt32
  deriving DecidableEq

def start : State := ⟨0x67452301, 0xefcdab89, 0x98badcfe, 0x10325476⟩

def rotateLeft (word amount : UInt32) : UInt32 :=
  (word <<< amount) ||| (word >>> (32 - amount))

def mixing (state : State) (index : Nat) : UInt32 × Nat :=
  let ⟨_, b, c, d⟩ := state
  if index < 16 then ((b &&& c) ||| (~~~b &&& d), index)
  else if index < 32 then ((d &&& b) ||| (~~~d &&& c), (5 * index + 1) % 16)
  else if index < 48 then (b ^^^ c ^^^ d, (3 * index + 5) % 16)
  else (c ^^^ (b ||| ~~~d), (7 * index) % 16)

def step (block : Array UInt32) (state : State) (index : Nat) : State :=
  let (mixed, word) := mixing state index
  let sum := state.a + mixed + sines.getD index 0 + block.getD word 0
  let rotation := rotations.getD (index / 16 * 4 + index % 4) 0
  ⟨state.d, state.b + rotateLeft sum rotation, state.b, state.c⟩

def mixBlock (state : State) (block : Array UInt32) : State :=
  let mixed := (List.range 64).foldl (step block) state
  ⟨state.a + mixed.a, state.b + mixed.b, state.c + mixed.c, state.d + mixed.d⟩

def littleEndian : (count : Nat) → Nat → List UInt8
  | 0, _ => []
  | count + 1, value => UInt8.ofNat value :: littleEndian count (value / 256)

def padding (length : Nat) : List UInt8 :=
  0x80 :: List.replicate ((119 - length % 64) % 64) 0 ++ littleEndian 8 (8 * length)

def words : List UInt8 → List UInt32
  | first :: second :: third :: fourth :: rest =>
      (first.toUInt32 ||| second.toUInt32 <<< 8 ||| third.toUInt32 <<< 16
        ||| fourth.toUInt32 <<< 24) :: words rest
  | _ => []

def mixWords (state : State) (block : Array UInt32) : List UInt32 → State
  | [] => state
  | word :: rest =>
      let block := block.push word
      if block.size = 16 then mixWords (mixBlock state block) #[] rest
      else mixWords state block rest

def md5 (message : List UInt8) : List UInt8 :=
  let state := mixWords start #[] (words (message ++ padding message.length))
  [state.a, state.b, state.c, state.d].flatMap fun word => littleEndian 4 word.toNat

def hexByte (byte : UInt8) : List Char :=
  [Nat.digitChar (byte.toNat / 16), Nat.digitChar (byte.toNat % 16)]

def ofText (text : String) : String :=
  String.ofList ((md5 (Text.encode text)).flatMap hexByte)

end VisualNovel.Fingerprint
