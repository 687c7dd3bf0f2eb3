import Emend.Text.Utf8

/-!
# SHA-1

The 160-bit digest of a byte sequence: the bytes are padded to whole blocks of sixteen words, and each
block drives eighty rounds over a state of five words. The words of the rounds beyond the sixteenth
come from a window over the last sixteen.
-/

namespace Emend.Digest

/-- The state between blocks, and the digest in the end. -/
structure State where
  a : UInt32
  b : UInt32
  c : UInt32
  d : UInt32
  e : UInt32
  deriving DecidableEq, Repr

/-- The state before the first block. -/
def State.start : State := ⟨0x67452301, 0xEFCDAB89, 0x98BADCFE, 0x10325476, 0xC3D2E1F0⟩

/-- The word-wise sum of two states. -/
def State.add (s t : State) : State := ⟨s.a + t.a, s.b + t.b, s.c + t.c, s.d + t.d, s.e + t.e⟩

/-- Turns the bits of a word to the left. -/
def rotate (n x : UInt32) : UInt32 := (x <<< n) ||| (x >>> (32 - n))

/-- The function and the constant of a round. -/
def roundMix (round : Nat) (b c d : UInt32) : UInt32 × UInt32 :=
  if round < 20 then ((b &&& c) ||| (~~~b &&& d), 0x5A827999)
  else if round < 40 then (b ^^^ c ^^^ d, 0x6ED9EBA1)
  else if round < 60 then ((b &&& c) ||| (b &&& d) ||| (c &&& d), 0x8F1BBCDC)
  else (b ^^^ c ^^^ d, 0xCA62C1D6)

/-- The state after a round with the word `w`. -/
def State.step (s : State) (round : Nat) (w : UInt32) : State :=
  let (f, k) := roundMix round s.b s.c s.d
  ⟨rotate 5 s.a + f + s.e + k + w, s.a, rotate 30 s.b, s.c, s.d⟩

/-- The word that enters the window of the last sixteen words. -/
def nextWord (window : List UInt32) : UInt32 :=
  rotate 1 (window.getD 13 0 ^^^ window.getD 8 0 ^^^ window.getD 2 0 ^^^ window.getD 0 0)

/-- Runs the rounds from `round` on, `left` of them. -/
def rounds : (left round : Nat) → (window : List UInt32) → State → State
  | 0, _, _, s => s
  | left + 1, round, window, s =>
    rounds left (round + 1) (window.tail ++ [nextWord window]) (s.step round (window.headD 0))

/-- The bytes as words, the most significant byte first. -/
def words : Bytes → List UInt32
  | a :: b :: c :: d :: bs =>
    ((a.toUInt32 <<< 24) ||| (b.toUInt32 <<< 16) ||| (c.toUInt32 <<< 8) ||| d.toUInt32) :: words bs
  | _ => []

/-- The lowest `count` bytes of a number, the most significant first. -/
def bigEndian : (count n : Nat) → Bytes
  | 0, _ => []
  | count + 1, n => (n / Nat.pow 256 count % 256).toUInt8 :: bigEndian count n

/-- The bytes filled up to whole blocks: a one bit, zeros, and the length in bits. -/
def pad (bs : Bytes) : Bytes :=
  let zeros := (119 - bs.length % 64) % 64
  bs ++ 0x80 :: List.replicate zeros 0 ++ bigEndian 8 (bs.length * 8)

/-- The state after `count` blocks of words. -/
def blocks : (count : Nat) → List UInt32 → State → State
  | 0, _, s => s
  | count + 1, ws, s => blocks count (ws.drop 16) (s.add (rounds 80 0 (ws.take 16) s))

/-- The digest of a byte sequence. -/
def sha1 (bs : Bytes) : State :=
  let padded := pad bs
  blocks (padded.length / 64) (words padded) .start

/-- The bytes of a digest. -/
def State.bytes (s : State) : Bytes :=
  [s.a, s.b, s.c, s.d, s.e].flatMap fun w => bigEndian 4 w.toNat

/-- The digest in hexadecimal digits. -/
def State.hex (s : State) : Text := s.bytes.flatMap fun b => Text.hex 2 b.toNat

/-- The identifier of a stored object: the digest of its kind, its length and its bytes. -/
def objectId (kind : String) (bs : Bytes) : State :=
  sha1 (Utf8.encode (kind.toList ++ ' ' :: Text.ofNat bs.length ++ ['\x00']) ++ bs)

/-- The identifier of a file's content. -/
def blobId (bs : Bytes) : Text := (objectId "blob" bs).hex

end Emend.Digest
