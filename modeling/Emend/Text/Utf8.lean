import Emend.Text.Digits

/-!
# UTF-8

Bytes and the texts they spell. `encode` writes a text in UTF-8. `decode` reads it back and refuses
everything else: overlong forms, surrogates, code points past U+10FFFF and truncated characters. A
refusal tells where the bad bytes stand, how many they are and what is wrong with them.

The reader is a machine that takes one byte at a time. `Pending` is a character of which some bytes
have been read; it names the range that the next byte has to lie in, and that range is what rules out
overlong forms and surrogates at the second byte.
-/

namespace Emend

/-- The content of a file. -/
abbrev Bytes := List UInt8

namespace Utf8

/-- The bytes of one character. -/
def encodeChar (c : Char) : Bytes :=
  let n := c.toNat
  if n < 0x80 then [n.toUInt8]
  else if n < 0x800 then [(0xC0 + n / 0x40).toUInt8, (0x80 + n % 0x40).toUInt8]
  else if n < 0x10000 then
    [(0xE0 + n / 0x1000).toUInt8, (0x80 + n / 0x40 % 0x40).toUInt8, (0x80 + n % 0x40).toUInt8]
  else
    [(0xF0 + n / 0x40000).toUInt8, (0x80 + n / 0x1000 % 0x40).toUInt8,
      (0x80 + n / 0x40 % 0x40).toUInt8, (0x80 + n % 0x40).toUInt8]

/-- The bytes of a text. -/
def encode (t : Text) : Bytes := t.flatMap encodeChar

/-- Why bytes are refused. -/
inductive Fault where
  /-- No character begins with this byte. -/
  | start
  /-- The character cannot go on with the byte that follows. -/
  | continuation
  /-- The bytes end inside a character. -/
  | truncated
  deriving DecidableEq, Repr

/-- The bad bytes: the first of them, its position, and how many they are. -/
structure DecodeError where
  fault : Fault
  byte : UInt8
  position : Nat
  length : Nat
  deriving DecidableEq, Repr

/-- A character of which some bytes have been read. -/
structure Pending where
  /-- The first byte. -/
  lead : UInt8
  /-- How many bytes have been read. -/
  seen : Nat
  /-- How many are still owed. -/
  owed : Nat
  /-- The code point so far. -/
  code : Nat
  /-- The least value of the next byte. -/
  low : Nat
  /-- The greatest value of the next byte. -/
  high : Nat

/-- The machine's state after the first byte of a longer character. -/
def Pending.ofLead? (b : UInt8) : Option Pending :=
  let n := b.toNat
  if 0xC2 ≤ n ∧ n ≤ 0xDF then some ⟨b, 1, 1, n - 0xC0, 0x80, 0xBF⟩
  else if n = 0xE0 then some ⟨b, 1, 2, 0, 0xA0, 0xBF⟩
  else if n = 0xED then some ⟨b, 1, 2, 0xD, 0x80, 0x9F⟩
  else if 0xE1 ≤ n ∧ n ≤ 0xEF then some ⟨b, 1, 2, n - 0xE0, 0x80, 0xBF⟩
  else if n = 0xF0 then some ⟨b, 1, 3, 0, 0x90, 0xBF⟩
  else if 0xF1 ≤ n ∧ n ≤ 0xF3 then some ⟨b, 1, 3, n - 0xF0, 0x80, 0xBF⟩
  else if n = 0xF4 then some ⟨b, 1, 3, 4, 0x80, 0x8F⟩
  else none

/-- Reads bytes from position `pos` on, in the middle of the character `pending` if there is one.
Answers the characters read, the character that the bytes end in, and the first refusal. -/
def scan (pos : Nat) : Option Pending → Bytes → Text × Option Pending × Option DecodeError
  | p, [] => ([], p, none)
  | none, b :: bs =>
    if b.toNat < 0x80 then
      let (t, r) := scan (pos + 1) none bs
      (Char.ofNat b.toNat :: t, r)
    else match Pending.ofLead? b with
      | none => ([], none, some ⟨.start, b, pos, 1⟩)
      | some p => scan (pos + 1) (some p) bs
  | some p, b :: bs =>
    if p.low ≤ b.toNat ∧ b.toNat ≤ p.high then
      let code := p.code * 0x40 + (b.toNat - 0x80)
      if p.owed ≤ 1 then
        let (t, r) := scan (pos + 1) none bs
        (Char.ofNat code :: t, r)
      else scan (pos + 1) (some ⟨p.lead, p.seen + 1, p.owed - 1, code, 0x80, 0xBF⟩) bs
    else ([], none, some ⟨.continuation, p.lead, pos - p.seen, p.seen⟩)

/-- The refusal of bytes that end at position `pos` inside the character `p`. -/
def Pending.truncation (p : Pending) (pos : Nat) : DecodeError :=
  ⟨.truncated, p.lead, pos - p.seen, p.seen⟩

/-- The text that the bytes spell. -/
def decode (bs : Bytes) : Except DecodeError Text :=
  match scan 0 none bs with
  | (_, _, some e) => .error e
  | (_, some p, none) => .error (p.truncation bs.length)
  | (t, none, none) => .ok t

/-- The refusal concerns the beginning of a surrogate, of which a block that ends at position `stop` with
the byte `last` holds two bytes. Such a beginning is refused with the next block. -/
def DecodeError.isLate (e : DecodeError) (stop : Nat) (last : Option UInt8) : Bool :=
  e.fault = .continuation && e.byte = 0xED && e.position + 2 = stop &&
    last.any fun b => 0xA0 ≤ b.toNat && b.toNat ≤ 0xBF

/-- Reads a block behind the character `p` that the previous block ended in: its text, and the character it
ends in or a refusal that comes with the next block. Positions count from the start of the block, or from
the character that the previous block ended in. -/
def decodeBlock (p : Option Pending) (block : Bytes) :
    Except DecodeError (Text × Except DecodeError (Option Pending)) :=
  let held := (p.map (·.seen)).getD 0
  match scan held p block with
  | (t, q, none) => .ok (t, .ok q)
  | (t, _, some e) =>
    if e.isLate (held + block.length) block.getLast? then .ok (t, .error { e with position := 0 })
    else .error e

/-- How far a stream has been read. -/
structure Progress where
  /-- The characters so far. -/
  count : Nat := 0
  /-- A carriage return ends what was read; it counts only when it is known what follows. -/
  holdsReturn : Bool := false
  /-- The bytes of the last block. -/
  lastBytes : Nat := 0
  /-- The characters that the last block added. -/
  lastCount : Nat := 0

/-- The progress behind one more block of so many bytes. A line end counts once. -/
def Progress.add (p : Progress) (bytes : Nat) (t : Text) : Progress :=
  let t := if p.holdsReturn then '\r' :: t else t
  let holdsReturn := decide (t.getLast? = some '\r')
  let n := (Text.universalNewlines (if holdsReturn then t.dropLast else t)).length
  { count := p.count + n, holdsReturn, lastBytes := bytes, lastCount := n }

/-- Reads bytes in blocks whose size hangs on the progress, and answers the text before the first block
that is refused. A truncated last character stands at position 0. `fuel` bounds the number of blocks. -/
def decodeBlocks (size : Progress → Nat) :
    Nat → Progress → Except DecodeError (Option Pending) → Bytes → Text × Option DecodeError
  | 0, _, _, _ => ([], none)
  | _, _, .error e, _ => ([], some e)
  | fuel + 1, r, .ok p, bs =>
    if bs.isEmpty then ([], p.map fun q => q.truncation q.seen)
    else
      let block := bs.take (size r)
      match decodeBlock p block with
      | .error e => ([], some e)
      | .ok (t, q) =>
        let (rest, e) := decodeBlocks size fuel (r.add block.length t) q (bs.drop (size r))
        (t ++ rest, e)

/-- The number of bytes that a stream hands over at once, if no more are asked for. -/
def blockSize : Nat := 8192

/-- The text of a stream that is read block by block, with line feeds for all line ends, and the refusal
that ends it. A carriage return before the refused block is not handed over. -/
def decodeStream (size : Progress → Nat) (bs : Bytes) : Text × Option DecodeError :=
  match decodeBlocks size (bs.length + 2) {} (.ok none) bs with
  | (t, none) => (Text.universalNewlines t, none)
  | (t, some e) => (Text.universalNewlines (if t.getLast? = some '\r' then t.dropLast else t), some e)

/-- What is wrong, in words. -/
def Fault.message : Fault → String
  | .start => "invalid start byte"
  | .continuation => "invalid continuation byte"
  | .truncated => "unexpected end of data"

/-- The refusal in words. -/
def DecodeError.message (e : DecodeError) : Text :=
  let place :=
    if e.length = 1 then
      "byte 0x".toList ++ Text.hex 2 e.byte.toNat ++ " in position ".toList ++ Text.ofNat e.position
    else
      "bytes in position ".toList ++ Text.ofNat e.position ++ '-' ::
        Text.ofNat (e.position + e.length - 1)
  "'utf-8' codec can't decode ".toList ++ place ++ ": ".toList ++ e.fault.message.toList

end Utf8

end Emend
