import Emend.Data.Real
import Emend.Yaml.Cursor

/-!
# YAML texts as they are loaded

A file is loaded in portions of 4096 characters, the first two at once and each other one when the reader
gets to it. A portion is refused when its bytes are no text, or when one of its characters may not stand in
YAML. `Stream.fault?` is the refusal of the first such portion, at the place where it begins: what is wrong
with the text before that place counts before.

The bytes are decoded in blocks. A block is long enough for what the portion at hand still lacks, judged by
how many bytes a character of the last block took.
-/

namespace Emend.Yaml

/-- The text of a file up to the bytes that spell none, and the refusal of these. -/
structure Stream where
  text : Text
  refusal : Option Utf8.DecodeError := none

namespace Stream

/-- The number of characters in a portion. -/
def portion : Nat := 4096

/-- Where the portion begins that is loaded for the character at `index`. -/
def portionStart (index : Nat) : Nat := if index < 2 * portion then 0 else index / portion * portion

/-- The number of bytes in the next block, which is never a small one. -/
def blockSize (p : Utf8.Progress) : Nat :=
  let lacking := portion - p.count % portion
  let bytesPerCharacter := Real.ofRatio p.lastBytes p.lastCount
  match if p.lastCount = 0 then none else (bytesPerCharacter.scale lacking).fraction? with
  | some (num, den) => max Utf8.blockSize (num / den).toNat
  | none => Utf8.blockSize

/-- The stream that bytes are. -/
def ofBytes (bs : Bytes) : Stream :=
  let (text, refusal) := Utf8.decodeStream blockSize bs
  { text, refusal }

/-- Why the portion with the bytes that spell no text cannot be loaded. -/
def refused? (s : Stream) : Option Fault := s.refusal.map fun e => ⟨.notText e, portionStart s.text.length⟩

/-- Why the portion with the first character that is not allowed cannot be loaded. -/
def unallowed? (s : Stream) : Option Fault :=
  (s.text.findIdx? (!isAllowed ·)).map fun i =>
    ⟨.malformed "special characters are not allowed", portionStart i⟩

/-- Why the first portion that cannot be loaded cannot. Its bytes are looked at before its characters. -/
def fault? (s : Stream) : Option Fault :=
  match s.refused?, s.unallowed? with
  | some r, some u => if u.index < r.index then some u else some r
  | r, u => r.or u

end Stream

end Emend.Yaml
