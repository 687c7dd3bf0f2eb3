import Emend.Edit.Operation
import Emend.Text.Blank
import Emend.Text.Search

/-!
# Anchors

An anchor marks a place in a text. `locate` looks for it in one of three modes and reports the first
hit and the number of hits; it never chooses between hits. `locateByPolicy` searches exactly, and in
the looser mode of the policy only when there is no exact hit at all.
-/

namespace Emend

open Text (Span)

/-- What a search found. Offsets count from the start of the text that was searched. -/
structure Match where
  start : Nat
  stop : Nat
  /-- How many hits there are. -/
  occurrences : Nat
  /-- The matched text is the anchor itself. -/
  isExact : Bool
  mode : SearchMode
  deriving DecidableEq, Repr

/-- There is one hit only. -/
def Match.isUnique (m : Match) : Bool := m.occurrences == 1

namespace Anchor

/-- The lines of an anchor that are not blank, trimmed. -/
def trimmedLines (anchor : Text) : List Text :=
  ((Text.lines anchor).map Text.strip).filter (!·.isEmpty)

/-- The blocks of whole lines that equal `wanted` after trimming. `pos` is the offset of the first
line; blocks may overlap. -/
def blockHits (wanted : List Text) (pos : Nat) : List Text → List Span
  | [] => []
  | l :: ls =>
    let rest := blockHits wanted (pos + l.length + 1) ls
    let block := (l :: ls).take wanted.length
    if block.map Text.strip = wanted then
      ⟨pos, pos + (block.map (·.length + 1)).sum - 1⟩ :: rest
    else rest

/-- What follows the words at the front of the text, where a blank run stands between each two. -/
def afterWords? : List Text → Text → Option Text
  | [], t => some t
  | [w], t => Text.after? w t
  | w :: ws, t => do
    let rest ← Text.after? w t
    if (rest.head?.map Text.isBlank).getD false then afterWords? ws (Text.stripStart rest) else none

/-- Where the anchor occurs, in the given mode. -/
def hits (mode : SearchMode) (haystack anchor : Text) : List Span :=
  match mode with
  | .exact => Text.hits (Text.after? anchor) haystack
  | .normalized =>
    match trimmedLines anchor with
    | [] => []
    | wanted => blockHits wanted 0 (Text.lines haystack)
  | .whitespace =>
    match Text.tokens anchor with
    | [] => []
    | words => Text.hits (afterWords? words) haystack

/-- The matched text is the anchor itself. A block of lines never counts as exact. -/
def isExact (mode : SearchMode) (haystack anchor : Text) (s : Span) : Bool :=
  match mode with
  | .exact => true
  | .normalized => false
  | .whitespace => s.slice haystack = anchor

end Anchor

/-- The first hit of the anchor and the number of hits. An empty anchor or text has none. -/
def locate (haystack anchor : Text) (mode : SearchMode) : Option Match :=
  if anchor.isEmpty || haystack.isEmpty then none
  else match Anchor.hits mode haystack anchor with
    | [] => none
    | s :: rest =>
      some ⟨s.start, s.stop, rest.length + 1, Anchor.isExact mode haystack anchor s, mode⟩

/-- The exact hits, or those of the policy's fallback when there is no exact one. -/
def locateByPolicy (haystack anchor : Text) (policy : AnchorPolicy) : Option Match :=
  match locate haystack anchor .exact with
  | some m => some m
  | none => policy.fallback.bind (locate haystack anchor)

end Emend
