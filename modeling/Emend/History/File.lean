import Emend.History.Entry

/-!
# The history file

The history is a file with one entry a line, the newest last; blank lines mean nothing. `append` adds
an entry and, when there are more than a limit, keeps the newest ones only. `load` lists
the entries, the newest first, and `clear` removes the file.
-/

namespace Emend

namespace History

open Host (alter examine isThere makeDirs place supplied)

/-! ## Reading entries -/

/-- The lines of a file, and whether they end where the file does. -/
structure Lines where
  lines : List Text
  refusal : Option Utf8.DecodeError

/-- The lines that bytes spell. Where the bytes stop being text, the line at hand is not complete. -/
def linesOf (bs : Bytes) : Lines :=
  match Utf8.decodeStream (fun _ => Utf8.blockSize) bs with
  | (t, none) => ⟨Text.lines t, none⟩
  | (t, some e) => ⟨(Text.lines t).dropLast, some e⟩

/-- The failure to read the line of that number. -/
def corrupt (l : Location) (number : Nat) (errors : Option (List FieldError)) : Failure :=
  .unacceptable ("Corrupt history entry at ".toList ++ l.shown ++ ':' :: Text.ofNat number) errors

/-- The failure to read the line of that number as JSON. -/
def unread (l : Location) (number : Nat) : Json.Error → Failure
  | .malformed => corrupt l number none
  | .tooManyDigits count => .unacceptable (Text.tooManyDigits count) none
  | .tooDeep isList => .tooDeep isList

/-- Reads lines, the first of which has that number. -/
def readLines (l : Location) (number : Nat) : List Text → Supply → Except Failure (List Entry) × Supply
  | [], s => (.ok [], s)
  | t :: ts, s =>
    if Text.allBlank t then readLines l (number + 1) ts s
    else match Json.read t with
      | .error e => (.error (unread l number e), s)
      | .ok v =>
        match Entry.check v s with
        | (.invalid es, s) => (.error (corrupt l number (some es)), s)
        | (.valid e, s) =>
          let (rest, s) := readLines l (number + 1) ts s
          (rest.map (e :: ·), s)

/-- Reads all entries of a history file. -/
def readEntries (l : Location) : Act Host (List Entry) := do
  let bs ← examine (·.readFile l)
  let found := linesOf bs
  let entries ← supplied (readLines l 1 found.lines)
  match found.refusal with
  | some e => Act.fail (.notText e)
  | none => return entries

/-! ## Operations -/

/-- The last `limit` entries; a limit that is not positive keeps all. -/
def newest (limit : Int) (es : List Entry) : List Entry :=
  if 0 < limit then es.drop (es.length - limit.toNat) else es

/-- Adds an entry to a history file and keeps the newest entries only. Answers the file's name. -/
def append (path : Text) (e : Entry) (limit : Int) : Act Host Text := do
  let l ← place path
  Act.ofExcept l.parent.checkNames
  makeDirs l.parent
  Act.ofExcept l.checkNames
  alter (·.appendFile l (Utf8.encode e.line))
  let entries ← readEntries l
  let kept := newest limit entries
  if kept.length < entries.length then do
    alter (·.writeFile l (Utf8.encode (kept.flatMap Entry.line)))
    Act.note { channel := .session,
               text := "history trimmed to ".toList ++ Text.ofNat kept.length ++
                 " entries (dropped ".toList ++ Text.ofNat (entries.length - kept.length) ++ [')'] }
  return l.shown

/-- Adds the entry of a batch. -/
def recordBatch (b : Batch) (path repository : Text) (limit : Int) : Act Host Entry := do
  let e ← supplied fun s =>
    let (e, s) := Entry.ofBatch b repository s
    (.ok e, s)
  let _ ← append path e limit
  Act.note { channel := .session,
             text := "history entry ".toList ++ e.id ++ " recorded (".toList ++
               Text.ofNat e.changes.length ++ " file(s))".toList }
  return e

/-- Some entries have an offset and others have none. -/
def isMixed (es : List Entry) : Bool :=
  es.any (·.time.offset.isSome) && es.any (·.time.offset.isNone)

/-- The entries from the newest to the oldest; those of one time stay in their order. -/
def newestFirst (es : List Entry) : List Entry :=
  es.mergeSort fun a b => decide (b.time.instant ≤ a.time.instant)

/-- The entries of a history file, the newest first. Without a file there are none. -/
def load (path : Text) : Act Host (List Entry) := do
  let l ← place path
  if !(← isThere l) then return []
  else
    let entries ← readEntries l
    if isMixed entries then Act.fail .incomparableTimes else return newestFirst entries

/-- Removes a history file. Answers how many entries it had. -/
def clear (path : Text) : Act Host Nat := do
  let l ← place path
  if !(← isThere l) then return 0
  else
    let entries ← readEntries l
    alter (·.removeFile l)
    Act.note { channel := .session,
               text := "history cleared (".toList ++ Text.ofNat entries.length ++
                 " entries)".toList }
    return entries.length

end History

end Emend
