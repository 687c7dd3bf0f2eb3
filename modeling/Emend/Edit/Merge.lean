import Emend.Edit.Anchor
import Emend.Text.Digits

/-!
# Applying instructions to a text

`Merger.apply` carries out one instruction on the text of a file, `Merger.applyAll` a list of them,
each on the result of the one before, up to the first that fails. Both are functions of the text: no
file is touched.

An edit at an anchor needs exactly one hit. The end anchor of a region is searched from the start of
the start anchor on, and the region runs to the end of the end anchor.
-/

namespace Emend

/-- Which anchor of an instruction is meant. -/
inductive AnchorRole where
  | only
  | start
  | stop
  deriving DecidableEq, Repr

/-- The anchor's name in messages. -/
def AnchorRole.label : AnchorRole → String
  | only => "anchor"
  | start => "start anchor"
  | stop => "end anchor"

/-- The kinds of merge errors. -/
inductive MergeErrorKind where
  | anchorNotFound
  | anchorAmbiguous
  | emptyBaseContent
  | unsupportedOperation
  deriving DecidableEq, Repr

namespace MergeErrorKind

/-- Every kind. -/
def all : List MergeErrorKind :=
  [anchorNotFound, anchorAmbiguous, emptyBaseContent, unsupportedOperation]

/-- The kind's name in messages and files. -/
def name : MergeErrorKind → String
  | anchorNotFound => "anchor_not_found"
  | anchorAmbiguous => "anchor_ambiguous"
  | emptyBaseContent => "empty_base_content"
  | unsupportedOperation => "unsupported_operation"

/-- The kind of that name. -/
def ofName? (t : Text) : Option MergeErrorKind := all.find? (·.name.toList = t)

/-- The anchor is what the instruction failed on. -/
def isAnchorFailure : MergeErrorKind → Bool
  | anchorNotFound | anchorAmbiguous => true
  | emptyBaseContent | unsupportedOperation => false

end MergeErrorKind

/-- Why an instruction could not be applied. -/
inductive MergeError where
  | anchorEmpty (role : AnchorRole)
  | anchorNotFound (role : AnchorRole)
  | anchorAmbiguous (role : AnchorRole) (occurrences : Nat)
  | emptyBase (path : Text)
  | unsupported (operation : Operation)
  deriving DecidableEq, Repr

namespace MergeError

/-- The kind of the error. -/
def kind : MergeError → MergeErrorKind
  | anchorEmpty _ | anchorNotFound _ => .anchorNotFound
  | anchorAmbiguous _ _ => .anchorAmbiguous
  | emptyBase _ => .emptyBaseContent
  | unsupported _ => .unsupportedOperation

/-- The number of hits of an ambiguous anchor. -/
def occurrences? : MergeError → Option Nat
  | anchorAmbiguous _ n => some n
  | _ => none

/-- The error in words. -/
def detail : MergeError → Text
  | anchorEmpty role => role.label.toList ++ " is empty".toList
  | anchorNotFound role => role.label.toList ++ " not found".toList
  | anchorAmbiguous role n =>
    role.label.toList ++ " is ambiguous (".toList ++ Text.ofNat n ++ " occurrences)".toList
  | emptyBase path => path ++ " has no existing content to edit".toList
  | unsupported op =>
    "unsupported operation <Operation.".toList ++ op.capitalName.toList ++ ": '".toList ++
      op.name.toList ++ "'>".toList

end MergeError

/-- What an instruction leaves of its file. -/
inductive Edited where
  | written (content : Text)
  | removed
  deriving DecidableEq, Repr

/-- The text of the file afterwards, if it is still there. -/
def Edited.content? : Edited → Option Text
  | written t => some t
  | removed => none

/-- The outcome of an instruction on one line: its operation and whether it went well. -/
def MergeError.summary (op : Operation) : Except MergeError Edited → Text
  | .ok _ => op.name.toList ++ ": ok".toList
  | .error e => op.name.toList ++ ": ".toList ++ e.detail

/-- How instructions are applied. -/
structure Merger where
  policy : AnchorPolicy := .exactThenNormalized
  /-- Operations that are refused. -/
  unsupported : List Operation := []

namespace Merger

/-- Searches in the instruction's own mode, or else by the policy. -/
def search (m : Merger) (i : Instruction) (text anchor : Text) : Option Match :=
  match i.mode with
  | some mode => locate text anchor mode
  | none => locateByPolicy text anchor m.policy

/-- The only hit of an anchor. -/
def locateUnique (m : Merger) (i : Instruction) (role : AnchorRole) (text : Text)
    (anchor : Option Text) : Except MergeError Match :=
  match anchor.getD [] with
  | [] => .error (.anchorEmpty role)
  | anchor =>
    match m.search i text anchor with
    | none => .error (.anchorNotFound role)
    | some hit =>
      if hit.occurrences = 1 then .ok hit else .error (.anchorAmbiguous role hit.occurrences)

/-- The region from the start anchor to the end of the end anchor, both included. -/
def region (m : Merger) (i : Instruction) (text : Text) : Except MergeError Text.Span := do
  let first ← m.locateUnique i .start text i.anchor
  let last ← m.locateUnique i .stop (text.drop first.start) i.anchorEnd
  return ⟨first.start, first.start + last.stop⟩

/-- The text with a region replaced. -/
def splice (text : Text) (s : Text.Span) (content : Text) : Text :=
  text.take s.start ++ content ++ text.drop s.stop

/-- The text ends here, or a line does. -/
def atLineEnd (rest : Text) : Bool := rest.head?.all (· = '\n')

/-- A line starts behind this text. -/
def atLineStart (before : Text) : Bool := before.getLast?.all (· = '\n')

/-- Content that follows an anchor: on a line of its own if the anchor ends its line. -/
def contentAfter (rest content : Text) : Text :=
  if atLineEnd rest && content.head? != some '\n' then '\n' :: content else content

/-- Content that precedes an anchor: on a line of its own if the anchor starts its line. -/
def contentBefore (before content : Text) : Text :=
  if atLineStart before && content.getLast? != some '\n' then content ++ ['\n'] else content

/-- Carries out an operation on the text of its file. -/
def perform (m : Merger) (i : Instruction) (text : Text) : Except MergeError Edited :=
  let content := i.content.getD []
  match i.operation with
  | .create | .replace => .ok (.written content)
  | .deleteFile => .ok .removed
  | .findReplace => do
    let s ← m.region i text
    return .written (splice text s content)
  | .deleteContent => do
    let s ← m.region i text
    return .written (splice text s [])
  | .insertAfter => do
    let hit ← m.locateUnique i .only text i.anchor
    let rest := text.drop hit.stop
    return .written (text.take hit.stop ++ contentAfter rest content ++ rest)
  | .insertBefore => do
    let hit ← m.locateUnique i .only text i.anchor
    let before := text.take hit.start
    return .written (before ++ contentBefore before content ++ text.drop hit.start)

/-- Applies one instruction to the text of its file, `none` if there is no such file. -/
def apply (m : Merger) (i : Instruction) (current : Option Text) : Except MergeError Edited :=
  let text := current.getD []
  if m.unsupported.contains i.operation then .error (.unsupported i.operation)
  else if i.operation.requiresAnchor && text.isEmpty then .error (.emptyBase i.path)
  else m.perform i text

end Merger

/-- An instruction that failed, and its place in the list. -/
structure FailedStep where
  index : Nat
  instruction : Instruction
  error : MergeError
  deriving DecidableEq, Repr

/-- What a list of instructions leaves of a file. After a failure, the state before it. -/
structure MergeResult where
  content : Option Text
  /-- The last instruction carried out deleted the file. -/
  deleted : Bool
  failure : Option FailedStep
  deriving DecidableEq, Repr

namespace Merger

/-- Applies the instructions in order, the first of which has number `index`. -/
def applyFrom (m : Merger) (index : Nat) (deleted : Bool) :
    List Instruction → Option Text → MergeResult
  | [], current => ⟨current, deleted, none⟩
  | i :: is, current =>
    match m.apply i current with
    | .error e => ⟨current, deleted, some ⟨index, i, e⟩⟩
    | .ok (.written t) => m.applyFrom (index + 1) false is (some t)
    | .ok .removed => m.applyFrom (index + 1) true is none

/-- Applies the instructions in order up to the first that fails. -/
def applyAll (m : Merger) (is : List Instruction) (current : Option Text) : MergeResult :=
  m.applyFrom 0 false is current

end Merger

end Emend
