import Emend.Message.Grammar

/-!
# Reading one file block

`readBlock` turns the body of a block into an instruction: the first operation in order of precedence
that the body asks for anywhere. `extraOperations` lists the operations that the body still asks for
when the text of that one is cut out.
-/

namespace Emend.Message

/-- Why a block holds no instruction. -/
inductive BlockError where
  | noOperation
  | emptyAnchor
  | emptyEndAnchor
  deriving DecidableEq, Repr

/-- The error in words. -/
def BlockError.message : BlockError → String
  | noOperation => "no recognized operation"
  | emptyAnchor => "empty anchor"
  | emptyEndAnchor => "empty end anchor"

/-- The text without the line end that separates it from its closing tag. -/
def dropClosingLineEnd (t : Text) : Text :=
  match t.reverse with
  | '\n' :: '\r' :: r => r.reverse
  | '\n' :: r => r.reverse
  | _ => t

/-- The content as the operation keeps it: a new file loses all blanks at its end, other content only
the line end before its closing tag. -/
def cleanContent (op : Operation) (t : Text) : Text :=
  if op = .create then Text.stripEnd t else dropClosingLineEnd t

/-- The anchor trimmed, which must leave something. -/
def cleanAnchor (ifEmpty : BlockError) : Option Text → Except BlockError (Option Text)
  | none => .ok none
  | some t => match Text.strip t with
    | [] => .error ifEmpty
    | a => .ok (some a)

/-- The operation that the body asks for, and where. -/
def firstOperation (body : Text) : Option (Operation × Found) :=
  precedence.findSome? fun op => ((pattern op).search body).map (op, ·)

/-- The operations that the body asks for besides the first. -/
def extraOperations (body : Text) : List Operation :=
  match firstOperation body with
  | none => []
  | some (_, f) =>
    precedence.filter fun op => ((pattern op).search (f.before ++ f.after)).isSome

/-- The instruction in the body of a block for the file at `path`. -/
def readBlock (path body : Text) : Except BlockError Instruction :=
  match firstOperation body with
  | none => .error .noOperation
  | some (op, f) => do
    let anchor ← cleanAnchor .emptyAnchor f.captures.anchor
    let anchorEnd ← cleanAnchor .emptyEndAnchor f.captures.anchorEnd
    return { path := path, operation := op, content := f.captures.content.map (cleanContent op),
             anchor := anchor, anchorEnd := anchorEnd }

end Emend.Message
