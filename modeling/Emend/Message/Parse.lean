import Emend.Message.Block
import Emend.Text.Digits

/-!
# Messages

A message is a sequence of file blocks. A block starts with a marker, which is the file tag at the
start of a line with the path of the file behind it, and runs to the next marker. Text before the
first marker is ignored.

`parse` reads a message block by block. Each block gives an instruction or an error, and an
instruction may come with an error about further operations that were ignored.
-/

namespace Emend.Message

/-- The name of the tag that marks a file block. -/
structure FileTag where
  name : Text
  deriving DecidableEq, Repr

/-- The tag that is used when no other is configured. -/
def FileTag.standard : FileTag := ⟨"FILE".toList⟩

/-- The tag named by a text, without the blanks around it; a blank text names none. -/
def FileTag.ofText? (t : Text) : Option FileTag :=
  match Text.strip t with
  | [] => none
  | name => some ⟨name⟩

/-- What a parse error is about. -/
inductive Context where
  /-- The message as a whole. -/
  | message
  /-- The block of that number, counted from 1. -/
  | block (number : Nat)
  /-- The block for the file at that path. -/
  | file (path : Text)
  deriving DecidableEq, Repr

/-- The context in words. -/
def Context.text : Context → Text
  | message => "<message>".toList
  | block n => "<block ".toList ++ Text.ofNat n ++ ['>']
  | file path => path

/-- Something in a message that could not be used. -/
structure ParseError where
  context : Context
  message : Text
  deriving DecidableEq, Repr

/-- The error on one line. -/
def ParseError.text (e : ParseError) : Text := e.context.text ++ ": ".toList ++ e.message

/-- What a message asks for, and what in it could not be used. -/
structure Outcome where
  instructions : List Instruction := []
  errors : List ParseError := []
  deriving DecidableEq, Repr

/-- All of the message could be used. -/
def Outcome.isOk (o : Outcome) : Bool := o.errors.isEmpty

/-- One outcome after the other. -/
def Outcome.append (a b : Outcome) : Outcome :=
  ⟨a.instructions ++ b.instructions, a.errors ++ b.errors⟩

instance : Append Outcome := ⟨Outcome.append⟩

/-- A file block: the path on its marker's line as it stands there, and the text up to the next
marker. -/
structure Block where
  path : Text
  body : Text
  deriving DecidableEq, Repr

/-- The characters a path on a marker's line can have. -/
def isPathChar (c : Char) : Bool := c != '\n' && c != '['

/-- Reads a marker at the front of a line: the path on it and what follows. -/
def marker? (tag : FileTag) (line : Text) : Option (Text × Text) := do
  let rest ← Text.afterCaseless? ('[' :: tag.name ++ [']']) (skipInlineBlanks line)
  let rest := skipInlineBlanks rest
  return (rest.takeWhile isPathChar, rest.dropWhile isPathChar)

/-- Splits a text into what precedes the first marker and the blocks from there on. `lineStart` tells
whether the text begins at the start of a line; its first `skip` characters belong to a marker and
are left out. -/
def splitBlocks (tag : FileTag) : (lineStart : Bool) → (skip : Nat) → Text → Text × List Block
  | _, _, [] => ([], [])
  | _, skip + 1, c :: t => splitBlocks tag (c = '\n') skip t
  | lineStart, 0, c :: t =>
    match if lineStart then marker? tag (c :: t) else none with
    | some (path, rest) =>
      let (body, blocks) := splitBlocks tag (c = '\n') (t.length - rest.length) t
      ([], ⟨path, body⟩ :: blocks)
    | none =>
      let (body, blocks) := splitBlocks tag (c = '\n') 0 t
      (c :: body, blocks)

/-- The file blocks of a message. -/
def blocks (tag : FileTag) (message : Text) : List Block := (splitBlocks tag true 0 message).2

/-- The error about operations that a block asks for in vain. -/
def ignoredOperations (path : Text) : List Operation → List ParseError
  | [] => []
  | ops =>
    [⟨.file path, "ignored extra operation(s): ".toList ++
      Text.joinWith ", ".toList (ops.map (·.name.toList))⟩]

/-- What the block of that number gives. -/
def Block.outcome (number : Nat) (b : Block) : Outcome :=
  match Text.strip b.path with
  | [] => ⟨[], [⟨.block number, "empty file path".toList⟩]⟩
  | path => match readBlock path b.body with
    | .error e => ⟨[], [⟨.file path, e.message.toList⟩]⟩
    | .ok i => ⟨[i], ignoredOperations path (extraOperations b.body)⟩

/-- What blocks give, the first of which has that number. -/
def outcomeFrom (number : Nat) : List Block → Outcome
  | [] => {}
  | b :: bs => b.outcome number ++ outcomeFrom (number + 1) bs

/-- What a message asks for. -/
def parse (tag : FileTag) (message : Text) : Outcome :=
  match blocks tag message with
  | [] => ⟨[], [⟨.message, "no [".toList ++ tag.name ++ "] marker found".toList⟩]⟩
  | bs => outcomeFrom 1 bs

end Emend.Message
