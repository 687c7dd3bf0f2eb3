import Emend.Git.Object
import Emend.Text.Blank
import Emend.Text.Utf8

/-!
# References

A repository keeps files of its own, and a reference is one of them: it holds the identifier of an
object, or `ref:` and the name of another reference. The name of a reference is the path of its file from
the repository's directory. `dereference` follows references to an identifier.
-/

namespace Emend.Git

/-- The files that a repository keeps for itself, by the names that lead to them from its directory. -/
abbrev OwnFiles := List (Path × Bytes)

namespace OwnFiles

/-- The files with one of them replaced or added. -/
def put (fs : OwnFiles) (names : Path) (bs : Bytes) : OwnFiles :=
  if fs.any (·.1 = names) then fs.map fun (p, old) => (p, if p = names then bs else old)
  else fs ++ [(names, bs)]

/-- The files with a line added to one of them. -/
def addLine (fs : OwnFiles) (names : Path) (line : Text) : OwnFiles :=
  fs.put names ((fs.lookup names).getD [] ++ Utf8.encode (line ++ ['\n']))

end OwnFiles

/-- Why a name leads to no identifier. -/
inductive ReferenceFault where
  /-- No reference has the name. -/
  | missing (name : Text)
  /-- What is kept under the name is no reference, or no reference can have the name. -/
  | unreadable (name : Text)
  /-- Nothing is written in the file of that name. -/
  | blank
  deriving DecidableEq, Repr

/-- What a reference holds. -/
inductive Pointer where
  | object (id : ObjectId)
  | reference (name : Text)
  deriving DecidableEq, Repr

namespace Reference

/-- No name of a reference has the character in it. -/
def isForbidden (c : Char) : Bool :=
  " ~^:?*[\\".toList.contains c || c.toNat < 32 || c.toNat = 127

/-- The segment can be a part of a reference's name. -/
def isSegment (t : Text) : Bool :=
  !t.isEmpty && t.head? != some '.' && !".lock".toList.reverse.isPrefixOf t.reverse

/-- One character stands in front of another somewhere in the text. -/
def hasPair (a b : Char) (t : Text) : Bool := (t.zip t.tail).contains (a, b)

/-- A reference can have the name. -/
def isName (t : Text) : Bool :=
  !t.any isForbidden && (Text.splitOn '/' t).all isSegment && !hasPair '.' '.' t &&
    !hasPair '@' '\x7b' t && t.getLast? != some '.' && t != ['@']

/-- The text is an identifier. -/
def isId (t : Text) : Bool := t.length = 40 && t.all fun c => (Text.hexDigit? c).isSome

/-- What the reference of that name holds. -/
def read (fs : OwnFiles) (name : Text) : Except ReferenceFault Pointer :=
  if !isName name then .error (.unreadable name)
  else match fs.lookup (Text.splitOn '/' name) with
    | none => .error (.missing name)
    | some bs => match (Utf8.decode bs).toOption.map Text.tokens with
      | some [] => .error .blank
      | some (w :: ws) =>
        if w = "ref:".toList then match ws with
          | [] => .error (.unreadable name)
          | target :: _ => .ok (.reference target)
        else if isId w then .ok (.object w)
        else .error (.unreadable name)
      | none => .error (.unreadable name)

/-- The most references that are followed. -/
def maxChain : Nat := 1000

/-- Follows references to an identifier. -/
def dereference (fs : OwnFiles) (name : Text) : (fuel : Nat) → Except ReferenceFault ObjectId
  | 0 => .error (.unreadable name)
  | fuel + 1 => do
    match ← read fs name with
    | .object id => return id
    | .reference target => dereference fs target fuel

example : isName "refs/heads/main".toList = true ∧ isName "a..b".toList = false ∧
    isName "a/.b".toList = false ∧ isName "x.lock/y".toList = false := by decide

end Reference

end Emend.Git
