import Emend.Edit.Operation
import Emend.Text.Blank
import Emend.Text.Case

/-!
# The grammar of a file block

A block asks for one operation by tags: `[NAME]` opens an element and `[/NAME]` closes it, in any mix
of upper and lower case. The text of an element is taken literally up to a closing tag behind which
the rest of the operation can be read; of several such closing tags the first one counts.

A `Pattern` is the list of what has to follow in order. `Pattern.read?` reads it at the front of a
text and `Pattern.search` at the first place where it can be read.
-/

namespace Emend.Message

open Emend.Text (afterCaseless? stripStart)

/-- The parts of an instruction that a block spells out. -/
inductive Field where
  | content
  | anchor
  | anchorEnd
  deriving DecidableEq, Repr

/-- The texts captured from a block. -/
structure Captures where
  content : Option Text := none
  anchor : Option Text := none
  anchorEnd : Option Text := none
  deriving DecidableEq, Repr

/-- The captures with one of them set. -/
def Captures.put (c : Captures) (f : Field) (t : Text) : Captures :=
  match f with
  | .content => { c with content := some t }
  | .anchor => { c with anchor := some t }
  | .anchorEnd => { c with anchorEnd := some t }

/-- One thing that a pattern expects. -/
inductive Element where
  /-- The opening tag of that name. -/
  | tag (name : String)
  /-- Any run of blank characters. -/
  | blanks
  /-- The rest of the opening tag's line if it is blank. -/
  | restOfLine
  /-- Literal text up to the closing tag of that name. -/
  | body (field : Field) (name : String)

/-- What has to follow in order. -/
abbrev Pattern := List Element

/-- The opening tag of that name. -/
def openTag (name : String) : Text := '[' :: name.toList ++ [']']

/-- The closing tag of that name. -/
def closeTag (name : String) : Text := '[' :: '/' :: name.toList ++ [']']

/-- Spaces and tabs. -/
def isInlineBlank (c : Char) : Bool := c = ' ' || c = '\t'

/-- Removes spaces and tabs at the front. -/
def skipInlineBlanks (t : Text) : Text := t.dropWhile isInlineBlank

/-- Removes spaces and tabs at the front, and then a line end if one follows. -/
def skipRestOfLine (t : Text) : Text :=
  match skipInlineBlanks t with
  | '\r' :: '\n' :: r => r
  | '\n' :: r => r
  | r => r

/-- The shortest literal text that a closing tag ends behind which `rest` succeeds. -/
def upTo {α : Type} (close : Text) (rest : Text → Option α) : Text → Option (Text × α)
  | [] => ((afterCaseless? close []).bind rest).map ([], ·)
  | c :: t =>
    match (afterCaseless? close (c :: t)).bind rest with
    | some a => some ([], a)
    | none => (upTo close rest t).map fun r => (c :: r.1, r.2)

/-- Reads the pattern at the front of a text: what it captures, and what follows it. -/
def Pattern.read? : Pattern → Text → Option (Captures × Text)
  | [], t => some ({}, t)
  | .tag name :: es, t => (afterCaseless? (openTag name) t).bind (read? es)
  | .blanks :: es, t => read? es (stripStart t)
  | .restOfLine :: es, t => read? es (skipRestOfLine t)
  | .body f name :: es, t =>
    (upTo (closeTag name) (read? es) t).map fun (body, c, rest) => (c.put f body, rest)

/-- What a search splits a text into. -/
structure Found where
  before : Text
  captures : Captures
  after : Text

/-- Reads the pattern at the first place of a text where it can be read. -/
def Pattern.search (p : Pattern) : Text → Option Found
  | [] => (p.read? []).map fun (c, r) => ⟨[], c, r⟩
  | ch :: t =>
    match p.read? (ch :: t) with
    | some (c, r) => some ⟨[], c, r⟩
    | none => (p.search t).map fun f => { f with before := ch :: f.before }

/-- A start anchor followed by an end anchor. -/
def twoAnchors : Pattern :=
  [.blanks, .tag "ANCHOR_START", .body .anchor "ANCHOR_START",
   .blanks, .tag "ANCHOR_END", .body .anchorEnd "ANCHOR_END"]

/-- A single anchor. -/
def oneAnchor : Pattern := [.blanks, .tag "ANCHOR", .body .anchor "ANCHOR"]

/-- An element that holds the content. -/
def contentElement : Pattern :=
  [.blanks, .tag "CONTENT", .restOfLine, .body .content "CONTENT"]

/-- How a block asks for an operation. -/
def pattern : Operation → Pattern
  | .deleteFile => [.tag "DELETE_FILE"]
  | .create => [.tag "CREATE", .restOfLine, .body .content "CREATE"]
  | .replace => [.tag "REPLACE", .restOfLine, .body .content "REPLACE"]
  | .findReplace => .tag "MODIFY" :: twoAnchors ++ contentElement
  | .deleteContent => .tag "DELETE" :: twoAnchors
  | .insertAfter => .tag "INSERT_AFTER" :: oneAnchor ++ contentElement
  | .insertBefore => .tag "INSERT_BEFORE" :: oneAnchor ++ contentElement

/-- The operations in the order in which a block is tried for them. -/
def precedence : List Operation :=
  [.deleteFile, .create, .replace, .findReplace, .deleteContent, .insertAfter, .insertBefore]

end Emend.Message
