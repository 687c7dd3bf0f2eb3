import Emend.Yaml.Tag
import Emend.Yaml.Token

/-!
# Nodes of YAML

`Graph.ofTokens?` reads the one document of a text. Its nodes are numbered, and a collection gives its
parts by their numbers, so an alias is one more place with the number of the node that its anchor marks.
That may be a node around the alias: a document can contain itself.

A missing key or value is an empty plain scalar. In a block mapping a sequence may stand at the column
of its key, where no token shows its beginning and its end.
-/

namespace Emend.Yaml

/-- A node of a document. -/
inductive Node where
  | scalar (tag : Tag) (text : Text.Points)
  | sequence (tag : Tag) (items : List Nat)
  | mapping (tag : Tag) (fields : List (Nat × Nat))
  deriving DecidableEq, Repr

namespace Node

/-- The tag of a node. -/
def tag : Node → Tag
  | scalar t _ | sequence t _ | mapping t _ => t

/-- The node with another tag. -/
def withTag (t : Tag) : Node → Node
  | scalar _ text => scalar t text
  | sequence _ items => sequence t items
  | mapping _ fields => mapping t fields

/-- An empty plain scalar. -/
def empty : Node := scalar (Tag.ofPlain []) []

end Node

/-- The nodes of a document by their numbers, and the one around all others. -/
structure Graph where
  nodes : Array Node
  root : Nat

/-- The state between two tokens. -/
structure Reading where
  tokens : List Token
  /-- What is wrong with the text behind the tokens. -/
  error : Option Error := none
  nodes : Array Node := #[]
  anchors : List (Text × Nat) := []
  /-- What the handles of tags stand for. -/
  handles : List (Text × Text) := []

/-- A part of the reading of a document. -/
abbrev Read (α : Type) := StateT Reading (Except Error) α

namespace Read

/-- Refuses the text. -/
def refuse {α : Type} (reason : String) : Read α := fun _ => .error (.malformed reason)

/-- The next token, `none` at the end. Where an error stands in its place the reading ends. -/
def peek : Read (Option Token) := fun r =>
  match r.tokens, r.error with
  | t :: _, _ => .ok (some t, r)
  | [], none => .ok (none, r)
  | [], some e => .error e

/-- Drops the next token. -/
def drop : Read Unit := fun r => .ok ((), { r with tokens := r.tokens.tail })

/-- Drops the next token if it is `t`. -/
def take? (t : Token) : Read Bool := do
  if (← peek) = some t then
    drop
    return true
  else return false

/-- Adds a node and answers its number. -/
def add (n : Node) : Read Nat := fun r => .ok (r.nodes.size, { r with nodes := r.nodes.push n })

/-- Sets the node of a number. -/
def fill (id : Nat) (n : Node) : Read Unit := fun r =>
  .ok ((), { r with nodes := r.nodes.setIfInBounds id n })

/-- Marks a node by an anchor. -/
def mark (anchor : Option Text) (id : Nat) : Read Unit := fun r =>
  match anchor with
  | none => .ok ((), r)
  | some name => .ok ((), { r with anchors := (name, id) :: r.anchors })

/-- The name of a tag that is given by a handle and a suffix. -/
def tagName (handle : Option Text) (suffix : Text) : Read Text := fun r =>
  match handle with
  | none => .ok (suffix, r)
  | some h => match r.handles.lookup h with
    | some start => .ok (start ++ suffix, r)
    | none => .error (.malformed "found undefined tag handle")

end Read

open Read

/-- What stands before the content of a node. -/
structure Properties where
  anchor : Option Text := none
  /-- The name of the tag. -/
  tag : Option Text := none

/-- The tag of a node, `otherwise` if none is named. A lone exclamation mark names none. -/
def Properties.tagOr (p : Properties) (otherwise : Tag) : Tag :=
  match p.tag with
  | none => otherwise
  | some t => if t = ['!'] then otherwise else Tag.ofName t

/-- The tag of a scalar. Without one, a plain scalar has the tag of its form; so has one whose tag is a
lone exclamation mark. -/
def Properties.scalarTag (p : Properties) (text : Text.Points) (isPlain : Bool) : Tag :=
  let byForm := Tag.ofPlain text.shape
  match p.tag with
  | none => if isPlain then byForm else .text
  | some t => if t = ['!'] then byForm else Tag.ofName t

/-- Reads an anchor, if one stands here. -/
def readAnchor : Read (Option Text) := do
  match ← peek with
  | some (.anchor name) => drop; return some name
  | _ => return none

/-- Reads a tag, if one stands here: its handle and its suffix. -/
def readTagParts : Read (Option (Option Text × Text)) := do
  match ← peek with
  | some (.tag handle suffix) => drop; return some (handle, suffix)
  | _ => return none

/-- Reads an anchor and a tag in either order. -/
def readProperties : Read Properties := do
  let before ← readAnchor
  let parts ← readTagParts
  let anchor ← if before.isNone && parts.isSome then readAnchor else pure before
  match parts with
  | none => return { anchor }
  | some (handle, suffix) => return { anchor, tag := some (← tagName handle suffix) }

/-- The node that an alias names. -/
def readAlias (name : Text) : Read Nat := do
  drop
  match (← get).anchors.lookup name with
  | some id => return id
  | none => refuse "found undefined alias"

/-- An anchor marks one node only. -/
def checkAnchor (anchor : Option Text) : Read Unit := do
  match anchor with
  | none => return
  | some name => if ((← get).anchors.lookup name).isSome then refuse "found duplicate anchor"

/-- Adds a scalar with its properties. -/
def addScalar (p : Properties) (n : Node) : Read Nat := do
  checkAnchor p.anchor
  let id ← add n
  mark p.anchor id
  return id

/-- Adds a node of properties only. -/
def addEmpty (p : Properties) : Read Nat :=
  if p.anchor.isSome || p.tag.isSome then
    addScalar p (.scalar (p.scalarTag [] (p.tag.isNone || p.tag = some ['!'])) [])
  else refuse "expected the node content"

/-- Adds a collection, which may name itself in its parts, and reads these. -/
def addCollection {α : Type} (p : Properties) (make : List α → Node) (read : Read (List α)) :
    Read Nat := do
  checkAnchor p.anchor
  let id ← add (make [])
  mark p.anchor id
  fill id (make (← read))
  return id

/-- Adds a sequence and reads its items. -/
def addSequence (p : Properties) (read : Read (List Nat)) : Read Nat :=
  addCollection p (.sequence (p.tagOr .sequence)) read

/-- Adds a mapping and reads its fields. -/
def addMapping (p : Properties) (read : Read (List (Nat × Nat))) : Read Nat :=
  addCollection p (.mapping (p.tagOr .mapping)) read

mutual

/-- Reads a node. Outside flow collections `inBlock` holds; `atKey` tells that a sequence may begin
with its first entry. -/
def readNode (inBlock atKey : Bool) : (fuel : Nat) → Read Nat
  | 0 => refuse "too deep"
  | fuel + 1 => do
    match ← peek with
    | some (.alias name) => readAlias name
    | _ =>
      let p ← readProperties
      match ← peek with
      | some (.scalar text isPlain) => do
        let id ← addScalar p (.scalar (p.scalarTag text isPlain) text)
        drop
        return id
      | some .flowSequenceStart => addSequence p (do drop; readFlowItems true fuel)
      | some .flowMappingStart => addMapping p (do drop; readFlowFields true fuel)
      | some .blockSequenceStart =>
        if inBlock then addSequence p (do drop; readBlockItems fuel) else addEmpty p
      | some .blockMappingStart =>
        if inBlock then addMapping p (do drop; readBlockFields fuel) else addEmpty p
      | some .blockEntry => if atKey then addSequence p (readBareItems fuel) else addEmpty p
      | _ => addEmpty p

/-- Reads a node, or an empty one before the tokens `ends`. -/
def readNodeUnless (ends : List Token) (inBlock atKey : Bool) : (fuel : Nat) → Read Nat
  | 0 => refuse "too deep"
  | fuel + 1 => do
    match ← peek with
    | some t => if ends.contains t then add .empty else readNode inBlock atKey fuel
    | none => readNode inBlock atKey fuel

/-- Reads the entries of a block sequence and its end. -/
def readBlockItems : (fuel : Nat) → Read (List Nat)
  | 0 => refuse "too deep"
  | fuel + 1 => do
    if ← take? .blockEntry then
      let n ← readNodeUnless [.blockEntry, .blockEnd] true false fuel
      return n :: (← readBlockItems fuel)
    else if ← take? .blockEnd then return []
    else refuse "expected <block end>"

/-- Reads the entries of a sequence that stands at the column of its key. -/
def readBareItems : (fuel : Nat) → Read (List Nat)
  | 0 => refuse "too deep"
  | fuel + 1 => do
    if ← take? .blockEntry then
      let n ← readNodeUnless [.blockEntry, .key, .value, .blockEnd] true false fuel
      return n :: (← readBareItems fuel)
    else return []

/-- Reads the fields of a block mapping and its end. -/
def readBlockFields : (fuel : Nat) → Read (List (Nat × Nat))
  | 0 => refuse "too deep"
  | fuel + 1 => do
    if ← take? .key then
      let k ← readNodeUnless [.key, .value, .blockEnd] true true fuel
      let v ← if ← take? .value then readNodeUnless [.key, .value, .blockEnd] true true fuel
        else add .empty
      return (k, v) :: (← readBlockFields fuel)
    else if ← take? .blockEnd then return []
    else refuse "expected <block end>"

/-- Reads the value of a field in a flow collection that ends with `stop`. -/
def readFlowValue (stop : Token) : (fuel : Nat) → Read Nat
  | 0 => refuse "too deep"
  | fuel + 1 => do
    if ← take? .value then readNodeUnless [.flowEntry, stop] false false fuel
    else add .empty

/-- Reads the entries of a flow sequence and its end. An entry may be a single field. -/
def readFlowItems (isFirst : Bool) : (fuel : Nat) → Read (List Nat)
  | 0 => refuse "too deep"
  | fuel + 1 => do
    if ← take? .flowSequenceEnd then return []
    else
      if !isFirst then
        if !(← take? .flowEntry) then refuse "expected ',' or ']'"
      if ← take? .key then
        let k ← readNodeUnless [.value, .flowEntry, .flowSequenceEnd] false false fuel
        let v ← readFlowValue .flowSequenceEnd fuel
        return (← add (.mapping .mapping [(k, v)])) :: (← readFlowItems false fuel)
      else if ← take? .flowSequenceEnd then return []
      else
        let n ← readNode false false fuel
        return n :: (← readFlowItems false fuel)

/-- Reads the fields of a flow mapping and its end. A field may be a key only. -/
def readFlowFields (isFirst : Bool) : (fuel : Nat) → Read (List (Nat × Nat))
  | 0 => refuse "too deep"
  | fuel + 1 => do
    if ← take? .flowMappingEnd then return []
    else
      if !isFirst then
        if !(← take? .flowEntry) then refuse "expected ',' or '\x7d'"
      if ← take? .key then
        let k ← readNodeUnless [.value, .flowEntry, .flowMappingEnd] false false fuel
        let v ← readFlowValue .flowMappingEnd fuel
        return (k, v) :: (← readFlowFields false fuel)
      else if ← take? .flowMappingEnd then return []
      else
        let k ← readNode false false fuel
        return (k, ← add .empty) :: (← readFlowFields false fuel)

end

/-! ## Documents -/

/-- The handles that need no declaration. -/
def standardHandles : List (Text × Text) :=
  [(['!'], ['!']), (['!', '!'], tagSpace.toList)]

/-- Takes a directive before a document into account; `hasVersion` tells that the version is known. -/
def applyDirective (hasVersion : Bool) (d : Directive) : Read Bool := do
  match d with
  | .version major =>
    if hasVersion then refuse "found duplicate YAML directive"
    else if major != 1 then refuse "found incompatible YAML document"
    else return true
  | .tag handle start =>
    if ((← get).handles.lookup handle).isSome then refuse "duplicate tag handle"
    else
      modify fun r => { r with handles := r.handles ++ [(handle, start)] }
      return hasVersion
  | .other => return hasVersion

/-- Reads the directives before a document, and the token that begins it. -/
def readDirectives (hasVersion : Bool) : (fuel : Nat) → Read Unit
  | 0 => refuse "too many directives"
  | fuel + 1 => do
    match ← peek with
    | some (.directive d) => do
      drop
      readDirectives (← applyDirective hasVersion d) fuel
    | some .documentStart => do
      drop
      modify fun r => { r with handles := r.handles ++ standardHandles }
    | _ => refuse "expected '<document start>'"

/-- The token ends an empty document. -/
def endsEmpty : Option Token → Bool
  | none | some (.directive _) | some .documentStart | some .documentEnd => true
  | _ => false

/-- Skips the tokens that end a document. -/
def skipEnds : (fuel : Nat) → Read Unit
  | 0 => return
  | fuel + 1 => do
    if ← take? .documentEnd then skipEnds fuel

/-- Reads the content of a document, `size` being the number of its tokens. -/
def readContent (size : Nat) : Read Nat := readNode true false (4 * size + 4)

/-- Reads the document behind its first token `t`, which is still there. -/
def readDocument (size : Nat) (t : Token) : Read Nat := do
  match t with
  | .directive _ | .documentStart => do
    readDirectives false (size + 1)
    if endsEmpty (← peek) then add .empty else readContent size
  | _ => do
    modify fun r => { r with handles := standardHandles }
    readContent size

/-- Nothing but its end may follow a document. -/
def checkEnd (size : Nat) : Read Unit := do
  skipEnds (size + 1)
  if (← peek).isSome then
    modify fun r => { r with handles := [] }
    readDirectives false (size + 1)
    refuse "expected a single document in the stream"

/-- Reads the one document of a text; `none` if there is none. -/
def readStream (size : Nat) : Read (Option Nat) := do
  match ← peek with
  | none => return none
  | some t => do
    let root ← readDocument size t
    checkEnd size
    return some root

/-- The document that tokens spell; `none` if there are none. -/
def Graph.ofTokens? (ts : Tokens) : Except Error (Option Graph) := do
  let (root, r) ← readStream ts.tokens.length { tokens := ts.tokens, error := ts.error }
  return root.map fun root => { nodes := r.nodes, root }

end Emend.Yaml
