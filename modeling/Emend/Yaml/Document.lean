import Emend.Yaml.Merge

/-!
# Values of YAML documents

`read` answers the value of the one document in a file. A value is built from the outside to the inside:
first the collection around all others, then what stands in it, then what stands in that, so of two faults
the outer one counts. Every node has one value, wherever it is named. A key must not be a collection.

A document can contain itself, so its value is given up to a depth.
-/

namespace Emend.Yaml

/-- A part of a value: a value, or the collection that the node of that number is. -/
inductive Part where
  | value (v : Value)
  | collection (id : Nat)

/-- What a collection holds. -/
inductive Content where
  | list (items : List Part)
  | record (fields : List (Part × Part))
  | set (items : List Part)

/-- A value in the making. -/
structure Building where
  nodes : Array Node
  /-- The parts that are known, by the numbers of their nodes. -/
  parts : Array (Option Part)
  /-- What collections hold, by the numbers of their nodes. -/
  contents : Array (Option Content)
  /-- The collections that are still to be filled, in their order. -/
  pending : List Nat := []

/-- A step in the making of a value. -/
abbrev Build (α : Type) := StateT Building (Except Error) α

namespace Build

/-- Refuses the document. -/
def refuse {α : Type} (reason : String) : Build α := fun _ => .error (.malformed reason)

/-- The node of that number. -/
def node (id : Nat) : Build Node := fun b => .ok (b.nodes[id]?.getD .empty, b)

/-- Changes the nodes. -/
def change (x : Splice Unit) : Build Unit := fun b => do
  let ((), nodes) ← x b.nodes
  return ((), { b with nodes })

/-- Keeps the part that a node is. -/
def keep (id : Nat) (p : Part) : Build Part := fun b =>
  .ok (p, { b with parts := b.parts.setIfInBounds id (some p) })

/-- Keeps what a collection holds. -/
def hold (id : Nat) (c : Content) : Build Unit := fun b =>
  .ok ((), { b with contents := b.contents.setIfInBounds id (some c) })

end Build

open Build

/-- What has that tag is a collection. -/
def Tag.isCollection : Tag → Bool
  | .sequence | .mapping | .set | .orderedMapping | .pairs => true
  | _ => false

/-- The text of a scalar. A mapping stands for the scalar under its key `=`. -/
def scalarText (nodes : Array Node) : (fuel : Nat) → Nat → Except Error Text.Points
  | 0, _ => .error (.scalar .tooDeep)
  | fuel + 1, id =>
    match nodes[id]?.getD .empty with
    | .scalar _ text => .ok text
    | .sequence _ _ => .error (.malformed "expected a scalar node")
    | .mapping _ fs =>
      match fs.find? fun (k, _) => (nodes[k]?.getD .empty).tag = .default with
      | some (_, v) => scalarText nodes fuel v
      | none => .error (.malformed "expected a scalar node")

/-- The value of a node that is no collection by its tag. -/
def scalarValue (nodes : Array Node) (id : Nat) : Except Error Value := do
  let n := nodes[id]?.getD .empty
  match n.tag with
  | .merge | .default | .unknown => .error (.malformed "a value cannot have this tag")
  | tag =>
    let text ← scalarText nodes (nodes.size + 1) id
    match tag, n with
    | .time, .mapping _ _ => .error (.scalar .timeOfFields)
    | _, _ => tag.scalarValue text

/-- The part that a node is. A collection is put off. -/
def part (id : Nat) : Build Part := do
  let b ← get
  match (b.parts[id]?).join with
  | some p => return p
  | none =>
    if (← node id).tag.isCollection then do
      modify fun b => { b with pending := b.pending ++ [id] }
      keep id (.collection id)
    else match scalarValue b.nodes id with
      | .ok v => keep id (.value v)
      | .error e => throw e

/-- The parts that a field of a record is. -/
def field (f : Nat × Nat) : Build (Part × Part) := do
  match ← part f.1 with
  | .collection _ => refuse "found unhashable key"
  | k => return (k, ← part f.2)

/-- The key of a mapping of one field; its value is looked at too. -/
def singleField (id : Nat) : Build Part := do
  match ← node id with
  | .mapping _ [(k, v)] => do
    let key ← part k
    let _ ← part v
    return key
  | _ => refuse "expected a mapping of a single field"

/-- The fields of a mapping with those that it takes over. -/
def allFields (id : Nat) : Build (List (Part × Part)) := do
  change fun nodes => flatten (countFields nodes + 2) id nodes
  match ← node id with
  | .mapping _ fs => fs.mapM field
  | _ => refuse "expected a mapping node"

/-- Fills a collection. -/
def fillCollection (id : Nat) : Build Unit := do
  let n ← node id
  match n.tag, n with
  | .sequence, .sequence _ items => do hold id (.list (← items.mapM part))
  | .orderedMapping, .sequence _ items => do hold id (.list (← items.mapM singleField))
  | .pairs, .sequence _ items => do hold id (.list (← items.mapM singleField))
  | .mapping, _ => do hold id (.record (← allFields id))
  | .set, _ => do hold id (.set ((← allFields id).map (·.1)))
  | _, _ => refuse "expected a sequence node"

/-- Fills the collections that are put off, and those that are put off by this. Every node is put off
once at most. -/
def fillPending : (fuel : Nat) → Build Unit
  | 0 => return
  | fuel + 1 => do
    match (← get).pending with
    | [] => return
    | id :: pending => do
      modify fun b => { b with pending }
      fillCollection id
      fillPending fuel

/-- How deep a value is given. -/
def valueDepth : Nat := 4

/-- The value that a part is; a collection below the depth is given as null. -/
def valueOf (contents : Array (Option Content)) : (depth : Nat) → Part → Value
  | _, .value v => v
  | 0, .collection _ => .null
  | depth + 1, .collection id =>
    match (contents[id]?).join with
    | some (.list items) => .list (items.map (valueOf contents depth))
    | some (.record fields) =>
      .record (fields.map fun (k, v) => (valueOf contents depth k, valueOf contents depth v))
    | some (.set items) => .set (items.map (valueOf contents depth))
    | none => .null

/-- The value of a document. -/
def Graph.value (g : Graph) : Except Error Value := do
  let size := g.nodes.size
  let start : Building :=
    { nodes := g.nodes, parts := Array.replicate size none, contents := Array.replicate size none }
  let build : Build Part := do
    let root ← part g.root
    fillPending (size + 1)
    return root
  let (root, b) ← build start
  return valueOf b.contents valueDepth root

/-- The value that the bytes of a file spell; an empty file spells null. -/
def read (bs : Bytes) : Except Error Value := do
  match ← Graph.ofTokens? (Stream.ofBytes bs).tokens with
  | none => return .null
  | some g => g.value

end Emend.Yaml
