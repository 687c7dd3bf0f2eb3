import Emend.Yaml.Node

/-!
# Merged mappings

The fields of a mapping under the key `<<` are taken over before its own; of several such mappings in a
list the first one counts most. `flatten` replaces a mapping by what it is with the fields it takes over,
and so it does with every mapping that these come from. A mapping may take over fields of one around it,
or its own: what counts then is what is left of it without the key `<<`.
-/

namespace Emend.Yaml

/-- A change of the nodes of a document, which can fail. -/
abbrev Splice (α : Type) := StateT (Array Node) (Except Error) α

namespace Splice

/-- Refuses the document. -/
def refuse {α : Type} (reason : String) : Splice α := fun _ => .error (.malformed reason)

/-- The node of that number. -/
def node (id : Nat) : Splice Node := fun nodes => .ok (nodes[id]?.getD .empty, nodes)

/-- Sets the node of that number. -/
def put (id : Nat) (n : Node) : Splice Unit := fun nodes => .ok ((), nodes.setIfInBounds id n)

/-- The fields of a mapping; no other node has any. -/
def fields (id : Nat) : Splice (List (Nat × Nat)) := do
  match ← node id with
  | .mapping _ fs => return fs
  | _ => return []

/-- Sets the fields of a mapping. -/
def putFields (id : Nat) (fs : List (Nat × Nat)) : Splice Unit := do
  match ← node id with
  | .mapping t _ => put id (.mapping t fs)
  | _ => return

end Splice

open Splice

/-- The fields that the value of the key `<<` gives, `flatten` being what is done to a mapping before. -/
def takenFrom (flatten : Nat → Splice Unit) (value : Nat) : Splice (List (Nat × Nat)) := do
  match ← node value with
  | .mapping _ _ => do
    flatten value
    fields value
  | .sequence _ items => do
    let all ← items.mapM fun item => do
      match ← node item with
      | .mapping _ _ => do
        flatten item
        fields item
      | _ => refuse "expected a mapping for merging"
    return all.reverse.flatten
  | .scalar _ _ => refuse "expected a mapping or list of mappings for merging"

/-- Takes over what the fields `todo` of a mapping ask for, behind the fields `kept`, the last of these
first. If the mapping was flattened meanwhile, being part of what it takes over, nothing is left to do. -/
def flattenFrom (flatten : Nat → Splice Unit) (id : Nat) (taken kept : List (Nat × Nat)) :
    (todo : List (Nat × Nat)) → Splice Unit
  | [] => putFields id (taken ++ kept.reverse)
  | (k, v) :: todo => do
    let key ← node k
    match key.tag with
    | .merge => do
      let rest := kept.reverse ++ todo
      putFields id rest
      let taken := taken ++ (← takenFrom flatten v)
      let now ← fields id
      if now = rest then flattenFrom flatten id taken kept todo
      else putFields id (taken ++ now)
    | .default => do
      put k (key.withTag .text)
      flattenFrom flatten id taken ((k, v) :: kept) todo
    | _ => flattenFrom flatten id taken ((k, v) :: kept) todo

/-- Replaces a mapping by one without the key `<<`, and in which the key `=` is a text. Every mapping on
the way has lost such a key, so `fuel` need not exceed their number by more than one. -/
def flatten : (fuel : Nat) → Nat → Splice Unit
  | 0, _ => refuse "too deep"
  | fuel + 1, id => do
    match ← node id with
    | .mapping _ fs => flattenFrom (flatten fuel) id [] [] fs
    | _ => return

/-- The number of fields in all mappings. -/
def countFields (nodes : Array Node) : Nat :=
  nodes.foldl (fun n node => match node with
    | .mapping _ fs => n + fs.length
    | _ => n) 0

end Emend.Yaml
