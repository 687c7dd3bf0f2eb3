/-!
# Kinds of subjects

What a template speaks of is of some kind. A kind has a name and belongs to other kinds, from which it
takes what it does not bring itself. `Kind.figures` are the numbers that a kind tells of how its things
are kept.
-/

namespace Emend.Template

/-- The kinds of subjects. -/
inductive Kind where
  | anything
  | kind
  | text
  | number
  | truth
  | list
  | record
  | nothing
  /-- A record that must not be changed. -/
  | view
  /-- A kind with an argument. -/
  | narrowed
  | method
  | operation
  | sharedMethod
  | sharedOperation
  | kindMethod
  | reading
  | field
  | freeMethod
  deriving DecidableEq, Repr

/-- The numbers that a kind tells: the size of a thing and of each item in it, the marks of the kind, and
where a thing keeps the list of those who watch it and its own record. -/
structure Figures where
  size : Nat
  itemSize : Nat
  marks : Nat
  watchersAt : Nat
  recordAt : Nat
  deriving DecidableEq, Repr

namespace Kind

/-- The kind's own name. -/
def name : Kind → String
  | anything => "object"
  | kind => "type"
  | text => "str"
  | number => "int"
  | truth => "bool"
  | list => "tuple"
  | record => "dict"
  | nothing => "NoneType"
  | view => "mappingproxy"
  | narrowed => "GenericAlias"
  | method => "builtin_function_or_method"
  | operation => "method-wrapper"
  | sharedMethod => "method_descriptor"
  | sharedOperation => "wrapper_descriptor"
  | kindMethod => "classmethod_descriptor"
  | reading => "getset_descriptor"
  | field => "member_descriptor"
  | freeMethod => "staticmethod"

/-- Where the kind is at home. -/
def home : Kind → String
  | narrowed => "types"
  | _ => "builtins"

/-- The name by which the kind is spoken of: with its home, unless it is at home everywhere. -/
def fullName : Kind → String
  | narrowed => narrowed.home ++ "." ++ narrowed.name
  | k => k.name

/-- The kind and those it belongs to, the narrower first. -/
def ancestry : Kind → List Kind
  | anything => [anything]
  | truth => [truth, number, anything]
  | k => [k, anything]

/-- The kind that the kind belongs to directly. -/
def parent? (k : Kind) : Option Kind := (k.ancestry.drop 1).head?

/-- What the kind is made from, if it tells. -/
def signature? : Kind → Option String
  | anything => some "()"
  | list => some "(iterable=(), /)"
  | _ => none

/-- The numbers that the kind tells. -/
def figures : Kind → Figures
  | anything => ⟨16, 0, 0x81500, 0, 0⟩
  | kind => ⟨904, 40, 0x80085D00, 368, 264⟩
  | text => ⟨80, 0, 0x10481500, 0, 0⟩
  | number => ⟨24, 4, 0x1481500, 0, 0⟩
  | truth => ⟨32, 4, 0x1481100, 0, 0⟩
  | list => ⟨24, 8, 0x4485520, 0, 0⟩
  | record => ⟨48, 0, 0x20485540, 0, 0⟩
  | nothing => ⟨16, 0, 0x81100, 0, 0⟩
  | view => ⟨24, 0, 0x85140, 0, 0⟩
  | narrowed => ⟨64, 0, 0x85D00, 40, 0⟩
  | method => ⟨56, 0, 0x85980, 40, 0⟩
  | operation => ⟨32, 0, 0x85180, 0, 0⟩
  | sharedMethod => ⟨56, 0, 0xA5980, 0, 0⟩
  | sharedOperation => ⟨56, 0, 0xA5180, 0, 0⟩
  | kindMethod => ⟨56, 0, 0x85180, 0, 0⟩
  | reading => ⟨48, 0, 0x85180, 0, 0⟩
  | field => ⟨48, 0, 0x85180, 0, 0⟩
  | freeMethod => ⟨32, 0, 0x85500, 0, 24⟩

theorem mem_ancestry (k : Kind) : k ∈ k.ancestry := by cases k <;> decide

theorem anything_mem_ancestry (k : Kind) : anything ∈ k.ancestry := by cases k <;> decide

end Kind

end Emend.Template
