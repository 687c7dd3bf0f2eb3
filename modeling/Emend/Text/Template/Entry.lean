import Emend.Text.Basic

/-!
# Entries of kinds

A kind lists what can be asked of its things under which name. An `Entry` of such a list says of what sort
the answer is, and carries the account that is given of it. Operations are accounted for alike in all kinds.
-/

namespace Emend.Template

/-- The sorts of entries. -/
inductive EntrySort where
  /-- An operation, which the language has a sign for. -/
  | operation
  /-- A method of each thing of the kind. -/
  | method
  /-- A method of the kind. -/
  | kindMethod
  /-- A method that belongs to no thing. -/
  | freeMethod
  /-- The method that makes things of the kind. -/
  | maker
  /-- What is found out about a thing when it is asked. -/
  | reading
  /-- What a thing carries with it. -/
  | field
  /-- A text about the kind. -/
  | note
  /-- The entry says that there is none. -/
  | absent
  deriving DecidableEq, Repr

/-- An entry in the list of a kind. -/
structure Entry where
  name : String
  sort : EntrySort
  /-- What it is given, if it tells. -/
  signature : Option String
  /-- The account of it, line by line. -/
  account : List String
  deriving DecidableEq, Repr

/-- The operations by name: what each is given, and the account of it. -/
def operationAccounts : List (String × String × String) :=
  [("__repr__", "($self, /)", "Return repr(self)."),
   ("__hash__", "($self, /)", "Return hash(self)."),
   ("__str__", "($self, /)", "Return str(self)."),
   ("__getattribute__", "($self, name, /)", "Return getattr(self, name)."),
   ("__lt__", "($self, value, /)", "Return self<value."),
   ("__le__", "($self, value, /)", "Return self<=value."),
   ("__eq__", "($self, value, /)", "Return self==value."),
   ("__ne__", "($self, value, /)", "Return self!=value."),
   ("__gt__", "($self, value, /)", "Return self>value."),
   ("__ge__", "($self, value, /)", "Return self>=value."),
   ("__iter__", "($self, /)", "Implement iter(self)."),
   ("__mod__", "($self, value, /)", "Return self%value."),
   ("__rmod__", "($self, value, /)", "Return value%self."),
   ("__len__", "($self, /)", "Return len(self)."),
   ("__getitem__", "($self, key, /)", "Return self[key]."),
   ("__add__", "($self, value, /)", "Return self+value."),
   ("__mul__", "($self, value, /)", "Return self*value."),
   ("__rmul__", "($self, value, /)", "Return value*self."),
   ("__contains__", "($self, key, /)", "Return key in self."),
   ("__radd__", "($self, value, /)", "Return value+self."),
   ("__sub__", "($self, value, /)", "Return self-value."),
   ("__rsub__", "($self, value, /)", "Return value-self."),
   ("__divmod__", "($self, value, /)", "Return divmod(self, value)."),
   ("__rdivmod__", "($self, value, /)", "Return divmod(value, self)."),
   ("__pow__", "($self, value, mod=None, /)", "Return pow(self, value, mod)."),
   ("__rpow__", "($self, value, mod=None, /)", "Return pow(value, self, mod)."),
   ("__neg__", "($self, /)", "-self"),
   ("__pos__", "($self, /)", "+self"),
   ("__abs__", "($self, /)", "abs(self)"),
   ("__bool__", "($self, /)", "True if self else False"),
   ("__invert__", "($self, /)", "~self"),
   ("__lshift__", "($self, value, /)", "Return self<<value."),
   ("__rlshift__", "($self, value, /)", "Return value<<self."),
   ("__rshift__", "($self, value, /)", "Return self>>value."),
   ("__rrshift__", "($self, value, /)", "Return value>>self."),
   ("__and__", "($self, value, /)", "Return self&value."),
   ("__rand__", "($self, value, /)", "Return value&self."),
   ("__xor__", "($self, value, /)", "Return self^value."),
   ("__rxor__", "($self, value, /)", "Return value^self."),
   ("__or__", "($self, value, /)", "Return self|value."),
   ("__ror__", "($self, value, /)", "Return value|self."),
   ("__int__", "($self, /)", "int(self)"),
   ("__float__", "($self, /)", "float(self)"),
   ("__floordiv__", "($self, value, /)", "Return self//value."),
   ("__rfloordiv__", "($self, value, /)", "Return value//self."),
   ("__truediv__", "($self, value, /)", "Return self/value."),
   ("__rtruediv__", "($self, value, /)", "Return value/self."),
   ("__index__", "($self, /)",
    "Return self converted to an integer, if self is suitable for use as an index into a list."),
   ("__init__", "($self, /, *args, **kwargs)",
    "Initialize self.  See help(type(self)) for accurate signature."),
   ("__ior__", "($self, value, /)", "Return self|=value."),
   ("__setitem__", "($self, key, value, /)", "Set self[key] to value."),
   ("__delitem__", "($self, key, /)", "Delete self[key]."),
   ("__setattr__", "($self, name, value, /)", "Implement setattr(self, name, value)."),
   ("__delattr__", "($self, name, /)", "Implement delattr(self, name)."),
   ("__call__", "($self, /, *args, **kwargs)", "Call self as a function."),
   ("__get__", "($self, instance, owner=None, /)",
    "Return an attribute of instance, which is of type owner."),
   ("__set__", "($self, instance, value, /)", "Set an attribute of instance to value."),
   ("__delete__", "($self, instance, /)", "Delete an attribute of instance.")]

/-- The entries of operations. -/
def operations (names : List String) : List Entry :=
  names.map fun name =>
    let account := operationAccounts.lookup name
    ⟨name, .operation, account.map (·.1), account.toList.map (·.2)⟩

/-- The entry of the method that makes things. -/
def maker : Entry :=
  ⟨"__new__", .maker, some "($type, *args, **kwargs)",
    ["Create and return a new object.  See help(type) for accurate signature."]⟩

end Emend.Template
