import Emend.Text.Template.Entry

/-!
# Members of kinds

What every thing can be asked, what kinds and narrowed kinds can be asked, and what nothing can be asked.
-/

namespace Emend.Template

/-- The members of every thing. -/
def commonMembers : List Entry :=
  [maker] ++
  operations ["__repr__", "__hash__", "__str__", "__getattribute__", "__setattr__", "__delattr__",
     "__lt__", "__le__", "__eq__", "__ne__", "__gt__", "__ge__", "__init__"] ++
  [⟨"__reduce_ex__", .method, some "($self, protocol, /)", ["Helper for pickle."]⟩,
   ⟨"__reduce__", .method, some "($self, /)", ["Helper for pickle."]⟩,
   ⟨"__getstate__", .method, some "($self, /)", ["Helper for pickle."]⟩,
   ⟨"__subclasshook__", .kindMethod, none,
    ["Abstract classes can override this to customize issubclass().",
     "",
     "This is invoked early on by abc.ABCMeta.__subclasscheck__().",
     "It should return True, False or NotImplemented.  If it returns",
     "NotImplemented, the normal algorithm is used.  Otherwise, it",
     "overrides the normal algorithm (and the outcome is cached).",
     ""]⟩,
   ⟨"__init_subclass__", .kindMethod, none,
    ["This method is called when a class is subclassed.",
     "",
     "The default implementation does nothing. It may be",
     "overridden to extend subclasses.",
     ""]⟩,
   ⟨"__format__", .method, some "($self, format_spec, /)", ["Default object formatter."]⟩,
   ⟨"__sizeof__", .method, some "($self, /)", ["Size of object in memory, in bytes."]⟩,
   ⟨"__dir__", .method, some "($self, /)", ["Default dir() implementation."]⟩,
   ⟨"__class__", .reading, none, ["the object's class"]⟩,
   ⟨"__doc__", .note, none,
    ["The base class of the class hierarchy.",
     "",
     "When called, it accepts no arguments and returns a new featureless",
     "instance that has no instance attributes and cannot be given any.",
     ""]⟩]

/-- The members of kinds. -/
def kindMembers : List Entry :=
  [maker] ++
  operations ["__repr__", "__call__", "__getattribute__", "__setattr__", "__delattr__", "__init__",
     "__or__", "__ror__"] ++
  [⟨"mro", .method, some "($self, /)", ["Return a type's method resolution order."]⟩,
   ⟨"__subclasses__", .method, some "($self, /)", ["Return a list of immediate subclasses."]⟩,
   ⟨"__prepare__", .kindMethod, none,
    ["__prepare__() -> dict",
     "used to create the namespace for the class statement"]⟩,
   ⟨"__instancecheck__", .method, some "($self, instance, /)",
    ["Check if an object is an instance."]⟩,
   ⟨"__subclasscheck__", .method, some "($self, subclass, /)",
    ["Check if a class is a subclass."]⟩,
   ⟨"__dir__", .method, some "($self, /)", ["Specialized __dir__ implementation for types."]⟩,
   ⟨"__sizeof__", .method, some "($self, /)", ["Return memory consumption of the type object."]⟩,
   ⟨"__basicsize__", .field, none, []⟩,
   ⟨"__itemsize__", .field, none, []⟩,
   ⟨"__flags__", .field, none, []⟩,
   ⟨"__weakrefoffset__", .field, none, []⟩,
   ⟨"__base__", .field, none, []⟩,
   ⟨"__dictoffset__", .field, none, []⟩,
   ⟨"__mro__", .field, none, []⟩,
   ⟨"__name__", .reading, none, []⟩,
   ⟨"__qualname__", .reading, none, []⟩,
   ⟨"__bases__", .reading, none, []⟩,
   ⟨"__module__", .reading, none, []⟩,
   ⟨"__abstractmethods__", .reading, none, []⟩,
   ⟨"__dict__", .reading, none, []⟩,
   ⟨"__doc__", .reading, none, []⟩,
   ⟨"__text_signature__", .reading, none, []⟩,
   ⟨"__annotations__", .reading, none, []⟩]

/-- The members of narrowed kinds. -/
def narrowedMembers : List Entry :=
  [maker] ++
  operations ["__repr__", "__hash__", "__call__", "__getattribute__", "__lt__", "__le__", "__eq__",
     "__ne__", "__gt__", "__ge__", "__iter__", "__or__", "__ror__", "__getitem__"] ++
  [⟨"__mro_entries__", .method, none, []⟩,
   ⟨"__instancecheck__", .method, none, []⟩,
   ⟨"__subclasscheck__", .method, none, []⟩,
   ⟨"__reduce__", .method, none, []⟩,
   ⟨"__dir__", .method, none, []⟩,
   ⟨"__origin__", .field, none, []⟩,
   ⟨"__args__", .field, none, []⟩,
   ⟨"__unpacked__", .field, none, []⟩,
   ⟨"__parameters__", .reading, none, ["Type variables in the GenericAlias."]⟩,
   ⟨"__typing_unpacked_tuple_args__", .reading, none, []⟩,
   ⟨"__doc__", .note, none,
    ["Represent a PEP 585 generic type",
     "",
     "E.g. for t = list[int], t.__origin__ is list and t.__args__ is (int,)."]⟩]

/-- The members of nothing. -/
def nothingMembers : List Entry :=
  [maker] ++
  operations ["__repr__", "__bool__"] ++
  [⟨"__doc__", .absent, none, []⟩]

end Emend.Template
