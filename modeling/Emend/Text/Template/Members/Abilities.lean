import Emend.Text.Template.Entry

/-!
# Members of members

A member is a thing that can be asked as well: a method or an operation of one thing, what all things of a
kind share, and a method that belongs to no thing.
-/

namespace Emend.Template

/-- The members of methods. -/
def methodMembers : List Entry :=
  operations ["__repr__", "__hash__", "__call__", "__getattribute__", "__lt__", "__le__", "__eq__",
     "__ne__", "__gt__", "__ge__"] ++
  [⟨"__reduce__", .method, none, []⟩,
   ⟨"__module__", .field, none, []⟩,
   ⟨"__doc__", .reading, none, []⟩,
   ⟨"__name__", .reading, none, []⟩,
   ⟨"__qualname__", .reading, none, []⟩,
   ⟨"__self__", .reading, none, []⟩,
   ⟨"__text_signature__", .reading, none, []⟩]

/-- The members of operations. -/
def operationMembers : List Entry :=
  operations ["__repr__", "__hash__", "__call__", "__getattribute__", "__lt__", "__le__", "__eq__",
     "__ne__", "__gt__", "__ge__"] ++
  [⟨"__reduce__", .method, none, []⟩,
   ⟨"__self__", .field, none, []⟩,
   ⟨"__objclass__", .reading, none, []⟩,
   ⟨"__name__", .reading, none, []⟩,
   ⟨"__qualname__", .reading, none, []⟩,
   ⟨"__doc__", .reading, none, []⟩,
   ⟨"__text_signature__", .reading, none, []⟩]

/-- The members of methods that things of a kind share. -/
def sharedMethodMembers : List Entry :=
  operations ["__repr__", "__call__", "__getattribute__", "__get__"] ++
  [⟨"__reduce__", .method, none, []⟩,
   ⟨"__objclass__", .field, none, []⟩,
   ⟨"__name__", .field, none, []⟩,
   ⟨"__doc__", .reading, none, []⟩,
   ⟨"__qualname__", .reading, none, []⟩,
   ⟨"__text_signature__", .reading, none, []⟩]

/-- The members of operations that things of a kind share. -/
def sharedOperationMembers : List Entry :=
  operations ["__repr__", "__call__", "__getattribute__", "__get__"] ++
  [⟨"__reduce__", .method, none, []⟩,
   ⟨"__objclass__", .field, none, []⟩,
   ⟨"__name__", .field, none, []⟩,
   ⟨"__doc__", .reading, none, []⟩,
   ⟨"__qualname__", .reading, none, []⟩,
   ⟨"__text_signature__", .reading, none, []⟩]

/-- The members of methods of kinds. -/
def kindMethodMembers : List Entry :=
  operations ["__repr__", "__call__", "__getattribute__", "__get__"] ++
  [⟨"__objclass__", .field, none, []⟩,
   ⟨"__name__", .field, none, []⟩,
   ⟨"__doc__", .reading, none, []⟩,
   ⟨"__qualname__", .reading, none, []⟩,
   ⟨"__text_signature__", .reading, none, []⟩]

/-- The members of readings. -/
def readingMembers : List Entry :=
  operations ["__repr__", "__getattribute__", "__get__", "__set__", "__delete__"] ++
  [⟨"__objclass__", .field, none, []⟩,
   ⟨"__name__", .field, none, []⟩,
   ⟨"__doc__", .reading, none, []⟩,
   ⟨"__qualname__", .reading, none, []⟩]

/-- The members of fields. -/
def fieldMembers : List Entry :=
  operations ["__repr__", "__getattribute__", "__get__", "__set__", "__delete__"] ++
  [⟨"__reduce__", .method, none, []⟩,
   ⟨"__objclass__", .field, none, []⟩,
   ⟨"__name__", .field, none, []⟩,
   ⟨"__doc__", .reading, none, []⟩,
   ⟨"__qualname__", .reading, none, []⟩]

/-- The members of methods that belong to no thing. -/
def freeMethodMembers : List Entry :=
  [maker] ++
  operations ["__repr__", "__call__", "__get__", "__init__"] ++
  [⟨"__func__", .field, none, []⟩,
   ⟨"__wrapped__", .field, none, []⟩,
   ⟨"__isabstractmethod__", .reading, none, []⟩,
   ⟨"__dict__", .reading, none, []⟩,
   ⟨"__doc__", .note, none,
    ["staticmethod(function) -> method",
     "",
     "Convert a function to be a static method.",
     "",
     "A static method does not receive an implicit first argument.",
     "To declare a static method, use this idiom:",
     "",
     "     class C:",
     "         @staticmethod",
     "         def f(arg1, arg2, argN):",
     "             ...",
     "",
     "It can be called either on the class (e.g. C.f()) or on an instance",
     "(e.g. C().f()). Both the class and the instance are ignored, and",
     "neither is passed implicitly as the first argument to the method.",
     "",
     "Static methods in Python are similar to those found in Java or C++.",
     "For a more advanced concept, see the classmethod builtin."]⟩]

end Emend.Template
