import Emend.Text.Template.Kind
import Emend.Text.Template.Members.Abilities
import Emend.Text.Template.Members.Collections
import Emend.Text.Template.Members.Kinds
import Emend.Text.Template.Members.Numbers
import Emend.Text.Template.Members.Texts

/-!
# Members

A member is an entry together with the kind in whose list it stands. `Kind.member?` finds what things of a
kind can be asked under a name: the narrowest kind that has an entry of that name counts.
-/

namespace Emend.Template

/-- An entry of a kind. -/
structure Member where
  owner : Kind
  entry : Entry
  deriving DecidableEq, Repr

namespace Kind

/-- The entries that the kind brings with it, in the order in which they are shown. -/
def entries : Kind → List Entry
  | anything => commonMembers
  | kind => kindMembers
  | text => textMembers
  | number => numberMembers
  | truth => truthMembers
  | list => listMembers
  | record => recordMembers
  | nothing => nothingMembers
  | view => viewMembers
  | narrowed => narrowedMembers
  | method => methodMembers
  | operation => operationMembers
  | sharedMethod => sharedMethodMembers
  | sharedOperation => sharedOperationMembers
  | kindMethod => kindMethodMembers
  | reading => readingMembers
  | field => fieldMembers
  | freeMethod => freeMethodMembers

/-- The kind's own entry of that name. -/
def ownMember? (k : Kind) (name : Text) : Option Member :=
  (k.entries.find? (·.name.toList = name)).map fun e => ⟨k, e⟩

/-- What things of the kind can be asked under that name. -/
def member? (k : Kind) (name : Text) : Option Member := k.ancestry.findSome? (·.ownMember? name)

/-- The kind can be given an argument. -/
def takesArgument (k : Kind) : Bool := k = kind || (k.member? "__class_getitem__".toList).isSome

end Kind

namespace Member

/-- The member's name. -/
def name (m : Member) : Text := m.entry.name.toList

/-- The member's name behind that of a kind. -/
def nameIn (m : Member) (k : Kind) : Text := k.name.toList ++ '.' :: m.name

/-- The account of the member. -/
def account? (m : Member) : Option Text :=
  if m.entry.account.isEmpty then none else some (Text.unlines (m.entry.account.map String.toList))

/-- The member is asked of a thing when it is looked up, and does not wait for that. -/
def isRead (m : Member) : Bool := m.entry.sort = .reading || m.entry.sort = .field

end Member

end Emend.Template
