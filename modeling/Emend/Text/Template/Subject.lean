import Emend.Text.Quoted
import Emend.Text.Template.Member

/-!
# Subjects of templates

A place of a template stands for a text, but it may also speak of the text itself: of the kind of thing
that a text is, of the kinds that this kind belongs to, of what a text can be asked, and of the accounts
that are given of all these. A `Subject` is any of these. `Subject.part` looks one up by its name,
`Subject.item` by a number or a name in brackets, and `Subject.Error` says why there is none.
-/

namespace Emend.Template

/-- What stands in brackets: a number or a name. -/
inductive Key where
  | index (n : Nat)
  | name (t : Text)
  deriving DecidableEq, Repr

/-- The key as a text in which a name stands in quotation marks. -/
def Key.quoted : Key → Text
  | index n => Text.ofNat n
  | name t => Text.quoted t

/-- What a template can speak of. -/
inductive Subject where
  | text (t : Text)
  | number (n : Nat)
  | truth (b : Bool)
  | nothing
  | kind (k : Kind)
  | kinds (ks : List Kind)
  /-- A list of one key. -/
  | single (key : Key)
  /-- The entries of a kind by their names. -/
  | entries (k : Kind)
  /-- A record without fields. -/
  | empty
  /-- What all things of a kind share. -/
  | shared (m : Member)
  /-- What one thing can be asked. -/
  | own (m : Member) (bearer : Subject)
  /-- A kind with an argument. -/
  | narrowed (k : Kind) (argument : Key)
  deriving DecidableEq, Repr

namespace Subject

/-- The kind of a subject. -/
def kindOf : Subject → Kind
  | text _ => .text
  | number _ => .number
  | truth _ => .truth
  | nothing => .nothing
  | kind _ => .kind
  | kinds _ | single _ => .list
  | entries _ => .view
  | empty => .record
  | shared m => match m.entry.sort with
    | .operation => .sharedOperation
    | .kindMethod => .kindMethod
    | .freeMethod => .freeMethod
    | .reading => .reading
    | .field => .field
    | .method | .maker | .note | .absent => .sharedMethod
  | own m _ => if m.entry.sort = .operation then .operation else .method
  | narrowed _ _ => .narrowed

/-- Why a subject has no such part, item or layout. -/
inductive Error where
  /-- Nothing belongs to the subject under that name. -/
  | noPart (s : Subject) (name : Text)
  /-- The kind does not tell what has that name. -/
  | untold (name : Text)
  /-- The subject has fewer items. -/
  | noItem (s : Subject)
  /-- There is no entry under the key. -/
  | noEntry (key : Key)
  /-- The items of the subject have numbers and no names. -/
  | notANumber (s : Subject)
  /-- The subject has no items. -/
  | notAList (s : Subject)
  /-- The subject is a kind that has its argument already. -/
  | narrowedAlready (s : Subject)
  /-- The subject cannot be laid out. -/
  | noLayout (s : Subject)
  deriving DecidableEq, Repr

/-! ## Subjects as texts -/

/-- A kind as it is shown. -/
def shownKind (k : Kind) : Text := "<class '".toList ++ k.fullName.toList ++ "'>".toList

/-- A method that is bound to a thing of a kind. -/
def shownMethod (m : Member) (bearer : Kind) : Text :=
  "<built-in method ".toList ++ m.name ++ " of ".toList ++ bearer.fullName.toList ++ " object>".toList

/-- What things of a kind share, as it is shown. -/
def shownMember (m : Member) : Text :=
  let shown (sort : String) : Text :=
    '<' :: sort.toList ++ " '".toList ++ m.name ++ "' of '".toList ++ m.owner.fullName.toList ++
      "' objects>".toList
  match m.entry.sort with
  | .operation => shown "slot wrapper"
  | .reading => shown "attribute"
  | .field => shown "member"
  | .freeMethod => "<staticmethod(".toList ++ shownMethod m .kind ++ ")>".toList
  | .maker => shownMethod m .kind
  | .method | .kindMethod => shown "method"
  | .note => Text.quoted (m.account?.getD [])
  | .absent => "None".toList

/-- The entries of a kind as they are shown. -/
def shownEntries (k : Kind) : Text :=
  '{' :: Text.joinWith ", ".toList (k.entries.map fun e =>
    Text.quoted e.name.toList ++ ": ".toList ++ shownMember ⟨k, e⟩) ++ ['}']

/-- The subject as a text. -/
def shown : Subject → Text
  | text t => t
  | number n => Text.ofNat n
  | truth b => (if b then "True" else "False").toList
  | nothing => "None".toList
  | kind k => shownKind k
  | kinds [k] => '(' :: shownKind k ++ ",)".toList
  | kinds ks => '(' :: Text.joinWith ", ".toList (ks.map shownKind) ++ [')']
  | single key => '(' :: key.quoted ++ ",)".toList
  | entries k => shownEntries k
  | empty => ['{', '}']
  | shared m => shownMember m
  | own m bearer =>
    if m.entry.sort = .operation then
      "<method-wrapper '".toList ++ m.name ++ "' of ".toList ++ bearer.kindOf.fullName.toList ++
        " object>".toList
    else shownMethod m bearer.kindOf
  | narrowed k key => k.name.toList ++ '[' :: key.quoted ++ [']']

/-- The subject as a text in which a text stands in quotation marks. -/
def quoted : Subject → Text
  | text t => Text.quoted t
  | entries k => "mappingproxy(".toList ++ shownEntries k ++ [')']
  | s => s.shown

/-- The error in words. -/
def Error.message : Error → Text
  | noPart s name =>
    (match s with
     | .kind k => "type object '".toList ++ k.fullName.toList ++ ['\'']
     | s => '\'' :: s.kindOf.fullName.toList ++ "' object".toList) ++
    " has no attribute '".toList ++ name ++ ['\'']
  | untold name => name
  | noItem s =>
    (match s with
     | .text _ => "string index out of range"
     | _ => "tuple index out of range").toList
  | noEntry key => key.quoted
  | notANumber s =>
    (match s with
     | .text _ => "string indices must be integers, not 'str'"
     | _ => "tuple indices must be integers or slices, not str").toList
  | notAList s =>
    (match s with
     | .kind k => "type '".toList ++ k.fullName.toList ++ ['\'']
     | s => '\'' :: s.kindOf.fullName.toList ++ "' object".toList) ++ " is not subscriptable".toList
  | narrowedAlready s => s.shown ++ " is not a generic class".toList
  | noLayout s =>
    "unsupported format string passed to ".toList ++ s.kindOf.fullName.toList ++ ".__format__".toList

/-! ## Parts -/

/-- The text, or nothing. -/
def ofText? : Option Text → Subject
  | some t => text t
  | none => nothing

/-- What stands in the list of a kind for a member. -/
def ofMember (m : Member) : Subject :=
  match m.entry.sort with
  | .note => text (m.account?.getD [])
  | .absent => nothing
  | .maker => own m (kind m.owner)
  | _ => shared m

/-- What a kind answers for a member of its things. -/
def atKind (k : Kind) (m : Member) : Subject :=
  match m.entry.sort with
  | .kindMethod => own m (kind k)
  | .freeMethod => own m (kind m.owner)
  | _ => ofMember m

/-- What a thing answers for a member that is not read. -/
def atThing (s : Subject) (m : Member) : Subject :=
  match m.entry.sort with
  | .operation | .method => own m s
  | _ => atKind s.kindOf m

/-- The account that a kind gives of itself. -/
def accountOf (k : Kind) : Subject :=
  match k with
  | .kind => text (Text.unlines ["type(object) -> the object's type".toList,
      "type(name, bases, dict, **kwds) -> a new type".toList])
  | k => match k.ownMember? "__doc__".toList with
    | some m => ofMember m
    | none => nothing

/-- What a kind tells of itself. -/
def readKind? (k : Kind) : String → Option Subject
  | "__name__" | "__qualname__" => some (text k.name.toList)
  | "__module__" => some (text k.home.toList)
  | "__mro__" => some (kinds k.ancestry)
  | "__bases__" => some (kinds k.parent?.toList)
  | "__base__" => some (k.parent?.elim nothing kind)
  | "__text_signature__" => some (ofText? (k.signature?.map String.toList))
  | "__doc__" => some (accountOf k)
  | "__dict__" => some (entries k)
  | "__basicsize__" => some (number k.figures.size)
  | "__itemsize__" => some (number k.figures.itemSize)
  | "__flags__" => some (number k.figures.marks)
  | "__weakrefoffset__" => some (number k.figures.watchersAt)
  | "__dictoffset__" => some (number k.figures.recordAt)
  | _ => none

/-- What a whole number tells of itself: it is a fraction and a complex number as well. -/
def readNumber? (n : Nat) : String → Option Subject
  | "real" | "numerator" => some (number n)
  | "imag" => some (number 0)
  | "denominator" => some (number 1)
  | _ => none

/-- What a member tells of itself. -/
def readMember? (m : Member) : String → Option Subject
  | "__name__" => some (text m.name)
  | "__qualname__" => some (text (m.nameIn m.owner))
  | "__objclass__" => some (kind m.owner)
  | "__doc__" => some (ofText? m.account?)
  | "__text_signature__" => some (ofText? (m.entry.signature.map String.toList))
  | _ => none

/-- What a method that belongs to no thing tells of itself. -/
def readFree? (m : Member) : String → Option Subject
  | "__func__" | "__wrapped__" => some (own m (kind m.owner))
  | "__isabstractmethod__" => some (truth false)
  | "__dict__" => some empty
  | _ => none

/-- What an operation of a thing tells of itself. -/
def readOperation? (m : Member) (bearer : Subject) : String → Option Subject
  | "__self__" => some bearer
  | name => readMember? m name

/-- What a method of a thing tells of itself. It is named after its bearer. -/
def readMethod? (m : Member) (bearer : Subject) : String → Option Subject
  | "__self__" => some (if m.entry.sort = .freeMethod then nothing else bearer)
  | "__module__" => some nothing
  | "__qualname__" => some (text (m.nameIn (match bearer with
      | kind k => k
      | s => s.kindOf)))
  | name => readMember? m name

/-- What a kind with an argument tells of itself. -/
def readNarrowed? (k : Kind) (argument : Key) : String → Option Subject
  | "__origin__" => some (kind k)
  | "__args__" => some (single argument)
  | "__parameters__" => some (kinds [])
  | "__unpacked__" => some (truth false)
  | "__typing_unpacked_tuple_args__" => some nothing
  | _ => none

/-- What a subject tells of itself under that name. -/
def read? (s : Subject) (name : String) : Option Subject :=
  if name = "__class__" then some (kind s.kindOf)
  else match s with
    | kind k => readKind? k name
    | number n => readNumber? n name
    | truth b => readNumber? b.toNat name
    | shared m => if m.entry.sort = .freeMethod then readFree? m name else readMember? m name
    | own m bearer =>
      if m.entry.sort = .operation then readOperation? m bearer name else readMethod? m bearer name
    | narrowed k argument => readNarrowed? k argument name
    | text _ | nothing | kinds _ | single _ | entries _ | empty => none

/-- What the subject tells of itself under that name, or why it does not. -/
def read (s : Subject) (name : Text) : Except Error Subject :=
  match s.read? (String.ofList name) with
  | some p => .ok p
  | none => .error (if name = "__abstractmethods__".toList then .untold name else .noPart s name)

/-- What a thing has from its kind. -/
def partOfThing (s : Subject) (name : Text) : Except Error Subject :=
  match s.kindOf.member? name with
  | some m => if m.isRead then s.read name else .ok (s.atThing m)
  | none => .error (.noPart s name)

/-- What belongs to a kind: what it tells of itself, what its things share, and what it has being a kind. -/
def partOfKind (k : Kind) (name : Text) : Except Error Subject :=
  match Kind.kind.member? name, k.member? name with
  | some asKind, shared? =>
    if asKind.isRead then (kind k).read name
    else .ok ((shared?.map (atKind k)).getD ((kind k).atThing asKind))
  | none, some m => .ok (atKind k m)
  | none, none => .error (.noPart (kind k) name)

/-- What a kind with an argument is asked itself; for all else the kind is asked. -/
def narrowedNames : List String :=
  ["__class__", "__origin__", "__args__", "__unpacked__", "__parameters__",
   "__typing_unpacked_tuple_args__", "__mro_entries__", "__reduce_ex__", "__reduce__", "__copy__",
   "__deepcopy__"]

/-- What belongs to the subject under that name. -/
def part (s : Subject) (name : Text) : Except Error Subject :=
  match s with
  | kind k => partOfKind k name
  | narrowed k _ =>
    if narrowedNames.any (·.toList = name) then s.partOfThing name else partOfKind k name
  | s => s.partOfThing name

/-! ## Items -/

/-- The item of that number among `items`. -/
def itemOf (s : Subject) (items : List Subject) : Key → Except Error Subject
  | .name _ => .error (.notANumber s)
  | .index n => match items[n]? with
    | some i => .ok i
    | none => .error (.noItem s)

/-- The subject that a key is. -/
def ofKey : Key → Subject
  | .index n => number n
  | .name t => text t

/-- The entry of that name in the list of a kind. -/
def entryOf (k : Kind) (key : Key) : Except Error Subject :=
  match key with
  | .index _ => .error (.noEntry key)
  | .name t => match k.ownMember? t with
    | some m => .ok (ofMember m)
    | none => .error (.noEntry key)

/-- What stands under a key. -/
def item (s : Subject) (key : Key) : Except Error Subject :=
  match s with
  | text t => s.itemOf (t.map fun c => text [c]) key
  | kinds ks => s.itemOf (ks.map kind) key
  | single k => s.itemOf [ofKey k] key
  | entries k => entryOf k key
  | empty => .error (.noEntry key)
  | kind k => if k.takesArgument then .ok (narrowed k key) else .error (.notAList s)
  | narrowed _ _ => .error (.narrowedAlready s)
  | number _ | truth _ | nothing | shared _ | own _ _ => .error (.notAList s)

end Subject

end Emend.Template
