import Emend.Text.Integer
import Emend.Text.Quoted

/-!
# Argument lists

A `Grammar` says which options a command takes and which positional argument it needs. `Grammar.read`
reads an argument list by it: what was given, in order, and what was left over.

An option may be abbreviated as long as its beginning is that of one option only, and its argument may
follow behind an equals sign. Behind `--` nothing is an option. A negative number is no option, and
neither is a text with a blank in it that does not begin like one.
-/

namespace Emend.Cli

/-- How many arguments an option takes. -/
inductive Arity where
  | zero
  | one
  | many
  deriving DecidableEq, Repr

/-- What an argument has to be. -/
inductive Kind where
  | text
  | int
  | choice (names : List String)
  deriving DecidableEq, Repr

/-- An argument that was read. -/
inductive Argument where
  | text (t : Text)
  | int (i : Int)
  deriving DecidableEq, Repr

/-- An option. -/
structure CommandOption where
  name : String
  arity : Arity := .one
  kind : Kind := .text
  /-- The option in reports. -/
  title : String := name
  /-- What follows the option in an argument list is not read. -/
  endsReading : Bool := false
  deriving DecidableEq, Repr

/-- What is wrong with an argument list. -/
inductive UsageFault where
  | notInt (argument value : Text)
  | notChoice (argument value : Text) (choices : List String)
  | lacksOne (argument : Text)
  | lacksSome (argument : Text)
  | takesNone (argument value : Text)
  | ambiguous (given : Text) (candidates : List Text)
  | missing (argument : Text)
  | unrecognized (arguments : List Text)
  deriving DecidableEq, Repr

/-- The fault in words. -/
def UsageFault.message : UsageFault → Text
  | notInt a v => "argument ".toList ++ a ++ ": invalid int value: ".toList ++ Text.quoted v
  | notChoice a v cs =>
    "argument ".toList ++ a ++ ": invalid choice: ".toList ++ Text.quoted v ++
      " (choose from ".toList ++
      Text.joinWith ", ".toList (cs.map fun c => Text.quoted c.toList) ++ [')']
  | lacksOne a => "argument ".toList ++ a ++ ": expected one argument".toList
  | lacksSome a => "argument ".toList ++ a ++ ": expected at least one argument".toList
  | takesNone a v => "argument ".toList ++ a ++ ": ignored explicit argument ".toList ++ Text.quoted v
  | ambiguous given cs =>
    "ambiguous option: ".toList ++ given ++ " could match ".toList ++
      Text.joinWith ", ".toList cs
  | missing a => "the following arguments are required: ".toList ++ a
  | unrecognized as => "unrecognized arguments: ".toList ++ Text.joinWith [' '] as

/-- The options of a command and its positional argument. -/
structure Grammar where
  options : List CommandOption
  /-- The name of the positional argument. -/
  positional : Option String := none
  /-- The positional argument is a command, to which all that follows belongs. -/
  endsAtPositional : Bool := false

/-- What an element of an argument list is. -/
inductive Word where
  /-- The text `--`. -/
  | separator (t : Text)
  | plain (t : Text)
  /-- An option with the argument behind its equals sign. -/
  | option (o : CommandOption) (value : Option Text)
  /-- Something that begins like an option and is none. -/
  | stray (t : Text)
  deriving DecidableEq, Repr

namespace Word

/-- The argument that the word is, if it is one. -/
def plain? : Word → Option Text
  | plain t => some t
  | _ => none

/-- The word is an option or begins like one. -/
def isOption : Word → Bool
  | option _ _ | stray _ => true
  | separator _ | plain _ => false

end Word

namespace Grammar

/-- A text and what stands behind its first equals sign. -/
def splitValue (t : Text) : Text × Option Text :=
  match t.dropWhile (· != '=') with
  | [] => (t, none)
  | _ :: v => (t.takeWhile (· != '='), some v)

/-- The options that a text abbreviates. With one hyphen in front, an option of one letter may be
followed by its argument. -/
def candidates (g : Grammar) (t : Text) : List (CommandOption × Option Text) :=
  match t with
  | '-' :: '-' :: _ =>
    let (name, value) := splitValue t
    (g.options.filter fun o => name.isPrefixOf o.name.toList).map (·, value)
  | '-' :: c :: rest =>
    g.options.filterMap fun o =>
      if o.name.toList = ['-', c] then some (o, some rest) else none
  | _ => []

/-- The text is a negative number. A line feed may stand behind it. -/
def isNegativeNumber (t : Text) : Bool :=
  let areDigits (t : Text) : Bool := t.all fun c => (Text.decimalDigit? c).isSome
  match if t.getLast? = some '\n' then t.dropLast else t with
  | '-' :: t =>
    let whole := t.takeWhile (· != '.')
    areDigits whole && match t.drop whole.length with
      | [] => !whole.isEmpty
      | _ :: fraction => !fraction.isEmpty && areDigits fraction
  | _ => false

/-- What an element of an argument list before `--` is. -/
def classify (g : Grammar) (t : Text) : Except UsageFault Word :=
  if t.head? != some '-' || t.length = 1 then .ok (.plain t)
  else match g.options.find? (·.name.toList = t) with
    | some o => .ok (.option o none)
    | none =>
      let (name, value) := splitValue t
      match if value.isSome then g.options.find? (·.name.toList = name) else none with
      | some o => .ok (.option o value)
      | none => match g.candidates t with
        | [(o, value)] => .ok (.option o value)
        | [] =>
          if isNegativeNumber t || t.contains ' ' then .ok (.plain t) else .ok (.stray t)
        | os => .error (.ambiguous t (os.map (·.1.name.toList)))

/-- What the elements of an argument list are. -/
def classifyAll (g : Grammar) : List Text → Except UsageFault (List Word)
  | [] => .ok []
  | t :: ts =>
    if t = ['-', '-'] then .ok (.separator t :: ts.map .plain)
    else do
      let w ← g.classify t
      return w :: (← g.classifyAll ts)

/-- The argument that a text is. -/
def argument (name : Text) (k : Kind) (t : Text) : Except UsageFault Argument :=
  match k with
  | .text => .ok (.text t)
  | .int => match Text.int? t with
    | some i => .ok (.int i)
    | none => .error (.notInt name t)
  | .choice names =>
    if names.any (·.toList = t) then .ok (.text t) else .error (.notChoice name t names)

/-- What was given: options with their arguments, the positional argument, and what is left over. -/
structure Given where
  options : List (String × List Argument) := []
  positional : Option Text := none
  /-- What follows the positional argument where that ends the list. -/
  rest : List Text := []
  extras : List Text := []
  /-- An option ended the reading early. -/
  isCutShort : Bool := false

/-- The texts of words. -/
def texts (args : List Text) (ws : List Word) : List Text :=
  args.drop (args.length - ws.length)

/-- Reads what stands behind an option that takes no arguments as more options of that kind, if all of
them have one letter. -/
def readBundle (g : Grammar) (o : CommandOption) : Text → Except UsageFault Unit
  | [] => .error (.takesNone o.title.toList [])
  | c :: t =>
    let fault := UsageFault.takesNone o.title.toList (c :: t)
    if o.name.length ≠ 2 then .error fault
    else match g.options.find? fun o => o.arity = .zero && o.name.toList = ['-', c] with
      | none => .error fault
      | some next => if t.isEmpty then .ok () else g.readBundle next t

/-- The option with its arguments among the words behind it: the arguments, and how many words they
are. -/
def optionArguments (g : Grammar) (o : CommandOption) (value : Option Text) (ws : List Word) :
    Except UsageFault (List Argument × Nat) :=
  let name := o.title.toList
  let following := (ws.takeWhile (·.plain?.isSome)).filterMap (·.plain?)
  match o.arity, value with
  | .zero, none => .ok ([], 0)
  | .zero, some v => do
    g.readBundle o v
    return ([], 0)
  | _, some v => do return ([← argument name o.kind v], 0)
  | .one, none => match following with
    | [] => .error (.lacksOne name)
    | t :: _ => do return ([← argument name o.kind t], 1)
  | .many, none =>
    if following.isEmpty then .error (.lacksSome name)
    else do return (← following.mapM (argument name o.kind), following.length)

/-- Reads the positional argument at the front: the argument and how many words it takes. Separators
around it belong to it. -/
def positionalArgument (ws : List Word) : Option (Text × Nat) :=
  match ws with
  | .separator _ :: .plain t :: _ => some (t, 2)
  | .plain t :: .separator _ :: _ => some (t, 2)
  | .plain t :: _ => some (t, 1)
  | _ => none

/-- Reads words one option or positional argument at a time. Words between options that are neither
are left over. `fuel` bounds the number of words. -/
def readWords (g : Grammar) (args : List Text) :
    (fuel : Nat) → (wantsPositional : Bool) → List Word → Given → Except UsageFault Given
  | 0, _, _, given => .ok given
  | _ + 1, _, [], given => .ok given
  | fuel + 1, wants, w :: ws, given =>
    match w with
    | .option o value => do
      let (as, n) ← g.optionArguments o value ws
      let given := { given with options := given.options ++ [(o.name, as)] }
      if o.endsReading then return { given with isCutShort := true }
      else g.readWords args fuel wants (ws.drop n) given
    | .stray t => g.readWords args fuel wants ws { given with extras := given.extras ++ [t] }
    | _ =>
      match if wants then positionalArgument (w :: ws) else none with
      | some (t, n) =>
        if g.endsAtPositional then
          let all := texts args (w :: ws)
          .ok { given with positional := all.head?, rest := all.tail }
        else
          g.readWords args fuel false ((w :: ws).drop n) { given with positional := some t }
      | none =>
        let skipped := (w :: ws).takeWhile (!·.isOption)
        g.readWords args fuel wants ((w :: ws).drop skipped.length)
          { given with extras := given.extras ++ (texts args (w :: ws)).take skipped.length }

/-- What an argument list gives. -/
def read (g : Grammar) (args : List Text) : Except UsageFault Given := do
  let ws ← g.classifyAll args
  let given ← g.readWords args (args.length + 1) g.positional.isSome ws {}
  match g.positional, given.positional with
  | some name, none => if given.isCutShort then return given else .error (.missing name.toList)
  | _, _ => return given

end Grammar

namespace Grammar.Given

/-- The arguments of the last use of an option. -/
def last? (g : Given) (name : String) : Option (List Argument) :=
  (g.options.reverse.find? (·.1 = name)).map (·.2)

/-- The option was given. -/
def has (g : Given) (name : String) : Bool := (g.last? name).isSome

/-- The text given to an option. -/
def text? (g : Given) (name : String) : Option Text :=
  match g.last? name with
  | some [.text t] => some t
  | _ => none

/-- The number given to an option. -/
def int? (g : Given) (name : String) : Option Int :=
  match g.last? name with
  | some [.int i] => some i
  | _ => none

/-- The numbers given to an option. -/
def ints? (g : Given) (name : String) : Option (List Int) :=
  (g.last? name).map fun as => as.filterMap fun a => match a with
    | .int i => some i
    | .text _ => none

end Grammar.Given

end Emend.Cli
