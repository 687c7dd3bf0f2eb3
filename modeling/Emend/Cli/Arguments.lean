import Emend.Cli.Options
import Emend.Edit.Operation

/-!
# The command line

The four commands and the options that all of them share. `Arguments.ofList` reads an argument list:
first the shared options up to the name of a command, then the command's own.
-/

namespace Emend.Cli

/-- What the program is asked to do. -/
inductive Command where
  /-- List the instructions in a message. -/
  | parse (message : Text)
  /-- Show the diff that each file would receive. -/
  | preview (message : Text) (context : Int) (only : Option (List Int))
  /-- Write the edited files back to the store. -/
  | apply (message : Text) (only : Option (List Int)) (commitMessage : Option Text)
  /-- List or clear the history. -/
  | history (clears : Bool) (limit : Option Int) (showsChanges : Bool)
  deriving DecidableEq, Repr

/-- What was given on the command line. -/
structure Arguments where
  config : Option Text := none
  store : Option Text := none
  root : Option Text := none
  repository : Option Text := none
  ref : Option Text := none
  anchorMode : Option Text := none
  fileTag : Option Text := none
  log : Bool := false
  logDir : Option Text := none
  command : Command
  deriving DecidableEq, Repr

/-- A fault in an argument list, and the command that reports it. -/
structure UsageError where
  program : Text
  fault : UsageFault
  deriving DecidableEq, Repr

/-- The error on one line. -/
def UsageError.line (e : UsageError) : Text := e.program ++ ": error: ".toList ++ e.fault.message

/-- What an argument list asks for: a command, or help about the program or one of its commands. -/
inductive Request where
  | run (a : Arguments)
  | help (program : Text)
  deriving DecidableEq, Repr

/-- The program's name. -/
def programName : Text := "patchflow".toList

/-- The options that ask for help. -/
def helpOptions : List CommandOption :=
  ["-h", "--help"].map fun name =>
    { name, arity := .zero, title := "-h/--help", endsReading := true }

/-- The options that all commands share. -/
def sharedGrammar : Grammar where
  options := helpOptions ++
    [{ name := "--config" }, { name := "--store", kind := .choice ["local", "git", "github"] },
     { name := "--root" }, { name := "--repository" }, { name := "--ref" },
     { name := "--anchor-mode", kind := .choice (AnchorPolicy.all.map (·.name)) },
     { name := "--file-tag" }, { name := "--log", arity := .zero }, { name := "--log-dir" }]
  positional := some "command"
  endsAtPositional := true

/-- The options of the command that lists instructions. -/
def parseGrammar : Grammar := { options := helpOptions, positional := some "message" }

/-- The option that selects instructions. -/
def onlyOption : CommandOption := { name := "--only", arity := .many, kind := .int }

/-- The options of the command that shows diffs. -/
def previewGrammar : Grammar where
  options := helpOptions ++ [{ name := "--context", kind := .int }, onlyOption]
  positional := some "message"

/-- The options of the command that writes files. -/
def applyGrammar : Grammar where
  options := helpOptions ++ [onlyOption, { name := "--commit-git" }]
  positional := some "message"

/-- The options of the command for the history. -/
def historyGrammar : Grammar where
  options := helpOptions ++
    [{ name := "--clear", arity := .zero }, { name := "--limit", kind := .int },
     { name := "--changes", arity := .zero }]

/-- How many unchanged lines are shown around changes when nothing is said. -/
def standardContext : Int := 3

/-- The commands: their names, their options, and what was asked for. -/
def commands : List (String × Grammar × (Grammar.Given → Command)) :=
  [("parse", parseGrammar, fun g => .parse (g.positional.getD [])),
   ("preview", previewGrammar, fun g =>
     .preview (g.positional.getD []) ((g.int? "--context").getD standardContext) (g.ints? "--only")),
   ("apply", applyGrammar, fun g =>
     .apply (g.positional.getD []) (g.ints? "--only") (g.text? "--commit-git")),
   ("history", historyGrammar, fun g =>
     .history (g.has "--clear") (g.int? "--limit") (g.has "--changes"))]

/-- The arguments that the shared options and a command give. -/
def Arguments.ofGiven (g : Grammar.Given) (command : Command) : Arguments where
  config := g.text? "--config"
  store := g.text? "--store"
  root := g.text? "--root"
  repository := g.text? "--repository"
  ref := g.text? "--ref"
  anchorMode := g.text? "--anchor-mode"
  fileTag := g.text? "--file-tag"
  log := g.has "--log"
  logDir := g.text? "--log-dir"
  command

/-- Reads an argument list by the grammar of a program. -/
def readAs (program : Text) (g : Grammar) (args : List Text) : Except UsageError Grammar.Given :=
  (g.read args).mapError fun f => ⟨program, f⟩

/-- What an argument list asks for. -/
def Request.ofList (args : List Text) : Except UsageError Request := do
  let shared ← readAs programName sharedGrammar args
  if shared.isCutShort then return .help programName
  else
    let name := shared.positional.getD []
    match commands.find? (·.1.toList = name) with
    | none =>
      .error ⟨programName, .notChoice "command".toList name (commands.map (·.1))⟩
    | some (command, grammar, make) =>
      let program := programName ++ ' ' :: command.toList
      let own ← readAs program grammar shared.rest
      if own.isCutShort then return .help program
      else match shared.extras ++ own.extras with
        | [] => return .run (Arguments.ofGiven shared (make own))
        | extras => .error ⟨programName, .unrecognized extras⟩

end Emend.Cli
