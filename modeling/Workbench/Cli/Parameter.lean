/-!
# Parameters of a command line

What a command can be given, and what can be wrong with what it is given. A command has parameters
of its own and subcommands, which take over the parameters that are marked as global.
-/
namespace Workbench.Cli

/-- The values that a parameter takes. -/
inductive Takes
  /-- No value: the parameter is there or not. -/
  | nothing
  | text
  /-- A text that is not empty. -/
  | path
  | oneOf (values : List String)
  deriving DecidableEq, Repr

structure Parameter where
  key : String
  /-- How messages show it. -/
  label : String
  /-- Its long name, without which it has a place of its own on the line. -/
  long : Option String
  short : Option Char
  takes : Takes
  repeatable : Bool
  required : Bool
  /-- The environment variable that stands in for it. -/
  environment : Option String
  fallback : Option String
  deriving DecidableEq, Repr

namespace Parameter

/-- An option with a value. -/
def option (key long label : String) (takes : Takes) : Parameter :=
  ⟨key, "--" ++ long ++ " <" ++ label ++ ">", some long, none, takes, false, false, none, none⟩

/-- An option without a value. -/
def switch (key long : String) : Parameter :=
  ⟨key, "--" ++ long, some long, none, .nothing, false, false, none, none⟩

/-- A required value without a name. -/
def place (key label : String) (takes : Takes) : Parameter :=
  ⟨key, "<" ++ label ++ ">", none, none, takes, false, true, none, none⟩

def isPlace (p : Parameter) : Bool := p.long.isNone

end Parameter

structure CommandSpec where
  name : String
  about : String
  parameters : List Parameter
  /-- The keys of parameters of which exactly one has to be given, if there are any. -/
  alternatives : List String
  subcommands : List CommandSpec

/-- What is wrong with the arguments. -/
inductive UsageError
  /-- Nothing was given to a command that needs more: its purpose is shown. -/
  | nothingGiven (about : String)
  | missingSubcommand (path : String)
  | unknownSubcommand (name : String)
  | unexpectedArgument (argument : String)
  | unexpectedValue (value label : String)
  | missingValue (label : String)
  | invalidValue (value label : String)
  | repeated (label : String)
  | conflict (label : String) (others : List String)
  | missingParameters (labels : List String)
  deriving DecidableEq, Repr

namespace UsageError

def listed (items : List String) : String := String.join (items.map ("\n  " ++ ·))

def message : UsageError → String
  | .nothingGiven about => about
  | .missingSubcommand path => s!"error: '{path}' requires a subcommand but one was not provided"
  | .unknownSubcommand name => s!"error: unrecognized subcommand '{name}'"
  | .unexpectedArgument a => s!"error: unexpected argument '{a}' found"
  | .unexpectedValue v label =>
    s!"error: unexpected value '{v}' for '{label}' found; no more were expected"
  | .missingValue label => s!"error: a value is required for '{label}' but none was supplied"
  | .invalidValue v label => s!"error: invalid value '{v}' for '{label}'"
  | .repeated label => s!"error: the argument '{label}' cannot be used multiple times"
  | .conflict label [other] => s!"error: the argument '{label}' cannot be used with '{other}'"
  | .conflict label others =>
    s!"error: the argument '{label}' cannot be used with:" ++ listed others
  | .missingParameters labels =>
    "error: the following required arguments were not provided:" ++ listed labels

end UsageError

end Workbench.Cli
