import Workbench.Cli.Parameter

/-!
# Reading arguments

The arguments are taken from left to right. An argument that begins with a dash is an option, unless
it is a dash only or follows `--`; any other is the value of the option before it, the name of a
subcommand, or the value of the next place. What a parameter has been given is looked at when the
next one comes, so that of two faults the later can win over an unfit value right before it.
-/
namespace Workbench.Cli

/-- Where a value comes from, the weakest first. -/
inductive Source
  | fallback
  | environment
  | line
  deriving DecidableEq, Repr

def Source.rank : Source → Nat
  | .fallback => 0
  | .environment => 1
  | .line => 2

/-- What a parameter has been given. -/
structure Match where
  parameter : Parameter
  values : List String
  source : Source
  deriving DecidableEq, Repr

/-- Why the program is not run. -/
inductive Halt
  | refused (error : UsageError)
  /-- A text has been asked for that does not take a run. -/
  | answered (text : String)
  deriving DecidableEq, Repr

def Halt.fail {α : Type} (e : UsageError) : Except Halt α := .error (.refused e)

/-- Arguments as far as they have been read. -/
structure Progress where
  found : List Match
  /-- The parameter that was read last, and its value if it has one already. -/
  pending : Option (Parameter × List String)
  places : List Parameter
  onlyPlaces : Bool

namespace Progress

def start (c : CommandSpec) : Progress := ⟨[], none, c.parameters.filter (·.isPlace), false⟩

def has (s : Progress) (key : String) : Bool := s.found.any (·.parameter.key == key)

/-- The next argument belongs to the option before it. -/
def awaitsValue (s : Progress) : Bool :=
  match s.pending with
  | some (_, []) => true
  | _ => false

end Progress

/-! ## Values -/

/-- The value is one that the parameter takes. -/
def checkValue (p : Parameter) (v : String) : Except Halt Unit :=
  match p.takes with
  | .nothing => .ok ()
  | .text => .ok ()
  | .path => if v = "" then Halt.fail (.missingValue p.label) else .ok ()
  | .oneOf vs =>
    if vs.contains v then .ok ()
    else if v = "" then Halt.fail (.missingValue p.label)
    else Halt.fail (.invalidValue v p.label)

/-- Adds values to those of a repeatable parameter. -/
def addValues (key : String) (values : List String) (found : List Match) : List Match :=
  found.map fun m => if m.parameter.key = key then { m with values := m.values ++ values } else m

/-- Takes down what a parameter has been given on the line. -/
def commit (p : Parameter) (values : List String) (found : List Match) : Except Halt (List Match) := do
  let seen := found.any (·.parameter.key == p.key)
  if p.takes ≠ .nothing ∧ values = [] then Halt.fail (.missingValue p.label)
  else if seen ∧ ¬p.repeatable then Halt.fail (.repeated p.label)
  else
    for v in values do checkValue p v
    return if seen then addValues p.key values found else found ++ [⟨p, values, .line⟩]

/-- Takes down the parameter that was read last. -/
def settle (s : Progress) : Except Halt Progress := do
  match s.pending with
  | none => return s
  | some (p, values) => return { s with found := ← commit p values s.found, pending := none }

/-- Takes down a parameter with all that belongs to it. -/
def give (s : Progress) (p : Parameter) (values : List String) : Except Halt Progress := do
  let s ← settle s
  return { s with found := ← commit p values s.found }

/-- Takes note of an option whose value is the next argument. -/
def await (s : Progress) (p : Parameter) : Except Halt Progress := do
  return { ← settle s with pending := some (p, []) }

/-! ## Options -/

def aboutText (c : CommandSpec) : String := c.about ++ "\n"

/-- What the help subcommand of `c` answers about the command that the names lead to. -/
def helpOn (c : CommandSpec) : List String → Halt
  | [] => .answered (aboutText c)
  | a :: rest =>
    match c.subcommands.find? (·.name == a) with
    | some child => helpOn child rest
    | none =>
      if a = "help" ∧ c.subcommands.length > 0 ∧ rest = [] then .answered (aboutText c)
      else .refused (.unknownSubcommand a)

/-- An option that asks for a text instead of a run. -/
def readQuestion (c : CommandSpec) (version : Option String) (name : String) : Option Halt :=
  if name = "help" then some (.answered (aboutText c))
  else if name = "version" then version.map .answered
  else none

/-- An option by its long name, perhaps with a value behind an equals sign. -/
def readLong (c : CommandSpec) (version : Option String) (s : Progress) (body : List Char) :
    Except Halt Progress := do
  let (nameChars, attached) := body.span (· != '=')
  let name := String.ofList nameChars
  match c.parameters.find? (·.long == some name) with
  | some p =>
    match p.takes, attached with
    | .nothing, [] => give s p []
    | .nothing, _ :: v => Halt.fail (.unexpectedValue (String.ofList v) p.label)
    | _, [] => await s p
    | _, _ :: v => give s p [String.ofList v]
  | none =>
    match readQuestion c version name, attached with
    | some answer, [] => do let _ ← settle s; .error answer
    | some _, _ :: v => Halt.fail (.unexpectedValue (String.ofList v) ("--" ++ name))
    | none, _ => Halt.fail (.unexpectedArgument ("--" ++ name))

/-- Options by their short names behind one dash, the last one perhaps with its value. -/
def readShort (c : CommandSpec) (version : Option String) : Progress → List Char →
    Except Halt Progress
  | s, [] => .ok s
  | s, ch :: rest =>
    match c.parameters.find? (·.short == some ch) with
    | some p =>
      if p.takes = .nothing then do readShort c version (← give s p []) rest
      else
        match rest with
        | [] => await s p
        | '=' :: v => give s p [String.ofList v]
        | v => give s p [String.ofList v]
    | none =>
      let name := if ch = 'h' then "help" else if ch = 'V' then "version" else ""
      match readQuestion c version name with
      | some answer => do let _ ← settle s; .error answer
      | none => Halt.fail (.unexpectedArgument (String.ofList ['-', ch]))

/-! ## Whole lines -/

/-- What the environment gives to parameters that are not on the line, and what they fall back
to. -/
def fillIn (env : String → Option String) (c : CommandSpec) (found : List Match) :
    Except Halt (List Match) := do
  let absent (found : List Match) (p : Parameter) := !found.any (·.parameter.key == p.key)
  let mut found := found
  for p in c.parameters do
    if absent found p then
      match p.environment.bind env with
      | some v =>
        checkValue p v
        found := found ++ [⟨p, [v], .environment⟩]
      | none => pure ()
  for p in c.parameters do
    if absent found p then
      match p.fallback with
      | some v => found := found ++ [⟨p, [v], .fallback⟩]
      | none => pure ()
  return found

/-- The parameters that are given explicitly. -/
def explicit (found : List Match) : List Match := found.filter (·.source != .fallback)

/-- The alternatives do not go together. -/
def checkConflicts (c : CommandSpec) (found : List Match) : Except Halt Unit :=
  match (explicit found).filter fun m => c.alternatives.contains m.parameter.key with
  | first :: second :: rest =>
    Halt.fail (.conflict first.parameter.label ((second :: rest).map (·.parameter.label)))
  | _ => .ok ()

/-- Everything that a command needs is there. -/
def checkRequired (c : CommandSpec) (found : List Match) : Except Halt Unit :=
  let isGiven (key : String) := (explicit found).any (·.parameter.key == key)
  let missing := c.parameters.filter fun p => p.required && !isGiven p.key
  let choice :=
    if c.alternatives = [] ∨ c.alternatives.any isGiven then []
    else
      let labels := (c.parameters.filter fun p => c.alternatives.contains p.key).map (·.label)
      ["<" ++ "|".intercalate labels ++ ">"]
  match missing.map (·.label) ++ choice with
  | [] => .ok ()
  | labels => Halt.fail (.missingParameters labels)

/-- Looks at what a command has been given once all has been read. -/
def conclude (env : String → Option String) (path : String) (c : CommandSpec) (hasSubcommand : Bool)
    (s : Progress) : Except Halt (List Match) := do
  let s ← settle s
  let found ← fillIn env c s.found
  if c.subcommands.length > 0 ∧ ¬hasSubcommand then
    if explicit found = [] then Halt.fail (.nothingGiven c.about)
    else Halt.fail (.missingSubcommand path)
  else
    checkConflicts c found
    checkRequired c found
    return found

/-- An argument for which there is no place. -/
def surplus {α : Type} (c : CommandSpec) (s : Progress) (a : String) : Except Halt α :=
  if c.subcommands.length > 0 ∧ ¬(s.onlyPlaces ∧ c.subcommands.any (·.name == a)) then
    Halt.fail (.unknownSubcommand a)
  else Halt.fail (.unexpectedArgument a)

/-- One argument that does not name a subcommand. -/
def readArgument (c : CommandSpec) (version : Option String) (s : Progress) (a : String) :
    Except Halt Progress := do
  let readPlain : Except Halt Progress := do
    match s.pending, s.onlyPlaces with
    | some (p, []), false => return { s with pending := some (p, [a]) }
    | _, _ =>
      match s.places with
      | p :: places => return { ← settle s with pending := some (p, [a]), places := places }
      | [] => surplus c s a
  if s.onlyPlaces then readPlain
  else
    match a.toList with
    | ['-', '-'] => return { s with onlyPlaces := true }
    | '-' :: '-' :: body => readLong c version s body
    | ['-'] => readPlain
    | '-' :: body => readShort c version s body
    | _ => readPlain

/-- The names of the commands that were called, and what each was given. -/
structure Reading where
  command : List String
  levels : List (List Match)

/-- Reads the arguments of a command. The version is known to the outermost one only. -/
def readArguments (env : String → Option String) (version : Option String) (path : String)
    (c : CommandSpec) (s : Progress) : List String → Except Halt Reading
  | [] => do return ⟨[], [← conclude env path c false s]⟩
  | a :: rest =>
    let sub :=
      if s.onlyPlaces ∨ s.awaitsValue then none else c.subcommands.find? (·.name == a)
    match sub with
    | some child => do
      let inner ← readArguments env none (path ++ " " ++ child.name) child (Progress.start child) rest
      return ⟨child.name :: inner.command, (← conclude env path c true s) :: inner.levels⟩
    | none =>
      if a = "help" ∧ c.subcommands.length > 0 ∧ ¬s.onlyPlaces ∧ ¬s.awaitsValue then
        .error (helpOn c rest)
      else do readArguments env version path c (← readArgument c version s a) rest

namespace Reading

/-- What a parameter has been given: on the line if possible, and on the innermost level. -/
def match? (r : Reading) (key : String) : Option Match :=
  r.levels.foldl
    (fun best level =>
      match level.find? (·.parameter.key == key), best with
      | none, best => best
      | some m, none => some m
      | some m, some b => if m.source.rank < b.source.rank then some b else some m)
    none

def all (r : Reading) (key : String) : List String := ((r.match? key).map (·.values)).getD []

def get? (r : Reading) (key : String) : Option String := (r.all key).head?

def get (r : Reading) (key : String) : String := (r.get? key).getD ""

def isOn (r : Reading) (key : String) : Bool := (r.match? key).isSome

end Reading

end Workbench.Cli
