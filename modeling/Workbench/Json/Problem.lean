import Workbench.Json.Printer
import Workbench.Text.Quoted

/-!
# What can be wrong with a JSON text or value

A `Fault` is a breach of the grammar. A `Problem` is a fault or a value that is not what the
reader expects. `Problem.message` has the wording; the place in the text, where there is one, is
added by `Error.message`.
-/
namespace Workbench.Json

/-- Breaches of the grammar. -/
inductive Fault
  | endInList
  | endInObject
  | endInString
  | endInValue
  | noColon
  | noListCommaOrEnd
  | noObjectCommaOrEnd
  | noIdent
  | noValue
  | badEscape
  | badNumber
  | numberTooLarge
  | badCodePoint
  | controlCharacter
  | keyNotString
  | loneSurrogate
  | trailingComma
  | trailingCharacters
  | endOfHexEscape
  | tooDeep
  deriving DecidableEq, Repr

def Fault.message : Fault → String
  | .endInList => "EOF while parsing a list"
  | .endInObject => "EOF while parsing an object"
  | .endInString => "EOF while parsing a string"
  | .endInValue => "EOF while parsing a value"
  | .noColon => "expected `:`"
  | .noListCommaOrEnd => "expected `,` or `]`"
  | .noObjectCommaOrEnd => "expected `,` or `\x7d`"
  | .noIdent => "expected ident"
  | .noValue => "expected value"
  | .badEscape => "invalid escape"
  | .badNumber => "invalid number"
  | .numberTooLarge => "number out of range"
  | .badCodePoint => "invalid unicode code point"
  | .controlCharacter => "control character (\\u0000-\\u001F) found while parsing a string"
  | .keyNotString => "key must be a string"
  | .loneSurrogate => "lone leading surrogate in hex escape"
  | .trailingComma => "trailing comma"
  | .trailingCharacters => "trailing characters"
  | .endOfHexEscape => "unexpected end of hex escape"
  | .tooDeep => "recursion limit exceeded"

/-- What was found in place of what was expected. -/
inductive Found
  | null
  | bool (value : Bool)
  | number (value : Number)
  | string (value : String)
  | sequence
  | map
  | unitVariant
  deriving DecidableEq, Repr

def Found.message : Found → String
  | .null => "null"
  | .bool b => if b then "boolean `true`" else "boolean `false`"
  | .number (.int n) => s!"integer `{n}`"
  | .number (.float x) => s!"floating point `{writeFloat x}`"
  | .string s => s!"string {Text.quoted s}"
  | .sequence => "sequence"
  | .map => "map"
  | .unitVariant => "unit variant"

/-- The kind of a value. -/
def found : Json → Found
  | .null => .null
  | .bool b => .bool b
  | .num n => .number n
  | .str s => .string s
  | .arr _ => .sequence
  | .obj _ => .map

inductive Problem
  | fault (fault : Fault)
  /-- A value of another kind than the expected one. -/
  | wrongType (found : Found) (expected : String)
  /-- A value of the right kind that the expected type does not have. -/
  | wrongValue (found : Found) (expected : String)
  | wrongLength (length : Nat) (expected : String)
  | unknownVariant (name : String) (known : List String)
  | missingField (name : String)
  | duplicateField (name : String)
  deriving DecidableEq, Repr

def listed (names : List String) : String :=
  ", ".intercalate (names.map fun n => s!"`{n}`")

/-- The wording of the names that would have done. -/
def alternatives : List String → String
  | [] => "there are no variants"
  | [a] => s!"expected `{a}`"
  | [a, b] => s!"expected `{a}` or `{b}`"
  | names => s!"expected one of {listed names}"

def Problem.message : Problem → String
  | .fault f => f.message
  | .wrongType f expected => s!"invalid type: {f.message}, expected {expected}"
  | .wrongValue f expected => s!"invalid value: {f.message}, expected {expected}"
  | .wrongLength n expected => s!"invalid length {n}, expected {expected}"
  | .unknownVariant name known => s!"unknown variant `{name}`, {alternatives known}"
  | .missingField name => s!"missing field `{name}`"
  | .duplicateField name => s!"duplicate field `{name}`"

/-- A place in a text: lines count from 1, columns are the bytes since the last line feed. -/
structure Place where
  line : Nat
  column : Nat
  deriving DecidableEq, Repr

/-- A problem and, where it is known, the place where it shows. -/
structure Error where
  problem : Problem
  place : Option Place
  deriving DecidableEq, Repr

def Error.message (e : Error) : String :=
  match e.place with
  | none => e.problem.message
  | some p => s!"{e.problem.message} at line {p.line} column {p.column}"

end Workbench.Json
