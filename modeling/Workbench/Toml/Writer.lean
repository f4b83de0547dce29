import Workbench.Json.Printer
import Workbench.Toml.Basic

/-!
# Writing TOML

A document has its plain values first and then a section for each table, with an empty line before
each section but at the very beginning. Texts are written in the first of these forms that can show
them without an escape: on one line in double marks, on one line in single marks, over several lines
in threefold double marks, over several lines in threefold single marks. A text that no form can
show has its special characters escaped.
-/
namespace Workbench.Toml

/-! ## Texts -/

/-- The length of the longest run of `quote`. -/
def longestRun (quote : Char) (cs : List Char) : Nat :=
  (cs.foldl (fun (longest, run) c => if c = quote then (max longest (run + 1), run + 1) else (longest, 0))
    (0, 0)).1

/-- A character that has to be escaped wherever it stands. -/
def needsCode (c : Char) : Bool :=
  (c.toNat < 0x20 && c != '\t' && c != '\n') || c.toNat == 0x7F

def upperHex (width n : Nat) : List Char :=
  let digits := (Nat.toDigits 16 n).map Char.toUpper
  List.replicate (width - digits.length) '0' ++ digits

/-- A character between double marks. -/
def escaped (multiline : Bool) (c : Char) : List Char :=
  if c = '\\' then ['\\', '\\']
  else if c = '\x08' then ['\\', 'b']
  else if c = '\t' then ['\\', 't']
  else if c = '\n' then (if multiline then ['\n'] else ['\\', 'n'])
  else if c = '\x0c' then ['\\', 'f']
  else if c = '\r' then ['\\', 'r']
  else if needsCode c then '\\' :: 'u' :: upperHex 4 c.toNat
  else [c]

/-- The characters of a text between double marks. A run of more than `allowed` marks, of which
`run` have been written, is broken by an escape. -/
def escapedChars (multiline : Bool) (allowed : Nat) : Nat → List Char → List Char
  | _, [] => []
  | run, c :: cs =>
    if c = '"' then
      if run < allowed then '"' :: escapedChars multiline allowed (run + 1) cs
      else '\\' :: '"' :: escapedChars multiline allowed 0 cs
    else escaped multiline c ++ escapedChars multiline allowed 0 cs

def basicText (cs : List Char) : List Char := '"' :: escapedChars false 0 0 cs ++ ['"']

def literalText (cs : List Char) : List Char := '\'' :: cs ++ ['\'']

/-- A text between threefold marks, on a line of its own if it has several. -/
def framedText (marks : List Char) (lines : Bool) (cs : List Char) : List Char :=
  marks ++ (if lines then ['\n'] else []) ++ cs ++ marks

def writeText (s : String) : String :=
  let cs := s.toList
  let lines := cs.contains '\n'
  let coded := cs.any needsCode
  let double := longestRun '"' cs
  let single := longestRun '\'' cs
  String.ofList <|
    if !coded && !cs.contains '\\' && double == 0 && !lines then basicText cs
    else if !coded && single == 0 && !lines then literalText cs
    else if !coded && !cs.contains '\\' && double ≤ 2 then
      framedText "\"\"\"".toList lines (escapedChars true 2 0 cs)
    else if !coded && single ≤ 2 then framedText "'''".toList lines cs
    else if lines then framedText "\"\"\"".toList lines (escapedChars true 2 0 cs)
    else basicText cs

/-! ## Values -/

def isBareKey (cs : List Char) : Bool :=
  cs ≠ [] && cs.all fun c => c.isAlphanum || c == '-' || c == '_'

def writeKey (k : String) : String := if isBareKey k.toList then k else writeText k

mutual

/-- A value on one line. -/
def writeValue : Toml → String
  | .string s => writeText s
  | .integer n => Json.writeNumber (.int n)
  | .float none => "nan"
  | .float (some x) => Json.writeFloat x
  | .boolean b => if b then "true" else "false"
  | .datetime t => t
  | .array items => "[" ++ writeItems items ++ "]"
  | .table entries => "\x7b" ++ writeInline entries ++ "\x7d"

def writeItems : List Toml → String
  | [] => ""
  | [v] => writeValue v
  | v :: rest => writeValue v ++ ", " ++ writeItems rest

def writeInline : List (String × Toml) → String
  | [] => ""
  | [(k, v)] => " " ++ writeKey k ++ " = " ++ writeValue v ++ " "
  | (k, v) :: rest => " " ++ writeKey k ++ " = " ++ writeValue v ++ "," ++ writeInline rest

end

def writeEntry (k : String) (v : Toml) : String := writeKey k ++ " = " ++ writeValue v ++ "\n"

/-- The entries of a section. -/
def writeEntries (entries : List (String × Toml)) : String :=
  String.join (entries.map fun (k, v) => writeEntry k v)

/-- The blocks of a document: its plain values, if there are any, and its sections. -/
def blocks (entries : List (String × Toml)) : List String :=
  let isTable : String × Toml → Bool := fun
    | (_, .table _) => true
    | _ => false
  let plain := entries.filter (!isTable ·)
  (if plain.isEmpty then [] else [writeEntries plain]) ++
    (entries.filter isTable).map fun
      | (k, .table inner) => "[" ++ writeKey k ++ "]\n" ++ writeEntries inner
      | (k, v) => writeEntry k v

/-- The document of a table whose tables hold only plain values. -/
def write (entries : List (String × Toml)) : String := "\n".intercalate (blocks entries)

end Workbench.Toml
