import Workbench.Toml.Scalar
import Workbench.Toml.Section

/-!
# Reading TOML

A document is a sequence of lines, each with a header, a key and its value, a comment or nothing;
values may go over several lines. A document with a fault anywhere has no value at all.
-/
namespace Workbench.Toml

/-- Takes characters from the front of a text, if they are what is expected. -/
abbrev Scan (α : Type) := StateT (List Char) Option α

namespace Scan

def fail {α : Type} : Scan α := fun _ => none

def peek : Scan (Option Char) := fun cs => some (cs.head?, cs)

/-- The given character. -/
def char (c : Char) : Scan Unit
  | d :: cs => if d = c then some ((), cs) else none
  | [] => none

/-- The longest run of characters of the class `p`. -/
def many (p : Char → Bool) : Scan (List Char) := fun cs => some (cs.span p)

/-- The given characters, if they come next. -/
def accept (word : String) : Scan Bool := fun cs =>
  if word.toList.isPrefixOf cs then some (true, cs.drop word.length) else some (false, cs)

end Scan

open Scan

/-! ## Blanks and comments -/

def skipBlanks : Scan Unit := do let _ ← many fun c => c == ' ' || c == '\t'

/-- A control character that may stand neither in a comment nor in a text. -/
def isControl (c : Char) : Bool := (c.toNat < 0x20 && c != '\t') || c.toNat == 0x7F

def skipComment : Scan Unit := do
  if ← accept "#" then
    let _ ← many (!isControl ·)

/-- A line end, or nothing where the document ends. -/
def lineEnd : Scan Unit := do
  if ← accept "\r\n" then return ()
  match ← peek with
  | none => return ()
  | some _ => char '\n'

/-- Nothing but a comment up to the end of the line. -/
def restOfLine : Scan Unit := do
  skipBlanks
  skipComment
  lineEnd

/-- Blanks, line ends and comments, at most as many as there are characters. -/
def skipSpace : Nat → Scan Unit
  | 0 => return ()
  | fuel + 1 => do
    let _ ← many fun c => c == ' ' || c == '\t' || c == '\n'
    if ← accept "\r\n" then skipSpace fuel
    else
      match ← peek with
      | some '#' => do
        skipComment
        match ← peek with
        | none => return ()
        | some _ => do
          lineEnd
          skipSpace fuel
      | _ => return ()

/-- Blanks, line ends and comments. -/
def skipLines : Scan Unit := fun cs => skipSpace (cs.length + 1) cs

/-! ## Texts -/

/-- The character whose code has `width` hexadecimal digits. -/
def codePoint (width : Nat) : Scan Char := fun cs =>
  let digits := cs.take width
  let n := valueIn 16 digits
  if digits.length = width ∧ digits.all isHexDigit ∧ n < 0x110000 ∧ ¬(0xD800 ≤ n ∧ n < 0xE000) then
    some (Char.ofNat n, cs.drop width)
  else none

/-- What follows a backslash. -/
def escape : Scan Char := fun cs =>
  match cs with
  | 'b' :: cs => some ('\x08', cs)
  | 't' :: cs => some ('\t', cs)
  | 'n' :: cs => some ('\n', cs)
  | 'f' :: cs => some ('\x0c', cs)
  | 'r' :: cs => some ('\r', cs)
  | 'e' :: cs => some ('\x1b', cs)
  | '"' :: cs => some ('"', cs)
  | '\\' :: cs => some ('\\', cs)
  | 'x' :: cs => codePoint 2 cs
  | 'u' :: cs => codePoint 4 cs
  | 'U' :: cs => codePoint 8 cs
  | _ => none

/-- The rest of a text between single marks, given the characters so far in reverse. -/
def lineText (quote : Char) (escapes : Bool) : Nat → List Char → Scan String
  | 0, _ => fail
  | fuel + 1, acc => fun cs =>
    match cs with
    | [] => none
    | c :: cs =>
      if c = quote then some (String.ofList acc.reverse, cs)
      else if isControl c then none
      else if c = '\\' ∧ escapes then do
        let (d, cs) ← escape cs
        lineText quote escapes fuel (d :: acc) cs
      else lineText quote escapes fuel (c :: acc) cs

/-- What a backslash at the end of a line hides: blanks and line ends up to the next character. -/
def foldedLine (cs : List Char) : Option (List Char) :=
  let rest := cs.dropWhile fun c => c == ' ' || c == '\t'
  match rest with
  | '\n' :: _ => some (rest.dropWhile fun c => c == ' ' || c == '\t' || c == '\n' || c == '\r')
  | '\r' :: '\n' :: _ =>
    some (rest.dropWhile fun c => c == ' ' || c == '\t' || c == '\n' || c == '\r')
  | _ => none

/-- The rest of a text between threefold marks. Up to two marks may stand before those that end
it. -/
def blockText (quote : Char) (escapes : Bool) : Nat → List Char → Scan String
  | 0, _ => fail
  | fuel + 1, acc => fun cs =>
    match cs with
    | [] => none
    | '\r' :: '\n' :: cs => blockText quote escapes fuel ('\n' :: acc) cs
    | '\n' :: cs => blockText quote escapes fuel ('\n' :: acc) cs
    | c :: rest =>
      if c = quote then
        let marks := (cs.takeWhile (· == quote)).length
        if marks < 3 then blockText quote escapes fuel (c :: acc) rest
        else if marks ≤ 5 then
          some (String.ofList ((List.replicate (marks - 3) quote ++ acc).reverse), cs.drop marks)
        else none
      else if isControl c then none
      else if c = '\\' ∧ escapes then
        match foldedLine rest with
        | some rest => blockText quote escapes fuel acc rest
        | none => do
          let (d, rest) ← escape rest
          blockText quote escapes fuel (d :: acc) rest
      else blockText quote escapes fuel (c :: acc) rest

/-- The first line end of a text of several lines does not belong to it. -/
def dropLineEnd : List Char → List Char
  | '\n' :: cs => cs
  | '\r' :: '\n' :: cs => cs
  | cs => cs

/-- A text on one line. -/
def plainText : Scan String := fun cs =>
  match cs with
  | '"' :: cs => lineText '"' true (cs.length + 1) [] cs
  | '\'' :: cs => lineText '\'' false (cs.length + 1) [] cs
  | _ => none

def text : Scan String := fun cs =>
  match cs with
  | '"' :: '"' :: '"' :: rest => blockText '"' true (rest.length + 1) [] (dropLineEnd rest)
  | '\'' :: '\'' :: '\'' :: rest => blockText '\'' false (rest.length + 1) [] (dropLineEnd rest)
  | _ => plainText cs

/-! ## Keys -/

def isKeyChar (c : Char) : Bool := c.isAlphanum || c == '-' || c == '_'

def simpleKey : Scan String := do
  match ← peek with
  | some '"' => plainText
  | some '\'' => plainText
  | _ =>
    let name ← many isKeyChar
    if name = [] then fail else return String.ofList name

/-- The names of a key between dots, at most as many as there are characters. -/
def keyParts : Nat → Scan (List String)
  | 0 => fail
  | fuel + 1 => do
    skipBlanks
    let name ← simpleKey
    skipBlanks
    if ← accept "." then return name :: (← keyParts fuel) else return [name]

def key : Scan (List String) := fun cs => keyParts (cs.length + 1) cs

/-! ## Values -/

def isWordChar (c : Char) : Bool :=
  c.isAlphanum || c == '+' || c == '-' || c == '_' || c == '.' || c == ':'

/-- A word, which may be a date and a time with a blank between them. -/
def word : Scan Toml := do
  let w ← many isWordChar
  let w ←
    if isDate w then do
      let rest ← get
      match rest with
      | ' ' :: c :: _ =>
        if c.isDigit then do
          char ' '
          pure (w ++ ' ' :: (← many isWordChar))
        else pure w
      | _ => pure w
    else pure w
  match word? w with
  | some v => return v
  | none => fail

/-- Items up to the bracket that closes an array. -/
def arrayItems (item : Scan Toml) : Nat → Scan (List Toml)
  | 0 => fail
  | fuel + 1 => do
    skipLines
    if ← accept "]" then return []
    let v ← item
    skipLines
    if ← accept "," then return v :: (← arrayItems item fuel)
    char ']'
    return [v]

/-- Entries up to the brace that closes a table. -/
def inlineEntries (item : Scan Toml) : Nat → Entries → Scan Entries
  | 0, _ => fail
  | fuel + 1, es => do
    skipLines
    if ← accept "\x7d" then return es
    let path ← key
    char '='
    skipBlanks
    let v ← item
    match Entries.add v path es with
    | none => fail
    | some es =>
      skipLines
      if ← accept "," then inlineEntries item fuel es
      else
        char '\x7d'
        return es

/-- A value. Each collection that opens takes a character, so `fuel` is never spent. -/
def valueUpTo : Nat → Scan Toml
  | 0 => fail
  | fuel + 1 => do
    match ← peek with
    | some '"' => return .string (← text)
    | some '\'' => return .string (← text)
    | some '[' =>
      char '['
      return .array (← arrayItems (valueUpTo fuel) (fuel + 1))
    | some '\x7b' =>
      char '\x7b'
      return .table (entriesToToml (← inlineEntries (valueUpTo fuel) (fuel + 1) []))
    | _ => word

def value : Scan Toml := fun cs => valueUpTo (cs.length + 1) cs

/-! ## Documents -/

/-- A document in the making: all tables and the keys of the one that is open. -/
structure Draft where
  tables : Entries
  current : List String

/-- The path of a header between its brackets. -/
def header (close : String) : Scan (List String) := do
  let path ← key
  if ← accept close then
    restOfLine
    return path
  else fail

def lift {α : Type} (a : Option α) : Scan α := fun cs => a.map fun a => (a, cs)

/-- One line, or as many as its value takes. -/
def line (d : Draft) : Scan Draft := do
  skipBlanks
  match ← peek with
  | none => return d
  | some '#' => do restOfLine; return d
  | some '\n' => do restOfLine; return d
  | some '\r' => do restOfLine; return d
  | some '[' =>
    if ← accept "[[" then
      let path ← header "]]"
      let tables ← lift (d.tables.within (Entries.openItem (path.getLastD "")) path.dropLast)
      return ⟨tables, path⟩
    else
      char '['
      let path ← header "]"
      let tables ← lift (d.tables.within (Entries.openTable (path.getLastD "")) path.dropLast)
      return ⟨tables, path⟩
  | some _ =>
    let path ← key
    char '='
    skipBlanks
    let v ← value
    restOfLine
    return { d with tables := ← lift (d.tables.within (Entries.add v path) d.current) }

def linesUpTo : Nat → Draft → Scan Draft
  | 0, d => return d
  | fuel + 1, d => do
    match ← peek with
    | none => return d
    | some _ => linesUpTo fuel (← line d)

/-- The table that a document is. -/
def parse (document : String) : Option Toml :=
  let cs := document.toList
  let cs := if cs.head? = some '\uFEFF' then cs.tail else cs
  match linesUpTo (cs.length + 1) ⟨[], []⟩ cs with
  | some (d, []) => some (.table (entriesToToml d.tables))
  | _ => none

end Workbench.Toml
