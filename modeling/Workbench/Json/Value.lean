import Workbench.Json.Numeral

/-!
# Reading values

`value` reads any value and sorts the members of its objects by name, the last of a name winning.
`skip` passes over a value that nobody asks for. It is more lenient: it takes numbers of any size,
texts with unpaired surrogates and any nesting, and it has fewer ways to name a fault.
-/
namespace Workbench.Json

/-- How many arrays and objects may be open at once. -/
def maxNesting : Nat := 127

/-- A scalar, or what `list` and `object` make of an array or object. -/
def node (list object : Reader Json) : Reader Json := do
  match ← head with
  | .null => nullWord; return .null
  | .true => trueWord; return .bool true
  | .false => falseWord; return .bool false
  | .minus => return .num (← number .minus)
  | .digit => return .num (← number .digit)
  | .quote => return .str (← string)
  | .bracket => list
  | .brace => object
  | .other => Reader.stopPast (.fault .noValue)

/-- A member of an object of any kind, added to those before it. -/
def anyMember (item : Reader Json) (acc : List (String × Json)) (name : String) :
    Reader (List (String × Json)) := do
  colon
  return insert name (← item) acc

/-- Any value in which at most `nesting` arrays and objects are open at once. -/
def value : Nat → Reader Json
  | 0 => node (Reader.stopPast (.fault .tooDeep)) (Reader.stopPast (.fault .tooDeep))
  | nesting + 1 =>
    node (enclosed endOfList do return .arr (← items (value nesting)))
      (enclosed endOfObject do return .obj (← members (anyMember (value nesting)) []))

/-! ## Values that are passed over -/

/-- The items of an array after its opening bracket and the bracket that closes it. -/
def skipItems (item : Reader Unit) : Nat → Bool → Reader Unit
  | 0, _ => Reader.stopPast (.fault .endInList)
  | fuel + 1, first => do
    match ← peek with
    | none => Reader.stopPast (.fault .endInList)
    | some 0x5D => advance
    | some b =>
      if first then item
      else if b = 0x2C then do advance; item
      else Reader.stopPast (.fault .noListCommaOrEnd)
      skipItems item fuel false

def skipName : Reader Unit := do
  match ← peek with
  | some 0x22 => skipString; colon
  | some _ => Reader.stopPast (.fault .keyNotString)
  | none => Reader.stopPast (.fault .endInObject)

/-- The members of an object after its opening brace and the brace that closes it. -/
def skipMembers (item : Reader Unit) : Nat → Bool → Reader Unit
  | 0, _ => Reader.stopPast (.fault .endInObject)
  | fuel + 1, first => do
    match ← peek with
    | none => Reader.stopPast (.fault .endInObject)
    | some 0x7D => advance
    | some b =>
      if first then do skipName; item
      else if b = 0x2C then do advance; skipName; item
      else Reader.stopPast (.fault .noObjectCommaOrEnd)
      skipMembers item fuel false

/-- Passes over a value. Each array or object that opens takes a byte, so `fuel` is never spent. -/
def skipUpTo : Nat → Reader Unit
  | 0 => Reader.stopPast (.fault .endInValue)
  | fuel + 1 => do
    match ← head with
    | .null => nullWord
    | .true => trueWord
    | .false => falseWord
    | .minus => skipNumber .minus
    | .digit => skipNumber .digit
    | .quote => skipString
    | .bracket => advance; skipItems (skipUpTo fuel) (fuel + 1) true
    | .brace => advance; skipMembers (skipUpTo fuel) (fuel + 1) true
    | .other => Reader.stopPast (.fault .noValue)

def skip : Reader Unit := fun s => skipUpTo (s.length + 1) s

/-! ## Whole texts -/

/-- The value that a text holds. -/
def read (text : List UInt8) : Except Error Json :=
  Reader.run (do let v ← value maxNesting; atEnd; return v) text

end Workbench.Json
