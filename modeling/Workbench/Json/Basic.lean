import Workbench.Binary64.Basic

/-!
# JSON values

A number is an integer of at most 64 bits or a binary64 number; the members of an object are a
list, in the order in which they are written. A value that was read without a type in mind has its
members sorted by name, each name once.
-/
namespace Workbench

/-- Numbers keep the distinction between integers and others that their text makes. -/
inductive Json.Number
  | int (value : Int)
  | float (value : Binary64)
  deriving DecidableEq, Repr

inductive Json
  | null
  | bool (value : Bool)
  | num (value : Json.Number)
  | str (value : String)
  | arr (items : List Json)
  | obj (members : List (String × Json))
  deriving Repr

namespace Json

/-- The integers that a number holds as such: those of 64 bits, signed or unsigned. -/
def Number.Whole (n : Int) : Prop := -0x8000000000000000 ≤ n ∧ n < 0x10000000000000000

instance (n : Int) : Decidable (Number.Whole n) :=
  inferInstanceAs (Decidable (_ ∧ _))

def ofInt (n : Int) : Json := .num (.int n)

/-- A member of an object. -/
def get? (name : String) : Json → Option Json
  | .obj members => members.lookup name
  | _ => none

def str? : Json → Option String
  | .str s => some s
  | _ => none

def int? : Json → Option Int
  | .num (.int n) => some n
  | _ => none

def isNull : Json → Bool
  | .null => true
  | _ => false

/-- An association list with `value` under `name`: in the place of an entry of this name, or else
before the first entry of a later name. -/
def insert {α : Type} (name : String) (value : α) : List (String × α) → List (String × α)
  | [] => [(name, value)]
  | (n, v) :: rest =>
    if name < n then (name, value) :: (n, v) :: rest
    else if name = n then (name, value) :: rest
    else (n, v) :: insert name value rest

mutual

/-- How many arrays and objects are open at the deepest point of the text of a value. -/
def depth : Json → Nat
  | .arr items => 1 + depthItems items
  | .obj members => 1 + depthMembers members
  | _ => 0

def depthItems : List Json → Nat
  | [] => 0
  | v :: rest => max (depth v) (depthItems rest)

def depthMembers : List (String × Json) → Nat
  | [] => 0
  | (_, v) :: rest => max (depth v) (depthMembers rest)

end

end Json

end Workbench
