/-!
# Cutting texts

A text is cut at a separator into the parts between its occurrences: one more part than there are
separators, empty ones included.
-/
namespace Workbench.Text

/-- `cs` cut at every `separator`. -/
def splitOn (separator : Char) : List Char → List (List Char)
  | [] => [[]]
  | c :: cs =>
    if c = separator then [] :: splitOn separator cs
    else
      match splitOn separator cs with
      | [] => [[c]]
      | part :: parts => (c :: part) :: parts

/-- The lines of a text. -/
def lines (s : String) : List String := (splitOn '\n' s.toList).map String.ofList

/-- `part` stands somewhere in a list. -/
def hasSublist (part : List Char) : List Char → Bool
  | [] => part.isEmpty
  | c :: cs => part.isPrefixOf (c :: cs) || hasSublist part cs

/-- `part` stands somewhere in `s`. -/
def hasPart (part s : String) : Bool := hasSublist part.toList s.toList

end Workbench.Text
