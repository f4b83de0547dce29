/-!
# Blank characters

A character is blank when it has the `White_Space` property. Names, ids and texts typed by people
are trimmed of blanks at both ends before they are compared or tested for emptiness.
-/
namespace Workbench.Text

/-- The characters of the `White_Space` property. -/
def isBlank (c : Char) : Bool :=
  let n := c.toNat
  (9 ≤ n && n ≤ 13) || n == 0x20 || n == 0x85 || n == 0xA0 || n == 0x1680 ||
    (0x2000 ≤ n && n ≤ 0x200A) || n == 0x2028 || n == 0x2029 || n == 0x202F || n == 0x205F ||
    n == 0x3000

/-- `cs` without the characters of the class `p` at its end. -/
def dropEnd (p : Char → Bool) (cs : List Char) : List Char :=
  (cs.reverse.dropWhile p).reverse

def trimChars (cs : List Char) : List Char :=
  dropEnd isBlank (cs.dropWhile isBlank)

/-- `s` without the blanks at both ends. -/
def trim (s : String) : String :=
  String.ofList (trimChars s.toList)

/-- A text with nothing but blanks in it, the empty one included. -/
def isBlankText (s : String) : Bool :=
  s.toList.all isBlank

/-- `s` without the slashes at its end. -/
def trimSlashes (s : String) : String :=
  String.ofList (dropEnd (· == '/') s.toList)

/-- An optional text, where the empty text counts as absent. -/
def nonEmpty (s : Option String) : Option String :=
  s.filter (· != "")

end Workbench.Text
