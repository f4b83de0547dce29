import Workbench.Text.Split
import Workbench.Text.Width

/-!
# Tables of text

A table is drawn with ASCII characters: a frame around it, a double line below the header and a
single one between rows. Each column is as wide as its widest line, with a blank at both sides; a
cell may have several lines.
-/
namespace Workbench

structure Table where
  header : List String
  rows : List (List String)
  deriving DecidableEq, Repr

namespace Table

def widest (lines : List String) : Nat := (lines.map Text.width).foldl max 0

def cellWidth (cell : String) : Nat := widest (Text.lines cell)

/-- The widths of the columns, given those of the rows before. -/
def maxWidths : List Nat → List Nat → List Nat
  | w :: ws, v :: vs => max w v :: maxWidths ws vs
  | ws, [] => ws
  | [], vs => vs

def widths (t : Table) : List Nat :=
  ((t.header :: t.rows).map (·.map cellWidth)).foldl maxWidths []

/-- A line between rows: one run of `fill` for each column. -/
def rule (left fill between right : String) (widths : List Nat) : String :=
  left ++ between.intercalate (widths.map fun w => String.join (List.replicate (w + 2) fill)) ++ right

/-- A line of a cell, filled up with blanks. -/
def padded (width : Nat) (line : String) : String :=
  " " ++ line ++ String.ofList (List.replicate (width - Text.width line) ' ') ++ " "

/-- The lines of a row. -/
def rowLines (widths : List Nat) (row : List String) : List String :=
  let cells := row.map Text.lines
  let height := (cells.map List.length).foldl max 1
  (List.range height).map fun i =>
    "|" ++ "|".intercalate
      ((widths.zip cells).map fun (w, lines) => padded w (lines[i]?.getD "")) ++ "|"

def bodyLines (widths : List Nat) : List (List String) → List String
  | [] => []
  | [row] => rowLines widths row
  | row :: rest => rowLines widths row ++ rule "|" "-" "+" "|" widths :: bodyLines widths rest

/-- The rows stand one below the other, with a rule between any two of them. -/
theorem bodyLines_eq_intercalate (widths : List Nat) (rows : List (List String)) :
    bodyLines widths rows =
      [rule "|" "-" "+" "|" widths].intercalate (rows.map (rowLines widths)) := by
  match rows with
  | [] => rfl
  | [row] => rw [bodyLines, List.map_singleton, List.intercalate_singleton]
  | row :: next :: rest =>
    have ih := bodyLines_eq_intercalate widths (next :: rest)
    rw [List.map_cons] at ih
    rw [bodyLines, ih, List.map_cons, List.map_cons, List.intercalate_cons_cons, List.append_assoc,
      List.singleton_append]
    -- this is not the case of a single row
    nofun

def lines (t : Table) : List String :=
  let ws := t.widths
  [rule "+" "-" "+" "+" ws] ++ rowLines ws t.header ++ [rule "+" "=" "=" "+" ws] ++
    bodyLines ws t.rows ++ [rule "+" "-" "+" "+" ws]

def render (t : Table) : String := "\n".intercalate t.lines

end Table

end Workbench
