import DocAudit.Data
import DocAudit.Text.Case

/-!
# Tables

A table has headers and rows.  As data it is one record for each row, named by the lower-case
headers; as text its columns are aligned.

* A cell ends at a tab, and the last cell of a line belongs to no column; a column is a run of
  adjacent lines that have a cell there, as wide as its widest cell and two blanks.
-/

namespace DocAudit

open Text

/-- Headers and rows of cells. -/
structure Table where
  headers : List String
  rows : List (List String)
deriving Repr, DecidableEq, Inhabited

namespace Table

/-! ## 1. As data -/

/-- A value under a name, in place of an earlier one. -/
def put {α : Type} (k : String) (v : α) : List (String × α) → List (String × α)
  | [] => [(k, v)]
  | (k', v') :: es => if k' == k then (k, v) :: es else (k', v') :: put k v es

/-- The record of a row; a cell without header and a header without cell are left out. -/
def recordOf (headers row : List String) : Data :=
  .dict ((headers.zip row).foldl (fun es hc => put (lowerText hc.1) (Data.text hc.2) es) [])

/-- A table as a list of records. -/
def toData (t : Table) : Data := .list (t.rows.map (recordOf t.headers))

/-! ## 2. Aligned columns -/

/-- The pieces of a line between the characters that end a cell; the last one belongs to no
column. -/
def cellsOf (line : List Char) : List (List Char) :=
  splitBy (fun c => c == '\t' || c == '\x0b') line

/-- The room a cell takes in its column: its characters and two blanks. -/
def room (cell : List Char) : Nat := cell.length + 2

/-- The room that each line's cell in the column `j` takes, zero for a line without one. -/
def columnRooms (j : Nat) (lines : List (List (List Char))) : List Nat :=
  lines.map fun cells => if j + 1 < cells.length then room (cells.getD j []) else 0

/-- For each place of a list, the greatest number from there to the next zero. -/
def greatestAhead : List Nat → List Nat
  | [] => []
  | 0 :: xs => 0 :: greatestAhead xs
  | (w + 1) :: xs =>
    let rest := greatestAhead xs
    max (w + 1) (rest.headD 0) :: rest

/-- The greatest number seen since the last zero. -/
def greatestBehind (seen : Nat) : List Nat → List Nat
  | [] => []
  | 0 :: xs => 0 :: greatestBehind 0 xs
  | (w + 1) :: xs => max seen (w + 1) :: greatestBehind (max seen (w + 1)) xs

/-- The width of a column at each line: adjacent lines with a cell there share the greatest room. -/
def columnWidths (rooms : List Nat) : List Nat := greatestBehind 0 (greatestAhead rooms)

/-- The cells of a line next to each other, padded to the widths of their columns. -/
def padCells : List (List Char) → List Nat → List Char
  | [], _ => []
  | [c], _ => c
  | c :: cs, ws => c ++ List.replicate (ws.headD 0 - c.length) ' ' ++ padCells cs ws.tail

/-- The lines of a section with their columns aligned. -/
def alignLines (lines : List (List (List Char))) : List (List Char) :=
  let columns := (lines.map List.length).foldl max 0
  let widths := (List.range columns).map fun j => columnWidths (columnRooms j lines)
  (lines.zip (List.range lines.length)).map fun (cells, i) =>
    padCells cells (widths.map fun ws => ws.getD i 0)

/-- A text with its cells aligned; a form feed ends a line and everything that is aligned with
it. -/
def align (text : String) : String :=
  join "\n" ((splitAt '\x0c' text.toList).map fun part =>
    join "\n" ((alignLines ((splitAt '\n' part).map cellsOf)).map String.ofList))

/-- **A table as text**, with aligned columns. -/
def toText (t : Table) : String :=
  align (join "" ((t.headers :: t.rows).map fun row => join "\t" row ++ "\n"))

end Table

end DocAudit
