import Stencil.Text.Blank

/-!
Word processor documents, as far as their text goes: paragraphs and tables. Cells of a table may be
merged; a merged cell shows its whole text at each place that it spans.
-/

set_option autoImplicit false

namespace Stencil.Word

/-- A rectangle of places in a table, and the paragraphs of the cell that fills it. -/
structure Cell where
  top : Nat
  left : Nat
  bottom : Nat
  right : Nat
  paragraphs : List Text
  deriving DecidableEq, Repr

def Cell.covers (cell : Cell) (row column : Nat) : Bool :=
  cell.top ≤ row && row ≤ cell.bottom && cell.left ≤ column && column ≤ cell.right

/-- Whether the first place of the other cell lies in this one. -/
def Cell.holds (cell other : Cell) : Bool :=
  cell.covers other.top other.left

/-- The least cell around two, without text. -/
def Cell.around (first second : Cell) : Cell where
  top := min first.top second.top
  left := min first.left second.left
  bottom := max first.bottom second.bottom
  right := max first.right second.right
  paragraphs := []

structure Merge where
  firstRow : Nat
  firstColumn : Nat
  lastRow : Nat
  lastColumn : Nat
  deriving DecidableEq, Repr

/-- The cells of a table in reading order; all rows are as long as the longest one. -/
structure Table where
  rows : Nat
  columns : Nat
  cells : List Cell
  deriving DecidableEq, Repr

namespace Table

/-- The paragraphs of a cell from its text: none when there is no text. -/
def paragraphsOf (text : Text) : List Text :=
  if text.isEmpty then [] else [text]

def ofRows (rows : List (List Text)) : Table :=
  let columns := rows.foldl (fun most row => max most row.length) 0
  { rows := rows.length
    columns
    cells := rows.zipIdx.flatMap fun (row, r) =>
      (List.range columns).map fun c => ⟨r, c, r, c, paragraphsOf (row.getD c [])⟩ }

def cellAt? (table : Table) (row column : Nat) : Option Cell :=
  table.cells.find? (·.covers row column)

/-- Merges the cells of a rectangle into its first one. Their paragraphs follow each other in
reading order. -/
def merge (table : Table) (request : Merge) : Table :=
  match table.cellAt? request.firstRow request.firstColumn,
      table.cellAt? request.lastRow request.lastColumn with
  | some first, some last =>
    let around := first.around last
    let merged :=
      { around with paragraphs := (table.cells.filter around.holds).flatMap Cell.paragraphs }
    { table with
      cells := table.cells.flatMap fun cell =>
        if !around.holds cell then [cell]
        else if cell.top = around.top && cell.left = around.left then [merged]
        else [] }
  | _, _ => table

def textAt (table : Table) (row column : Nat) : Text :=
  match table.cellAt? row column with
  | some cell => List.intercalate ['\n'] cell.paragraphs
  | none => []

def lines (table : Table) : List Text :=
  (List.range table.rows).map fun row =>
    List.intercalate [' '] ((List.range table.columns).map (table.textAt row))

end Table

inductive Block where
  | paragraph (text : Text)
  | table (rows : List (List Text)) (merges : List Merge)
  deriving DecidableEq, Repr

/-- A carriage return is written as a line break. -/
def written (text : Text) : Text :=
  text.map fun c => if c = '\r' then '\n' else c

def Block.paragraphLines : Block → List Text
  | paragraph text => [written text]
  | table .. => []

def Block.tableLines : Block → List Text
  | paragraph _ => []
  | table rows merges => (merges.foldl Table.merge (Table.ofRows (rows.map (·.map written)))).lines

/-- The text of a document: all its paragraphs, then the rows of all its tables. -/
def text (blocks : List Block) : Text :=
  List.intercalate ['\n'] (blocks.flatMap Block.paragraphLines ++ blocks.flatMap Block.tableLines)

end Stencil.Word
