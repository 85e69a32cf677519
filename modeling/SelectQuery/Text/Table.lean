import SelectQuery.Text.Width

/-!
# Tables

A table is drawn with lines of `+`, `-` and `|`. Every column is as wide as its widest line,
and a cell with line breaks takes as many lines as it has.
-/

namespace SelectQuery.Text

/-- A text followed by as many blanks as it needs to be `columns` wide. -/
def padTo (columns : Nat) (line : String) : String :=
  line ++ .ofList (.replicate (columns - width line) ' ')

/-- The lines of a cell. -/
def cellLines (cell : String) : List String := cell.splitOn "\n"

/-- The width of a cell: that of its widest line. -/
def cellWidth (cell : String) : Nat :=
  (cellLines cell).foldl (fun widest line ↦ max widest (width line)) 0

/-- The widths of the columns. Rows may be of different lengths. -/
def columnWidths : List (List String) → List Nat
  | [] => []
  | row :: rows =>
    let below := columnWidths rows
    let here := row.map cellWidth
    (here.zipWith max below) ++ below.drop here.length ++ here.drop below.length

/-- The line between two rows. -/
def rule (widths : List Nat) : String :=
  "+" ++ .join (widths.map fun w ↦ .ofList (.replicate (w + 2) '-') ++ "+")

/-- The lines of a row. Cells are filled up with blank lines below. -/
def rowLines (widths : List Nat) (row : List String) : List String :=
  let cells := row.map cellLines
  let height := cells.foldl (fun most lines ↦ max most lines.length) 0
  (List.range height).map fun i ↦
    "|" ++ .join ((widths.zip cells).map fun (w, lines) ↦ " " ++ padTo w (lines.getD i "") ++ " |")

/-- A table, drawn without a line break at the end. -/
def table (rows : List (List String)) : String :=
  let widths := columnWidths rows
  .intercalate "\n" (rule widths :: rows.flatMap fun row ↦ rowLines widths row ++ [rule widths])

end SelectQuery.Text
