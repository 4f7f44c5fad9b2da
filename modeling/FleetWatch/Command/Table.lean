/-!
Tables of two columns.

The first column is as wide as its widest cell in UTF-8 bytes, and cells are padded by characters,
so a cell with wide characters is followed by more blanks than it needs.
-/

namespace FleetWatch

/-- A cell filled up with blanks to a number of characters. -/
def padCell (width : Nat) (cell : String) : String :=
  cell ++ String.ofList (List.replicate (width - cell.length) ' ')

/-- The width of the first column. -/
def columnWidth (header : String × String) (rows : List (String × String)) : Nat :=
  rows.foldl (fun w row => max w row.1.utf8ByteSize) header.1.utf8ByteSize

/-- A table with its header, one line a row. -/
def renderTable (header : String × String) (rows : List (String × String)) : String :=
  let width := columnWidth header rows
  String.join ((header :: rows).map fun row => padCell width row.1 ++ "  " ++ row.2 ++ "\n")

end FleetWatch
