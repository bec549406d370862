/-
  Places in a source text.

  A `Point` is a place as a syntax tree counts it: row and column from zero. A
  `Site` is a place as a report shows it: lines from one, the last line where it is
  known, and the column of the start. `Site.ofPoints` is the only way from one to
  the other.
-/

namespace MethodVisibility

/-- Row and column of a byte in a source text, both from zero. -/
structure Point where
  row : Nat
  column : Nat
deriving DecidableEq, Repr

/-- The text of a point in a note. -/
def Point.describe (p : Point) : String :=
  String.join ["Point(row=", toString p.row, ", column=", toString p.column, ")"]

/-- First line, last line if known, and column of the first line. -/
structure Site where
  lineStart : Int
  lineEnd : Option Int
  column : Int
deriving DecidableEq, Repr

/-- The site of a construct that runs from `first` to `last`. -/
def Site.ofPoints (first last : Point) : Site :=
  { lineStart := first.row + 1
    lineEnd := some (last.row + 1)
    column := first.column }

end MethodVisibility
