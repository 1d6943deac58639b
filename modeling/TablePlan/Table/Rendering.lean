import TablePlan.Table.Basic

/-!
Tables as text: a header, a rule and the rows, in columns that are as wide as the UTF-8 length of
their longest text.
-/

namespace TablePlan

open Text (joined trimEnd)

namespace Table

def renderLine (widths : List Nat) (texts : List String) : String :=
  let padded := (texts.zip widths).map fun (text, width) =>
    text ++ String.ofList (List.replicate (width - text.length) ' ')
  trimEnd (joined " | " padded) ++ "\n"

def renderRule (widths : List Nat) : String :=
  joined "-+-" (widths.map fun width => String.ofList (List.replicate width '-')) ++ "\n"

/-- The width of a column: the most bytes in its name or one of its cells. -/
def columnWidth (name : String) (cells : List String) : Nat :=
  cells.foldl (fun width text => max width text.utf8ByteSize) name.utf8ByteSize

def render (t : Table) : String :=
  let texts := t.rows.map fun row => row.map Cell.toText
  let widths := t.columns.zipIdx.map fun (name, i) =>
    columnWidth name (texts.map fun line => line.getD i "")
  renderLine widths t.columns ++ renderRule widths ++ String.join (texts.map (renderLine widths))

end Table

end TablePlan
