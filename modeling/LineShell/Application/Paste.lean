import LineShell.Application.Operand

/-!
`paste [-s] [FILE]...` puts the lines of its operands side by side, with a tab between them; an operand
that has run out gives an empty field. With `-s` each operand becomes one line.
-/
namespace LineShell.Paste

/-- The rows of several columns, as many as the longest column has; short columns give empty
fields. -/
def rows (columns : List (List String)) : List String :=
  let height := columns.foldl (fun n column => max n column.length) 0
  let padded := columns.map fun column => column ++ List.replicate (height - column.length) ""
  let empty : List (List String) := List.replicate height []
  let cells := padded.foldl (fun rows column => rows.zipWith (fun row cell => cell :: row) column) empty
  cells.map fun row => Text.join "\t" row.reverse

/-- Runs the application. -/
def run (args : List String) : Job Outcome := do
  let o ← Job.options "s" args
  let columns := (← Job.readAllOperands (o.operandsOr "-")).map Text.lines
  Job.writeLines (if o.has 's' then columns.map (Text.join "\t") else rows columns)
  return .proceed

end LineShell.Paste
