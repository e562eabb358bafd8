import LineShell.Application.Operand
import LineShell.Regex.Match
import LineShell.Regex.Parse

/-!
`grep [-icH] PATTERN [FILE]...` prints the lines that a pattern matches, or with `-c` how many there
are. With `-i` case does not count. Lines are labelled with their file when there are several, or with
`-H`. An operand that cannot be read is left out, and the first such complaint comes at the end.
-/
namespace LineShell.Grep

/-- The name under which the lines of an operand are shown. -/
def label (name : String) : String := if name = "-" then "(standard input)" else name

/-- A line with its label, if labels are shown. -/
def labelled (shown : Bool) (name line : String) : String :=
  if shown then label name ++ ": " ++ line else line

/-- The lines that a pattern matches. -/
def matching (p : Regex.Pattern) (bs : Bytes) : List String := (Text.lines bs).filter p.isMatch

/-- What is printed for one operand. -/
def report (p : Regex.Pattern) (count labels : Bool) (name : String) (bs : Bytes) : List String :=
  let found := matching p bs
  let shown := if count then [toString found.length] else found
  shown.map (labelled labels name)

/-- What is printed for the operands that could be read. -/
def reports (p : Regex.Pattern) (count labels : Bool) (readings : List Job.Reading) : List String :=
  readings.flatMap fun r =>
    match r.result with
    | .ok bs => report p count labels r.name bs
    | .error _ => []

/-- Runs the application. -/
def run (args : List String) : Job Outcome := do
  let o ← Job.options "icH" args
  match o.operands with
  | [] => throw .tooFewArguments
  | text :: files =>
    let some p := Regex.Pattern.parse? (o.has 'i') text | throw (.invalidPattern text)
    let inputs := if files.isEmpty then ["-"] else files
    let readings ← Job.tryOperands inputs
    Job.writeLines (reports p (o.has 'c') (o.has 'H' || 1 < inputs.length) readings)
    Job.settle (Job.firstComplaint? (readings.map (·.result)))

end LineShell.Grep
