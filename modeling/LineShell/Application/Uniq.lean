import LineShell.Application.Cat

/-!
`uniq [-cdD] [INPUT [OUTPUT]]` writes one line for each run of equal lines. With `-d` only runs of two
or more lines count, with `-D` these are written whole, and with `-c` each line comes after the length
of its run.
-/
namespace LineShell.Uniq

/-- A run of equal lines: the line, and how often it stands there. -/
structure Group where
  line : String
  count : Nat
  deriving Repr, DecidableEq

/-- The maximal runs of equal lines, in order. -/
def groups (lines : List String) : List Group :=
  lines.foldr
    (fun line later =>
      match later with
      | g :: rest => if line = g.line then ⟨line, g.count + 1⟩ :: rest else ⟨line, 1⟩ :: g :: rest
      | [] => [⟨line, 1⟩])
    []

/-- Which runs are written, and how. -/
inductive Mode where
  | all
  | repeated
  | allRepeated
  deriving Repr, DecidableEq

/-- How a run is written as one line. -/
def Group.row (count : Bool) (g : Group) : String :=
  if count then Cat.padLeft 7 (toString g.count) ++ " " ++ g.line else g.line

/-- The lines written. -/
def collapse (mode : Mode) (count : Bool) (lines : List String) : List String :=
  match mode with
  | .all => (groups lines).map (Group.row count)
  | .repeated => ((groups lines).filter (2 ≤ ·.count)).map (Group.row count)
  | .allRepeated =>
    ((groups lines).filter (2 ≤ ·.count)).flatMap fun g => List.replicate g.count g.line

/-- Writes lines to the file that an operand names, which is made or emptied. -/
def writeFile (name : String) (ls : List String) : Job Unit := do
  let p ← Act.resolve name
  let d ← Act.view (·.disk)
  if d.isDir p then throw (.isDirectory name)
  match d.openForWriting p false with
  | .error e => throw (.io e)
  | .ok (d', id) => Act.change fun s => { s with disk := d'.setContent id (Text.unlines ls) }

/-- The input and the output among the operands. -/
def streams? : List String → Option (String × Option String)
  | [] => some ("-", none)
  | [input] => some (input, none)
  | [input, output] => some (input, some output)
  | _ => none

/-- Runs the application. -/
def run (args : List String) : Job Outcome := do
  let o ← Job.options "cdD" args
  match streams? o.operands with
  | none => throw .tooManyArguments
  | some (input, output) =>
    if o.has 'c' && o.has 'D' then throw .countsOfAllDuplicates
    let mode : Mode := if o.has 'D' then .allRepeated else if o.has 'd' then .repeated else .all
    let result := collapse mode (o.has 'c') (Text.lines (← Job.readOperand input))
    match output with
    | none => Job.writeLines result
    | some name => writeFile name result
    return .proceed

end LineShell.Uniq
