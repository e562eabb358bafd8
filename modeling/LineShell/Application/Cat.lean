import LineShell.Application.Operand

/-!
`cat [-n] [FILE]...` writes its operands one after the other, with `-n` in numbered lines. An operand
that cannot be read is left out, and the first such complaint comes at the end.
-/
namespace LineShell.Cat

/-- A number at the right of a field of `width` characters. -/
def padLeft (width : Nat) (s : String) : String :=
  String.ofList (List.replicate (width - s.length) ' ') ++ s

/-- A numbered line. -/
def numbered (n : Nat) (line : String) : String := padLeft 6 (toString n) ++ "\t" ++ line

/-- Lines with their numbers, which go on from `last`. -/
def numberLines (last : Nat) (ls : List String) : List String :=
  ls.mapIdx fun i line => numbered (last + 1 + i) line

/-- Copies the input to the output. -/
def copy : Job Unit := Job.ofIo (Job.pumpAll (fun () bs => Act.write bs) ())

/-- Copies one operand. -/
def copyOperand (name : String) : Job Unit := do
  if name = "-" then copy
  else
    let id ← Job.openOperand name
    Act.withInput (.file id 0) copy

/-- Writes the lines of one operand, numbered on from `last`; the last number used. -/
def numberOperand (last : Nat) (name : String) : Job Nat := do
  let ls := Text.lines (← Job.readOperand name)
  Job.write (Text.unlines (numberLines last ls))
  return last + ls.length

/-- Goes through the operands with a step that is given the last line number and gives the next.
Once nobody reads any more the rest is left alone; otherwise the first complaint is the result. -/
def emitAll (step : Nat → String → Job Nat) : Nat → List String → Job (Option Complaint)
  | _, [] => pure none
  | last, name :: rest => do
    match ← Act.attempt (step last name) with
    | .ok last' => emitAll step last' rest
    | .error e =>
      if e.isBrokenPipe then throw e
      else do
        let _ ← emitAll step last rest
        pure (some e)

/-- Runs the application. -/
def run (args : List String) : Job Outcome := do
  let o ← Job.options "n" args
  let names := o.operandsOr "-"
  let step := if o.has 'n' then numberOperand else fun last name => do
    copyOperand name
    return last
  let complaint ← emitAll step 0 names
  Job.flush
  Job.settle complaint

end LineShell.Cat
