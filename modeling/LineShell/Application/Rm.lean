import LineShell.Application.Operand

/-!
`rm [-rd] PATH...` removes entries: files and links always, empty directories with `-d`, and
directories with all that is below them with `-r`. The directory that the session is in stays, as far
as its path shows. Each operand is tried, and the first complaint comes at the end.
-/
namespace LineShell.Rm

/-- Removes what one operand names. -/
def removeOne (recursive emptyDirs : Bool) (name : String) : Job Unit := do
  let p ← Act.resolve name
  let s ← Act.view fun s => s
  match Disk.require (s.disk.locate false p) with
  | .error _ => throw (.noSuchFile name)
  | .ok (_, .dir) =>
    if p.covers s.cwd then throw (.holdsSession name)
    if recursive then Act.onDisk .io (·.removeTree p)
    else if emptyDirs then
      Act.onDisk (fun e => if e = .notEmpty then .notEmpty name else .io e) (·.removeDir p)
    else throw (.isDirectory name)
  | .ok _ => Act.onDisk .io (·.unlink p)

/-- Runs the application. -/
def run (args : List String) : Job Outcome := do
  let o ← Job.options "rd" args
  if o.operands.isEmpty then throw .tooFewArguments
  let results ← Job.forEach (removeOne (o.has 'r') (o.has 'd')) o.operands
  Job.settle (Job.firstComplaint? results)

end LineShell.Rm
