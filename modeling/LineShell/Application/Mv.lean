import LineShell.Application.Cp

/-!
`mv [-n] SOURCE... DEST` moves entries. A destination that is a directory takes them under their own
names; several sources need such a destination. With `-n` a name that leads to an entry is left
alone. Each source is tried, and the first complaint comes at the end.
-/
namespace LineShell.Mv

/-- Moves one source. -/
def moveOne (keepOld : Bool) (dest : Place) (intoDir : Bool) (name : String) : Job Unit := do
  let source ← Act.resolve name
  let d ← Act.view (·.disk)
  if !d.reaches source then throw (.noSuchFile name)
  match Cp.target? source dest intoDir with
  | none => throw (.cannotMove name)
  | some target =>
    if target = source then return ()
    if d.isDir source && source.covers target then throw (.moveIntoItself name)
    if keepOld && d.reaches target then return ()
    Act.onDisk .io (·.rename source target)

/-- Runs the application. -/
def run (args : List String) : Job Outcome := do
  let o ← Job.options "n" args
  match o.operands.reverse with
  | [] | [_] => throw .tooFewArguments
  | dest :: sources =>
    let p ← Act.resolve dest
    let intoDir ← Act.view (·.disk.isDir p)
    if 1 < sources.length && !intoDir then throw (.notDirectory dest)
    let results ← Job.forEach (moveOne (o.has 'n') p intoDir) sources.reverse
    Job.settle (Job.firstComplaint? results)

end LineShell.Mv
