import LineShell.Application.Operand

/-!
`cd DIR` makes a directory the current one. It has no flags: every argument is a name.
-/
namespace LineShell.Cd

/-- Runs the application. -/
def run (args : List String) : Job Outcome := do
  match args with
  | [] => throw .tooFewArguments
  | [target] =>
    if target = "" then throw .tooFewArguments
    let p ← Act.resolve target
    let d ← Act.view (·.disk)
    if !d.reaches p then throw (.noSuchFile target)
    if !d.isDir p then throw (.notDirectory target)
    let _ ← Job.ofIo (Act.enterDir target)
    return .proceed
  | _ => throw .tooManyArguments

end LineShell.Cd
