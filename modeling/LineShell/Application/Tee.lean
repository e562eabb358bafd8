import LineShell.Application.Operand

/-!
`tee [-a] [FILE]...` copies its input to its output and to every operand, which it makes or empties, or
with `-a` extends. An operand that cannot be opened is left out, and the first such complaint comes at
the end.
-/
namespace LineShell.Tee

/-- Opens an operand for writing. -/
def openTarget (keep : Bool) (name : String) : Job Sink := do
  let p ← Act.resolve name
  let d ← Act.view (·.disk)
  if d.isDir p then throw (.isDirectory name)
  match d.openForWriting p keep with
  | .error e => throw (.io e)
  | .ok (d', id) =>
    Act.change fun s => { s with disk := d' }
    return .file id (if keep then none else some 0)

/-- Writes to each of several sinks; the sinks afterwards. -/
def writeEach (bs : Bytes) : List Sink → Act IoError (List Sink)
  | [] => pure []
  | sink :: rest => do
    let d ← Act.view (·.disk)
    let (d', sink', failed) := sink.write d bs
    Act.change fun s => { s with disk := d' }
    if let some e := failed then throw e
    return sink' :: (← writeEach bs rest)

/-- Writes to the output and then to each sink. -/
def spread (sinks : List Sink) (bs : Bytes) : Act IoError (List Sink) := do
  Act.write bs
  writeEach bs sinks

/-- The sinks that could be opened. -/
def opened (results : List (Except Complaint Sink)) : List Sink :=
  results.filterMap fun
    | .ok sink => some sink
    | .error _ => none

/-- Runs the application. -/
def run (args : List String) : Job Outcome := do
  let o ← Job.options "a" args
  let targets ← Job.forEach (openTarget (o.has 'a')) o.operands
  let _ ← Job.ofIo (Job.pumpAll spread (opened targets))
  Job.flush
  Job.settle (Job.firstComplaint? targets)

end LineShell.Tee
