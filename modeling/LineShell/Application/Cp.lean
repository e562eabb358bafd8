import LineShell.Application.Operand

/-!
`cp [-rR] SOURCE... DEST` copies files, and with `-r` directories. A destination that is a directory
takes the copies under the sources' own names; several sources need such a destination. Each source
is tried, and the first complaint comes at the end.
-/
namespace LineShell.Cp

/-- Copies the entries of a directory into another, which is made if it is missing. Directories are
entered to a depth of `fuel`; anything else is copied as a file, links followed. -/
def copyTree : Nat → Place → Place → Act IoError Unit
  | 0, _, _ => throw .nameTooLong
  | fuel + 1, source, target => do
    let d ← Act.view (·.disk)
    let (d', failed) := d.makeDirs target
    Act.change fun s => { s with disk := d' }
    if let some e := failed then throw e
    let (real, kind) ← Act.ofExcept (d'.find source)
    if kind ≠ .dir then throw .notDirectory
    let kinds := (d'.children real).map fun name => (name, d'.entry? (real ++ [name]))
    copyEntries (copyTree fuel) source target kinds
where
  /-- Copies each of the entries listed. -/
  copyEntries (deeper : Place → Place → Act IoError Unit) (source target : Place) :
      List (String × Option Entry) → Act IoError Unit
    | [] => pure ()
    | (name, kind) :: rest => do
      if kind = some .dir then deeper (source ++ [name]) (target ++ [name])
      else Act.onDisk (fun e => e) (·.copyFile (source ++ [name]) (target ++ [name]))
      copyEntries deeper source target rest

/-- The place that a source is copied or moved to: the destination, or inside it the source's own
name. -/
def target? (source dest : Place) (intoDir : Bool) : Option Place :=
  if intoDir then source.getLast?.map fun name => dest ++ [name] else some dest

/-- Copies one source. No path has more names than bytes, so `pathLimit` bounds every depth. -/
def copyOne (recursive : Bool) (dest : Place) (intoDir : Bool) (name : String) : Job Unit := do
  let source ← Act.resolve name
  let d ← Act.view (·.disk)
  if !d.reaches source then throw (.noSuchFile name)
  match target? source dest intoDir with
  | none => throw (.cannotCopy name)
  | some target =>
    if target = source then throw (.copyOntoItself name)
    if d.isDir source then
      if !recursive then throw (.isDirectory name)
      if source.covers target then throw (.copyIntoItself name)
      Job.ofIo (copyTree Disk.pathLimit source target)
    else Act.onDisk .io (·.copyFile source target)

/-- Runs the application. -/
def run (args : List String) : Job Outcome := do
  let o ← Job.options "rR" args
  match o.operands.reverse with
  | [] | [_] => throw .tooFewArguments
  | dest :: sources =>
    let p ← Act.resolve dest
    let intoDir ← Act.view (·.disk.isDir p)
    if 1 < sources.length && !intoDir then throw (.notDirectory dest)
    let results ← Job.forEach (copyOne (o.has 'r' || o.has 'R') p intoDir) sources.reverse
    Job.settle (Job.firstComplaint? results)

end LineShell.Cp
