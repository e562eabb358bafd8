import LineShell.CommandLine

/-!
The program on a real disk: what it may touch is read beforehand, the whole run is computed, and then
what has changed is written back.
-/
namespace LineShell

/-- Adds the directories on the way to a place, and the place itself as one. -/
def Disk.withDirs (d : Disk) (p : Place) : Disk := (d.makeDirs p).1

/-- Adds a file with its content. -/
def Disk.withFile (d : Disk) (p : Place) (bs : Bytes) : Disk :=
  let (d, id) := (d.withDirs p.dropLast).create p
  d.setContent id bs

/-- Reads a file into the disk, if there is one. -/
def loadFile (d : Disk) (p : Place) : IO Disk := do
  try
    let bs ← IO.FS.readBinFile p.text
    return d.withFile p bs.toList
  catch _ => return d

/-- Reads all entries below a directory into the disk. -/
partial def loadTree (d : Disk) (p : Place) : IO Disk := do
  let mut d := d.withDirs p
  for e in ← (← IO.FS.realPath p.text).readDir do
    let q := p ++ [e.fileName]
    match (← e.path.symlinkMetadata).type with
    | .dir => d ← loadTree d q
    | .symlink =>
      let target ← try pure (← IO.FS.realPath e.path).toString catch _ => pure e.fileName
      d := d.put q (.link target)
    | _ => d ← loadFile d q
  return d

/-- Takes away what is no longer on the disk, the deepest entries first. -/
def removeGone (before after : Disk) : IO Unit := do
  let gone := before.entries.filter fun (p, e) =>
    match e, after.entry? p with
    | .dir, some .dir => false
    | .dir, _ => true
    | _, none => true
    | _, some .dir => true
    | _, _ => false
  for (p, e) in gone.mergeSort fun a b => b.1.length ≤ a.1.length do
    match e with
    | .dir => IO.FS.removeDir p.text
    | _ => IO.FS.removeFile p.text

/-- Writes what is new on the disk or has changed, outer entries first. -/
def writeChanged (before after : Disk) : IO Unit := do
  for (p, e) in after.entries.mergeSort fun a b => a.1.length ≤ b.1.length do
    match e, before.entry? p with
    | .dir, some .dir => pure ()
    | .dir, _ => IO.FS.createDirAll p.text
    | .file id, some (.file old) =>
      if after.content id ≠ before.content old then
        IO.FS.writeBinFile p.text ⟨(after.content id).toArray⟩
    | .file id, _ => IO.FS.writeBinFile p.text ⟨(after.content id).toArray⟩
    | .link _, _ => pure ()

/-- What the program is started with, on the real disk. -/
def invocation (arguments : List String) : IO Invocation := do
  let cwd := Path.resolve [] (← IO.currentDir).toString
  let home ← IO.getEnv "HOME"
  let overlayPath ← IO.getEnv "TINYSH_CONFIG"
  let input ← (← IO.getStdin).readBinToEnd
  let disk ← loadTree {} cwd
  let i : Invocation :=
    { arguments, input := .stream input.toList none, disk, cwd, home, overlayPath }
  match i.overlayFile with
  | some path => return { i with disk := ← loadFile disk (Path.resolve cwd path) }
  | none => return i

/-- The invocation with the journal's file read. -/
def withJournal (i : Invocation) : IO Invocation := do
  match i.load.1.logPath i.home with
  | some path => return { i with disk := ← loadFile i.disk (Path.resolve i.cwd path) }
  | none => return i

end LineShell

open LineShell in
/-- Runs the program. -/
def main (arguments : List String) : IO UInt32 := do
  let i ← withJournal (← invocation arguments)
  match i.run with
  | none => return 1
  | some e =>
    (← IO.getStdout).write ⟨e.output.toArray⟩
    (← IO.getStderr).putStr e.errors
    removeGone i.disk e.disk
    writeChanged i.disk e.disk
    return UInt32.ofNat e.code
