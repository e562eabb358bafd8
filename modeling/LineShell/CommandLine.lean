import LineShell.Config.Settings
import LineShell.Shell.Loop

/-!
The whole program as a function: from its arguments, its input and the disk to what it prints, the
disk that it leaves behind, and the code that it ends with. It reads the settings, opens the journal's
file, and then prints the settings, evaluates one line, or runs the loop.
-/
namespace LineShell

/-- What the program is started with. -/
structure Invocation where
  arguments : List String
  input : Source := .empty
  disk : Disk := {}
  cwd : Place := []
  home : Option String := none
  /-- The path of the overlay, where the user has chosen one. -/
  overlayPath : Option String := none
  /-- What stands before each record in the journal's file. -/
  stamp : String := ""

/-- What the program comes to. -/
structure Ending where
  code : Nat
  output : Bytes := []
  errors : String := ""
  disk : Disk

namespace Invocation

/-- The path of the overlay. -/
def overlayFile (i : Invocation) : Option String :=
  match i.overlayPath, i.home with
  | some path, _ => some path
  | none, some home => some (Wildcard.extend home ".config/tinysh/config.toml")
  | none, none => none

/-- The text of a file; none if it cannot be read. -/
def readFile (i : Invocation) (path : String) : Option String :=
  match i.disk.locateText true i.cwd path with
  | .ok (.found _ (.file id)) => (Text.decode? (i.disk.content id)).map String.ofList
  | _ => none

/-- The settings, and what to say about an overlay that counts for nothing. -/
def load (i : Invocation) : Config × String :=
  let c : Config := {}
  match i.overlayFile with
  | none => (c, "")
  | some path =>
    match i.readFile path with
    | none => (c, "")
    | some text =>
      match Overlay.parse? text with
      | some o => (c.apply o, "")
      | none => (c, "tinysh: config parse error in " ++ path ++ ": invalid settings\n")

/-- The names of a path that lead somewhere. -/
def steps (path : String) : List String := (Path.names path).filter fun n => n ≠ "" && n ≠ "."

/-- The directory that a path's last name is in. -/
def parent (cwd : Place) (path : String) : Place :=
  (steps path).dropLast.foldl Path.enter (if Path.isRooted path then [] else cwd)

/-- Opens the journal's file at its end, with the directories on its way made; none if there is no
journal or its file cannot be opened. -/
def openJournal (i : Invocation) (c : Config) : Disk × Option (Level × FileId) :=
  match c.threshold, c.logPath i.home with
  | some level, some path =>
    let (disk, _) := i.disk.makeDirs (parent i.cwd path)
    if ["", ".", ".."].contains ((Path.names path).getLastD "") then (disk, none)
    else
      match disk.openForWriting (Path.resolve i.cwd path) true with
      | .ok (disk, id) => (disk, some (level, id))
      | .error _ => (disk, none)
  | _, _ => (i.disk, none)

/-- A record as a line of the journal's file. -/
def recordLine (i : Invocation) (r : Record) : String :=
  i.stamp ++ "[" ++ r.level.text ++ "] " ++ r.text ++ "\n"

/-- Adds the records that matter enough to the journal's file. -/
def writeJournal (i : Invocation) (file : Option (Level × FileId)) (records : List Record)
    (d : Disk) : Disk :=
  match file with
  | none => d
  | some (level, id) =>
    let kept := records.filter (·.level.rank ≤ level.rank)
    d.append id (Text.bytes (String.join (kept.map i.recordLine)))

/-- What the program says when its arguments make no sense. -/
def usage : String := "usage: tinysh [-c LINE | --dump-config]\n"

/-- Evaluates one line; the code to end with. -/
def evaluate (sh : Shell) (line : String) : Act Failure Nat := do
  match ← Act.attempt (sh.evaluateLine line) with
  | .ok .proceed => return 0
  | .ok (.exit code) => return code
  | .error e =>
    Act.report e
    return 1

/-- What the arguments ask for: a loop, a line, or nothing that is known. -/
def action (sh : Shell) : List String → Option (Act Failure Nat)
  | [] => some sh.loop
  | ["-c", line] => some (evaluate sh line)
  | _ => none

/-- Runs the shell in a session; nothing comes of a run that never ends. -/
def start (i : Invocation) (c : Config) (said : String) : Option Ending :=
  let (disk, file) := i.openJournal c
  match action c.shell i.arguments with
  | none =>
    some { code := 2, errors := said ++ usage, disk := i.writeJournal file c.remarks disk }
  | some act => do
    let (result, s) ← act.start { disk, cwd := i.cwd, input := i.input, journal := c.remarks }
    let code := match result with
      | .ok code => code
      | .error _ => 1
    return {
      code
      output := s.output.taken
      errors := said ++ Text.join "" (s.reports.map fun e => e.message ++ "\n")
      disk := i.writeJournal file s.journal s.disk }

/-- Runs the program. -/
def run (i : Invocation) : Option Ending :=
  let (c, said) := i.load
  if i.arguments.contains "--dump-config" then
    some { code := 0, output := Text.bytes c.document, errors := said, disk := i.disk }
  else i.start c said

end Invocation

end LineShell
