import LineShell.Disk.Change
import LineShell.Failure
import LineShell.Stream.Basic

/-!
A session is all that a command can see and change: the disk, the current directory, its input and
output, the failures reported, and the journal. A command is a step that changes a session and ends
with a value or an error; the changes made before an error stay. A step without a final session is
one that never ends, such as a copy of a file onto its own end.
-/
namespace LineShell

/-- How much a journal record matters, least first. -/
inductive Level where
  | error
  | warn
  | info
  | debug
  | trace
  deriving Repr, DecidableEq

/-- The level as written in a record. -/
def Level.text : Level → String
  | .error => "ERROR"
  | .warn => "WARN"
  | .info => "INFO"
  | .debug => "DEBUG"
  | .trace => "TRACE"

/-- The rank of a level: a journal that keeps a level keeps those of lower rank. -/
def Level.rank : Level → Nat
  | .error => 1
  | .warn => 2
  | .info => 3
  | .debug => 4
  | .trace => 5

/-- One record of the journal. -/
structure Record where
  level : Level
  text : String
  deriving Repr, DecidableEq

/-- What commands see and change. -/
structure Session where
  disk : Disk := {}
  cwd : Place := []
  input : Source := .empty
  output : Sink := .unlimited
  reports : List Failure := []
  journal : List Record := []
  deriving Repr, DecidableEq

/-- How a command ends if it does not fail. -/
inductive Outcome where
  | proceed
  | exit (code : Nat)
  deriving Repr, DecidableEq

/-- A step of a session that may fail with an `ε`, and may never end. -/
abbrev Act (ε α : Type) := ExceptT ε (StateT Session Option) α

namespace Act

/-- Runs a step from a session; nothing is left of a step that never ends. -/
def start {ε α : Type} (act : Act ε α) (s : Session) : Option (Except ε α × Session) := act.run s

/-- A step that never ends. -/
def diverge {ε α : Type} : Act ε α := fun _ => none

/-- Renames the error. -/
def mapError {ε ε' α : Type} (f : ε → ε') (act : Act ε α) : Act ε' α := ExceptT.adapt f act

/-- Runs a step and gives its error as a value. -/
def attempt {ε ε' α : Type} (act : Act ε α) : Act ε' (Except ε α) := fun s =>
  (act.start s).map fun (result, s') => (.ok result, s')

/-- Fails with the error of `result`, if it is one. -/
def ofExcept {ε α : Type} (result : Except ε α) : Act ε α := fun s => some (result, s)

/-- A part of the session. -/
def view {ε α : Type} (f : Session → α) : Act ε α := fun s => some (.ok (f s), s)

/-- Changes the session. -/
def change {ε : Type} (f : Session → Session) : Act ε Unit := fun s => some (.ok (), f s)

/-- Adds a record to the journal. -/
def note {ε : Type} (level : Level) (text : String) : Act ε Unit :=
  change fun s => { s with journal := s.journal ++ [⟨level, text⟩] }

/-- Reports a failure. -/
def report {ε : Type} (f : Failure) : Act ε Unit := do
  note .warn f.message
  change fun s => { s with reports := s.reports ++ [f] }

/-- Changes the disk, or fails and changes nothing. -/
def onDisk {ε : Type} (wrap : IoError → ε) (f : Disk → Except IoError Disk) : Act ε Unit := fun s =>
  match f s.disk with
  | .ok d => some (.ok (), { s with disk := d })
  | .error e => some (.error (wrap e), s)

/-- Runs a step on another input; afterwards the session has its own input again. -/
def withInput {ε α : Type} (input : Source) (act : Act ε α) : Act ε α := fun s =>
  (act.start { s with input }).map fun (result, s') => (result, { s' with input := s.input })

/-- Runs a step on another output; afterwards the session has its own output again. -/
def withOutput {ε α : Type} (output : Sink) (act : Act ε α) : Act ε α := fun s =>
  (act.start { s with output }).map fun (result, s') => (result, { s' with output := s.output })

/-- Runs a step and keeps what it writes from the session's output; gives its result and the bytes
written. -/
def collect {ε ε' α : Type} (act : Act ε α) : Act ε' (Except ε α × Bytes) := fun s =>
  (act.start { s with output := .unlimited }).map fun (result, s') =>
    (.ok (result, s'.output.taken), { s' with output := s.output })

/-- Reads up to `n` bytes of the input. -/
def read (n : Nat) : Act IoError Bytes := fun s =>
  let (result, input) := s.input.read s.disk n
  some (result, { s with input })

/-- Reads all that is left of the input. -/
def readAll : Act IoError Bytes := fun s =>
  let (result, input) := s.input.drain s.disk
  some (result, { s with input })

/-- Reads a line of the input. -/
def readLine : Act IoError Bytes := fun s =>
  let (result, input) := s.input.readLine s.disk
  some (result, { s with input })

/-- Writes to the output. -/
def write (bs : Bytes) : Act IoError Unit := fun s =>
  match s.output.write s.disk bs with
  | (disk, output, none) => some (.ok (), { s with disk, output })
  | (disk, output, some e) => some (.error e, { s with disk, output })

/-- Flushes the output. -/
def flush : Act IoError Unit := fun s =>
  match s.output.flush with
  | none => some (.ok (), s)
  | some e => some (.error e, s)

/-- The place of a path as typed, seen from the current directory. -/
def resolve {ε : Type} (path : String) : Act ε Place := view fun s => Path.resolve s.cwd path

/-- Makes a directory the current one; it has to be there. -/
def enterDir (path : String) : Act IoError Place := do
  let p ← resolve path
  if ← view (·.disk.isDir p) then
    note .info ("cd " ++ p.text)
    change fun s => { s with cwd := p }
    return p
  else throw (.described (p.text ++ ": Not a directory") false)

end Act

end LineShell
