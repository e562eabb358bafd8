import LineShell.Application.Options
import LineShell.Session.Basic
import LineShell.Text.Lines

/-!
What applications share: operands that name files, the operand `-` that stands for the input,
output in lines, and going on after an operand that failed.
-/
namespace LineShell

/-- A step of an application. -/
abbrev Job (α : Type) := Act Complaint α

namespace Job

/-- A step on streams or the disk, as part of an application. -/
def ofIo {α : Type} (act : Act IoError α) : Job α := Act.mapError .io act

/-- Reads the arguments. -/
def options (legal : String) (args : List String) : Job Options :=
  Act.ofExcept (Options.parse legal.toList args)

/-- Opens the file that an operand names. -/
def openOperand (name : String) : Job FileId := do
  let p ← Act.resolve name
  let d ← Act.view (·.disk)
  if !d.reaches p then throw (.noSuchFile name)
  if d.isDir p then throw (.isDirectory name)
  ofIo (Act.ofExcept (d.openFile p))

/-- All bytes of an operand; those of `-` are what is left of the input. -/
def readOperand (name : String) : Job Bytes := do
  if name = "-" then ofIo Act.readAll
  else
    let id ← openOperand name
    Act.view (·.disk.content id)

/-- Writes to the output. -/
def write (bs : Bytes) : Job Unit := ofIo (Act.write bs)

/-- Flushes the output. -/
def flush : Job Unit := ofIo Act.flush

/-- Writes lines and flushes. -/
def writeLines (ls : List String) : Job Unit := do
  write (Text.unlines ls)
  flush

/-- All bytes of every operand; the first operand that cannot be read ends it. -/
def readAllOperands : List String → Job (List Bytes)
  | [] => pure []
  | name :: rest => do
    let bs ← readOperand name
    return bs :: (← readAllOperands rest)

/-- What an operand gave. -/
structure Reading where
  name : String
  result : Except Complaint Bytes

/-- All bytes of every operand, or why it could not be read. -/
def tryOperands : List String → Job (List Reading)
  | [] => pure []
  | name :: rest => do
    let result ← Act.attempt (readOperand name)
    return ⟨name, result⟩ :: (← tryOperands rest)

/-- The first complaint among several results. -/
def firstComplaint? {α : Type} : List (Except Complaint α) → Option Complaint
  | [] => none
  | .error e :: _ => some e
  | .ok _ :: rest => firstComplaint? rest

/-- Does a step for every operand and goes on after complaints; the results, in order. -/
def forEach {α : Type} (step : String → Job α) : List String → Job (List (Except Complaint α))
  | [] => pure []
  | name :: rest => do
    let result ← Act.attempt (step name)
    return result :: (← forEach step rest)

/-- Ends with a complaint, if there is one. -/
def settle (complaint : Option Complaint) : Job Outcome :=
  match complaint with
  | some e => throw e
  | none => pure .proceed

/-- The number of bytes that a copy reads at a time. -/
def chunk : Nat := 8192

/-- Passes the input on in chunks until it ends, in at most so many rounds. Each round but the last
reads at least one byte. -/
def pump {σ : Type} (step : σ → Bytes → Act IoError σ) : Nat → σ → Act IoError σ
  | 0, _ => Act.diverge
  | rounds + 1, state => do
    let bs ← Act.read chunk
    if bs.isEmpty then pure state else do
      let state ← step state bs
      pump step rounds state

/-- Passes all of the input on in chunks. A copy that does not feed its own input needs at most one
round more than the input holds bytes. One that does needs at most one more than its output takes
bytes, if that is limited, as it writes to the output what it reads; else it never ends. -/
def pumpAll {σ : Type} (step : σ → Bytes → Act IoError σ) (state : σ) : Act IoError σ := do
  let held ← Act.view fun s => (s.input.held s.disk).length
  let room ← Act.view (·.output.room?.getD 0)
  pump step (held + room + 1) state

end Job

end LineShell
