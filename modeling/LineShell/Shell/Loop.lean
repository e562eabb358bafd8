import LineShell.Shell.Evaluate

/-!
The loop that prompts for lines, reads them and evaluates them. What is left of the input after a
line is also the input of the line's commands. The loop ends with the input, with a command that asks
for it, or when it cannot read or prompt any more.
-/
namespace LineShell.Shell

/-- What reading a line for the loop comes to. -/
inductive Reply where
  | line (text : String)
  | ended
  | failed (message : String)
  deriving Repr, DecidableEq

/-- Reads a line as text. -/
def readReply : Act Failure Reply := do
  match ← Act.attempt Act.readLine with
  | .error e => return .failed e.message
  | .ok [] => return .ended
  | .ok bs =>
    match Text.decode? bs with
    | some cs => return .line (String.ofList cs)
    | none => return .failed "stream did not contain valid UTF-8"

/-- A line without the line ending. -/
def withoutEnding (line : String) : String :=
  String.ofList (line.toList.reverse.dropWhile fun c => c = '\n' || c = '\r').reverse

/-- Prompts; whether that worked. -/
def showPrompt (sh : Shell) : Act Failure Bool := do
  match ← Act.attempt (do Act.write (Text.bytes sh.prompt); Act.flush) with
  | .ok _ => return true
  | .error _ => return false

/-- Evaluates one line of the loop; the code to end with, if it asks for that. -/
def answer (sh : Shell) (line : String) : Act Failure (Option Nat) := do
  let text := withoutEnding line
  if Text.allBlank text.toList then return none
  match ← Act.attempt (sh.evaluateLine text) with
  | .ok .proceed => return none
  | .ok (.exit code) =>
    Act.note .info ("repl exiting with status " ++ toString code)
    return some code
  | .error e =>
    Act.report e
    return none

/-- Goes through the loop, at most `rounds` times. -/
def rounds (sh : Shell) : Nat → Act Failure Nat
  | 0 => Act.diverge
  | rounds + 1 => do
    if !(← sh.showPrompt) then return 0
    match ← readReply with
    | .ended =>
      Act.note .info "repl reached end of input"
      return 0
    | .failed message =>
      Act.note .warn ("repl read failed: " ++ message)
      return 0
    | .line text =>
      match ← sh.answer text with
      | some code => return code
      | none => sh.rounds rounds

/-- Runs the loop; the code that it ends with. Every round but the last reads at least one byte of the
input, so the rounds are enough. -/
def loop (sh : Shell) : Act Failure Nat := do
  let cwd ← Act.view (·.cwd)
  Act.note .info ("repl started in " ++ cwd.text)
  let held ← Act.view fun s => (s.input.held s.disk).length
  sh.rounds (held + 1)

end LineShell.Shell
