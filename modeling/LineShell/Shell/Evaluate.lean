import LineShell.Application.Basic
import LineShell.Line.Parse
import LineShell.Shell.Redirection
import LineShell.Word.Expand

/-!
Evaluation of command trees. A call opens its redirections, expands its words and runs an
application; a pipe passes the output of each stage on to the next one; a sequence reports the
failures of its commands and goes on. A command in back quotes is evaluated one level deeper, and the
number of levels is limited, so evaluation is a recursion on the levels left.
-/
namespace LineShell

/-- What a shell is set up with: the applications that it runs, how deep substitutions may nest, and
what it prints before it reads a line. -/
structure Shell where
  applications : List Application := Application.all
  levels : Nat := 8
  prompt : String := "> "
  deriving Repr, DecidableEq

/-- How the text of a command in back quotes becomes its output. -/
abbrev Substitution := String → Act Failure String

namespace Shell

/-- The application that a name calls. -/
def find? (sh : Shell) (name : String) : Option Application :=
  (Application.ofName? name).filter (sh.applications.contains ·)

/-- Looks up a word with a star on the session's disk. -/
def glob (word : List Symbol) : Act Failure (List String) := do
  let e ← Act.view fun s => Wildcard.expand s.disk s.cwd word
  match e.remark with
  | some remark => Act.note .debug remark
  | none => pure ()
  return e.words

/-- Reads a command line; a command that is not blank goes to the journal. -/
def parse (line : String) : Act Failure Command := do
  match Command.parse line with
  | .error fault => throw (.line fault)
  | .ok (.sequence []) => return .sequence []
  | .ok command =>
    Act.note .debug ("parsed: " ++ command.text)
    return command

/-- Runs an application and flushes its output; a complaint counts more than a failed flush. -/
def launch (app : Application) (args : List String) : Act Failure Outcome := do
  let result ← Act.attempt (app.run args)
  let flushed ← Act.attempt Act.flush
  match result, flushed with
  | .error complaint, _ => throw (.application app.name complaint)
  | .ok _, .error e => throw (.io e)
  | .ok outcome, .ok _ => return outcome

/-- Runs one call. -/
def call (sh : Shell) (run : Substitution) (c : Call) : Act Failure Outcome := do
  let r ← Redirection.extract (Word.expand run glob) c.tokens
  match ← Word.expandAll run glob r.rest with
  | [] => throw (.line .noName)
  | name :: args =>
    let some app := sh.find? name | throw (.commandNotFound name)
    Act.note .debug ("run: " ++ Text.ShellWord.line (name :: args))
    r.within (launch app args)

/-- Runs one call as a stage of a pipe: its output is flushed once more. -/
def stage (sh : Shell) (run : Substitution) (c : Call) : Act Failure Outcome := do
  let result ← Act.attempt (sh.call run c)
  match result, ← Act.attempt Act.flush with
  | .ok outcome, .error e => if e.isBrokenPipe then return outcome else throw (.io e)
  | _, _ => Act.ofExcept result

/-- Runs stages one after the other, each on the whole output of the one before; what each came to.
The stages of a pipe run at the same time, joined by buffers of a limited size, and each stage sees
what the others do to the disk and the directory as they do it. This is one schedule of them: a stage
starts once the one before has ended, and the buffers hold all that is written. -/
def stages (sh : Shell) (run : Substitution) :
    List Call → Act Failure (List (Except Failure Outcome))
  | [] => pure []
  | [last] => do
    let result ← Act.attempt (sh.stage run last)
    return [result]
  | c :: next :: rest => do
    let (result, bytes) ← Act.collect (sh.stage run c)
    let later ← Act.withInput (.stream bytes none) (sh.stages run (next :: rest))
    return result :: later

/-- The code of the first stage that asks for the end of the session. -/
def exitCode? : List (Except Failure Outcome) → Option Nat
  | [] => none
  | .ok (.exit code) :: _ => some code
  | _ :: rest => exitCode? rest

/-- The failures that count, of stages numbered from `i` on: a stage before the last one may stop
because the next one reads no further. -/
def stageFailures (i : Nat) : List (Except Failure Outcome) → Act Failure (List Failure)
  | [] => pure []
  | .ok _ :: rest => stageFailures (i + 1) rest
  | .error e :: rest =>
    if !rest.isEmpty && e.isBrokenPipe then do
      Act.note .debug ("stage " ++ toString i ++ " stopped early: " ++ e.message)
      stageFailures (i + 1) rest
    else do
      return e :: (← stageFailures (i + 1) rest)

/-- Reports several failures. -/
def reportAll : List Failure → Act Failure Unit
  | [] => pure ()
  | e :: rest => do
    Act.report e
    reportAll rest

/-- What the results of all stages come to: the end of the session if one stage asks for it, and then
all failures are reported; otherwise the first failure. -/
def settle (results : List (Except Failure Outcome)) : Act Failure Outcome := do
  let failures ← stageFailures 0 results
  match exitCode? results, failures with
  | some code, _ =>
    reportAll failures
    return .exit code
  | none, e :: _ => throw e
  | none, [] => return .proceed

/-- Runs a pipe. A single stage runs on the streams of the session itself. -/
def pipe (sh : Shell) (run : Substitution) : List Call → Act Failure Outcome
  | [] => pure .proceed
  | [c] => sh.call run c
  | calls => do
    let results ← sh.stages run calls
    settle results

mutual

/-- Evaluates a command. -/
def evaluate (sh : Shell) (run : Substitution) : Command → Act Failure Outcome
  | .call c => sh.call run c
  | .pipe calls => sh.pipe run calls
  | .sequence commands => sh.evaluateAll run commands

/-- Evaluates commands one after the other. Failures are reported, and only a command that asks for
the end of the session stops the others. -/
def evaluateAll (sh : Shell) (run : Substitution) : List Command → Act Failure Outcome
  | [] => pure .proceed
  | c :: rest => do
    match ← Act.attempt (sh.evaluate run c) with
    | .ok .proceed => sh.evaluateAll run rest
    | .ok (.exit code) => return .exit code
    | .error e =>
      Act.report e
      sh.evaluateAll run rest

end

/-- Evaluates the commands of a substitution. The first failure is kept for the end, later ones are
reported, and a command that asks for the end of the session ends the substitution only. -/
def evaluateInner (sh : Shell) (run : Substitution) :
    Option Failure → List Command → Act Failure Unit
  | none, [] => pure ()
  | some e, [] => throw e
  | first, c :: rest => do
    match ← Act.attempt (sh.evaluate run c), first with
    | .ok .proceed, first => sh.evaluateInner run first rest
    | .ok (.exit _), none => pure ()
    | .ok (.exit _), some e => throw e
    | .error e, none => sh.evaluateInner run (some e) rest
    | .error e, some first =>
      Act.report e
      sh.evaluateInner run (some first) rest

/-- The commands that a line consists of. -/
def elements : Command → List Command
  | .sequence commands => commands
  | other => [other]

/-- The output of a command in back quotes, with as many levels left. It has no input. -/
def substitute (sh : Shell) : Nat → Substitution
  | 0, _ => throw (.tooDeep sh.levels)
  | left + 1, text => do
    let command ← parse text
    let (result, bytes) ← Act.collect <|
      Act.withInput .empty (sh.evaluateInner (sh.substitute left) none (elements command))
    Act.ofExcept result
    return Text.stringLossy bytes

/-- Evaluates a command that stands in no substitution. -/
def evaluateTop (sh : Shell) (command : Command) : Act Failure Outcome :=
  sh.evaluate (sh.substitute sh.levels) command

/-- Evaluates a command line and flushes the output. -/
def evaluateLine (sh : Shell) (line : String) : Act Failure Outcome := do
  let command ← parse line
  let outcome ← sh.evaluateTop command
  Act.mapError .io Act.flush
  return outcome

end Shell

end LineShell
