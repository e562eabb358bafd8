import LineShell.Session.Run
import LineShell.Shell.Evaluate

/-!
Evaluation with the stages of a pipe at the same time. It is evaluation as it is done in turn, but each
stage of a pipe goes its own way: their accesses to the world come in any order, and a stage may stop
before it has read all that the one before writes. What changes the directory is told in single
accesses, as a path is seen from the directory of one moment, found to be a directory at another, and
entered later still; every other application runs, and every file is opened, in one access.
-/
namespace LineShell

/-- How the text of a command in back quotes becomes its output, while others run. -/
abbrev RunningSubstitution := String → Run Failure String

namespace Concurrent

/-- Makes the directory current that a path leads to from a world seen before; it has to be there. -/
def enterFrom (seen : World) (path : String) : Run IoError Place := do
  let p := Path.resolve seen.cwd path
  let found ← Run.access (Act.view Session.world)
  if found.disk.isDir p then
    Run.access (Act.note .info ("cd " ++ p.text))
    Run.enter { path, seen, found }
    return p
  else throw (.described (p.text ++ ": Not a directory") false)

/-- Makes the directory of a path the current one. -/
def enterDir (path : String) : Run IoError Place := do
  let seen ← Run.access (Act.view Session.world)
  enterFrom seen path

/-- Runs `cd`. Its path is seen from the directory of one moment only. -/
def cd (args : List String) : Run Complaint Outcome :=
  match args with
  | [] => throw .tooFewArguments
  | [target] =>
    if target = "" then throw .tooFewArguments
    else do
      let seen ← Run.access (Act.view Session.world)
      let p := Path.resolve seen.cwd target
      if ← Run.access (Act.view (·.disk.reaches p)) then
        if ← Run.access (Act.view (·.disk.isDir p)) then
          let _ ← Run.mapError .io (enterFrom seen target)
          return .proceed
        else throw (.notDirectory target)
      else throw (.noSuchFile target)
  | _ => throw .tooManyArguments

/-- Runs an application. -/
def run (app : Application) (args : List String) : Run Complaint Outcome :=
  if app = .cd then cd args else Run.access (app.run args)

/-- Looks up a word with a star. -/
def glob (word : List Symbol) : Run Failure (List String) := Run.access (Shell.glob word)

/-- The one word that an operand stands for. -/
def operandName (expand : String → Run Failure (List String)) (operand : String) :
    Run Failure String := do
  match ← expand operand with
  | [name] => if name = "" then throw (.redirect (.notFound name)) else return name
  | _ => throw (.redirect (.ambiguous operand))

/-- Takes the redirections out of the tokens left. -/
def extractFrom (expand : String → Run Failure (List String)) (r : Redirection) :
    List String → Run Failure Redirection
  | [] => pure { r with rest := r.rest.reverse }
  | [token] =>
    match Token.redirect? token with
    | none => pure { r with rest := (token :: r.rest).reverse }
    | some sign => throw (.redirect (.missingOperand sign))
  | token :: operand :: tokens =>
    match Token.redirect? token with
    | none => extractFrom expand { r with rest := token :: r.rest } (operand :: tokens)
    | some sign => do
      if Token.isRedirect operand then throw (.redirect (.missingOperand sign))
      let name ← operandName expand operand
      let r ← Run.access (r.add sign name)
      extractFrom expand r tokens

/-- Runs on the streams of a redirection. -/
def within {ε α : Type} (r : Redirection) (run : Run ε α) : Run ε α :=
  let run := match r.input with
    | some input => Run.withInput input run
    | none => run
  match r.output with
  | some output => Run.withOutput output run
  | none => run

/-- Runs an application and flushes its output. -/
def launch (app : Application) (args : List String) : Run Failure Outcome := do
  let result ← Run.attempt (run app args)
  let flushed ← Run.attempt (Run.access Act.flush)
  match result, flushed with
  | .error complaint, _ => throw (.application app.name complaint)
  | .ok _, .error e => throw (.io e)
  | .ok outcome, .ok _ => return outcome

/-- Runs one call. -/
def call (sh : Shell) (substitute : RunningSubstitution) (c : Call) : Run Failure Outcome := do
  let r ← extractFrom (Word.expand substitute glob) {} c.tokens
  match ← Word.expandAll substitute glob r.rest with
  | [] => throw (.line .noName)
  | name :: args =>
    let some app := sh.find? name | throw (.commandNotFound name)
    Run.access (Act.note .debug ("run: " ++ Text.ShellWord.line (name :: args)))
    within r (launch app args)

/-- Runs one call as a stage of a pipe. -/
def stage (sh : Shell) (substitute : RunningSubstitution) (c : Call) : Run Failure Outcome := do
  let result ← Run.attempt (call sh substitute c)
  match result, ← Run.attempt (Run.access Act.flush) with
  | .ok outcome, .error e => if e.isBrokenPipe then return outcome else throw (.io e)
  | _, _ => Run.ofExcept result

/-- Runs stages at the same time, each on what the one before writes. -/
def stages (sh : Shell) (substitute : RunningSubstitution) :
    List Call → Run Failure (List (Except Failure Outcome))
  | [] => pure []
  | [last] => do
    let result ← Run.attempt (stage sh substitute last)
    return [result]
  | c :: next :: rest => Run.beside (stage sh substitute c) (stages sh substitute (next :: rest))

/-- The failures that count, of stages numbered from `i` on. -/
def stageFailures (i : Nat) : List (Except Failure Outcome) → Run Failure (List Failure)
  | [] => pure []
  | .ok _ :: rest => stageFailures (i + 1) rest
  | .error e :: rest =>
    if !rest.isEmpty && e.isBrokenPipe then do
      Run.access (Act.note .debug ("stage " ++ toString i ++ " stopped early: " ++ e.message))
      stageFailures (i + 1) rest
    else do
      return e :: (← stageFailures (i + 1) rest)

/-- Reports several failures. -/
def reportAll : List Failure → Run Failure Unit
  | [] => pure ()
  | e :: rest => do
    Run.access (Act.report e)
    reportAll rest

/-- What the results of all stages come to. -/
def settle (results : List (Except Failure Outcome)) : Run Failure Outcome := do
  let failures ← stageFailures 0 results
  match Shell.exitCode? results, failures with
  | some code, _ =>
    reportAll failures
    return .exit code
  | none, e :: _ => throw e
  | none, [] => return .proceed

/-- Runs a pipe. -/
def pipe (sh : Shell) (substitute : RunningSubstitution) : List Call → Run Failure Outcome
  | [] => pure .proceed
  | [c] => call sh substitute c
  | calls => do
    let results ← stages sh substitute calls
    settle results

mutual

/-- Evaluates a command. -/
def evaluate (sh : Shell) (substitute : RunningSubstitution) : Command → Run Failure Outcome
  | .call c => call sh substitute c
  | .pipe calls => pipe sh substitute calls
  | .sequence commands => evaluateAll sh substitute commands

/-- Evaluates commands one after the other. -/
def evaluateAll (sh : Shell) (substitute : RunningSubstitution) :
    List Command → Run Failure Outcome
  | [] => pure .proceed
  | c :: rest => do
    match ← Run.attempt (evaluate sh substitute c) with
    | .ok .proceed => evaluateAll sh substitute rest
    | .ok (.exit code) => return .exit code
    | .error e =>
      Run.access (Act.report e)
      evaluateAll sh substitute rest

end

/-- Evaluates the commands of a substitution. -/
def evaluateInner (sh : Shell) (substitute : RunningSubstitution) :
    Option Failure → List Command → Run Failure Unit
  | none, [] => pure ()
  | some e, [] => throw e
  | first, c :: rest => do
    match ← Run.attempt (evaluate sh substitute c), first with
    | .ok .proceed, first => evaluateInner sh substitute first rest
    | .ok (.exit _), none => pure ()
    | .ok (.exit _), some e => throw e
    | .error e, none => evaluateInner sh substitute (some e) rest
    | .error e, some first =>
      Run.access (Act.report e)
      evaluateInner sh substitute (some first) rest

/-- The output of a command in back quotes, with as many levels left. -/
def substitute (sh : Shell) : Nat → RunningSubstitution
  | 0, _ => throw (.tooDeep sh.levels)
  | left + 1, text => do
    let command ← Run.access (Shell.parse text)
    let (result, bytes) ← Run.collect <|
      Run.withInput .empty (evaluateInner sh (substitute sh left) none (Shell.elements command))
    Run.ofExcept result
    return Text.stringLossy bytes

/-- Evaluates a command that stands in no substitution. -/
def evaluateTop (sh : Shell) (command : Command) : Run Failure Outcome :=
  evaluate sh (substitute sh sh.levels) command

/-- Evaluates a command line and flushes the output. -/
def evaluateLine (sh : Shell) (line : String) : Run Failure Outcome := do
  let command ← Run.access (Shell.parse line)
  let outcome ← evaluateTop sh command
  Run.mapError .io (Run.access Act.flush)
  return outcome

end Concurrent

end LineShell
