import LineShell.Session.Basic
import LineShell.Line.Token

/-!
Redirections of one call. They are taken out of its tokens from left to right, and each file is
opened as it is met: a later one that fails does not undo an earlier one. Of several outputs the last
one counts, and there is at most one input.
-/
namespace LineShell

/-- A call's tokens without its redirections, and the streams that those opened. -/
structure Redirection where
  rest : List String := []
  input : Option Source := none
  output : Option Sink := none
  deriving Repr, DecidableEq

namespace Redirection

/-- The fault that stands for a file that could not be opened. -/
def fault (d : Disk) (p : Place) (name : String) (e : IoError) : RedirectFault :=
  if d.isDir p then .isDirectory name
  else if e = .notFound then .notFound name
  else .io name e

/-- Opens the file that a redirection reads. -/
def openInput (name : String) : Act Failure Source := do
  let p ← Act.resolve name
  let d ← Act.view (·.disk)
  if d.isDir p then throw (.redirect (.isDirectory name))
  match d.openFile p with
  | .ok id => return .file id 0
  | .error e => throw (.redirect (fault d p name e))

/-- Opens the file that a redirection writes; `keep` says that it writes at the end. -/
def openOutput (name : String) (keep : Bool) : Act Failure Sink := do
  let p ← Act.resolve name
  let d ← Act.view (·.disk)
  if d.isDir p then throw (.redirect (.isDirectory name))
  match d.openForWriting p keep with
  | .ok (disk, id) =>
    Act.change fun s => { s with disk }
    return .file id (if keep then none else some 0)
  | .error e => throw (.redirect (fault d p name e))

/-- The one word that an operand stands for. -/
def operandName (expand : String → Act Failure (List String)) (operand : String) :
    Act Failure String := do
  match ← expand operand with
  | [name] => if name = "" then throw (.redirect (.notFound name)) else return name
  | _ => throw (.redirect (.ambiguous operand))

/-- Adds one more redirection. -/
def add (r : Redirection) (sign : Token.Redirect) (name : String) : Act Failure Redirection := do
  match sign with
  | .input =>
    if r.input.isSome then throw (.line .secondInput)
    return { r with input := some (← openInput name) }
  | .output => return { r with output := some (← openOutput name false) }
  | .append => return { r with output := some (← openOutput name true) }

/-- Takes the redirections out of the tokens left; `r` holds what was found before, its tokens latest
first. -/
def extractFrom (expand : String → Act Failure (List String)) (r : Redirection) :
    List String → Act Failure Redirection
  | [] => pure { r with rest := r.rest.reverse }
  | [token] =>
    match Token.redirect? token with
    | none => pure { r with rest := (token :: r.rest).reverse }
    | some sign => throw (.redirect (.missingOperand sign))
  | token :: operand :: tokens =>
    match Token.redirect? token with
    | none => extractFrom expand { r with rest := token :: r.rest } (operand :: tokens)
    | some sign => do
      if Token.isRedirect operand then throw (.redirect (.missingOperand sign))
      let name ← operandName expand operand
      let r ← r.add sign name
      extractFrom expand r tokens

/-- Takes the redirections out of a call's tokens. -/
def extract (expand : String → Act Failure (List String)) (tokens : List String) :
    Act Failure Redirection :=
  extractFrom expand {} tokens

/-- Runs a step on the streams of a redirection. -/
def within {ε α : Type} (r : Redirection) (act : Act ε α) : Act ε α :=
  let act := match r.input with
    | some input => Act.withInput input act
    | none => act
  match r.output with
  | some output => Act.withOutput output act
  | none => act

end Redirection

end LineShell
