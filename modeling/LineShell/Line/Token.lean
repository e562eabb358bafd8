import LineShell.Line.Fault
import LineShell.Text.Blank

/-!
Tokens of one pipeline stage. Blank characters in plain text separate tokens; a redirection sign
in plain text is a token by itself, of which `>>` is taken before `>`; quotes stay in the tokens,
because expansion has to tell quoted text from plain text.
-/
namespace LineShell

namespace Token

/-- The redirection signs. -/
inductive Redirect where
  | input
  | output
  | append
  deriving Repr, DecidableEq

/-- How a sign is written. -/
def Redirect.text : Redirect → String
  | .input => "<"
  | .output => ">"
  | .append => ">>"

/-- The sign that a token is, if it is one. -/
def redirect? (token : String) : Option Redirect :=
  if token = "<" then some .input
  else if token = ">" then some .output
  else if token = ">>" then some .append
  else none

/-- Whether a token is a redirection sign. -/
def isRedirect (token : String) : Bool := (redirect? token).isSome

/-- Puts a finished word, given latest character first, in front of the tokens after it; no word is
empty. -/
def close (word : List Char) (later : List (List Char)) : List (List Char) :=
  if word.isEmpty then later else word.reverse :: later

/-- Cuts the rest of a stage, met in region `q` while a word is being read; `word` holds its
characters so far, latest first. -/
def cut (q : Quote) (word : List Char) : List Char → Except LineFault (List (List Char))
  | [] => if q.isPlain then .ok (close word []) else .error (.unterminated q)
  | c :: rest =>
    if q.isPlain && Text.isBlank c then (close word ·) <$> cut .plain [] rest
    else if q.isPlain && c = '<' then (fun later => close word (['<'] :: later)) <$> cut .plain [] rest
    else if q.isPlain && c = '>' then
      match rest with
      | d :: rest' =>
        if d = '>' then (fun later => close word (['>', '>'] :: later)) <$> cut .plain [] rest'
        else (fun later => close word (['>'] :: later)) <$> cut .plain [] (d :: rest')
      | [] => .ok (close word [['>']])
    else cut (q.step c) (c :: word) rest

end Token

/-- The tokens of one stage. -/
def tokenize (stage : List Char) : Except LineFault (List String) :=
  (·.map String.ofList) <$> Token.cut .plain [] stage

end LineShell
