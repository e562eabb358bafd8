import LineShell.Failure
import LineShell.Word.Wildcard

/-!
From a raw token to words. Quotes go, and what they held stays in the word. A command in back quotes
is run: inside double quotes its output joins the word as it is, outside them it is cut at blanks, so
that its first part joins the text before and its last part the text after. Only a star in plain
text is a wildcard.

Running a command and looking up wildcards are left to the caller, in any monad with failures.
-/
namespace LineShell.Word

/-- A token on its way to words, all parts latest first. -/
structure Draft where
  /-- Finished words. -/
  done : List (List Symbol) := []
  /-- The word being made. -/
  current : List Symbol := []
  /-- Whether there is a word being made; quotes alone make an empty one. -/
  started : Bool := false
  deriving Repr, DecidableEq

namespace Draft

/-- Opens the word being made. -/
def touch (d : Draft) : Draft := { d with started := true }

/-- Adds a symbol. -/
def add (d : Draft) (s : Symbol) : Draft := { d with current := s :: d.current, started := true }

/-- Adds a text, which may be empty. -/
def addText (d : Draft) (cs : List Char) : Draft :=
  { d with current := cs.foldl (fun word c => .lit c :: word) d.current, started := true }

/-- Finishes the word being made and begins another with the text. -/
def next (d : Draft) (cs : List Char) : Draft :=
  addText { done := d.current :: d.done } cs

/-- Adds several texts as words, of which the first joins the word being made. -/
def addWords (d : Draft) : List (List Char) → Draft
  | [] => d
  | first :: others => others.foldl next (d.addText first)

/-- The words of a finished draft, in order. -/
def words (d : Draft) : List (List Symbol) :=
  ((if d.started then d.current :: d.done else d.done).map List.reverse).reverse

end Draft

/-- A command's output as words see it: one line ending at the end goes, and every other line ending
becomes a space. -/
def tidy (output : List Char) : List Char :=
  let body :=
    if output.getLast? = some '\n' then
      let rest := output.dropLast
      if rest.getLast? = some '\r' then rest.dropLast else rest
    else output
  (body.foldr
    (fun c (text, beforeFeed) =>
      if c = '\n' then (' ' :: text, true)
      else if c = '\r' && beforeFeed then (text, false)
      else (c :: text, false))
    ([], false)).1

variable {m : Type → Type} [Monad m] [MonadExceptOf Failure m]

/-- Reads the rest of a token, met in region `q`. `command` holds the text since an open back quote,
latest first. -/
def scan (run : String → m String) (q : Quote) (command : List Char) (draft : Draft) :
    List Char → m Draft
  | [] => if q.isPlain then pure draft else throw (.line (.unterminated q))
  | c :: cs =>
    let q' := q.step c
    if q = .back && q' = .plain then do
      let output ← run (String.ofList command.reverse)
      scan run q' [] (draft.addWords (Text.blankWords (tidy output.toList))) cs
    else if q = .backInDouble && q' = .double then do
      let output ← run (String.ofList command.reverse)
      scan run q' [] (draft.addText (tidy output.toList)) cs
    else if q.isBack then scan run q' (c :: command) draft cs
    else if q' ≠ q then scan run q' command (if q'.isBack then draft else draft.touch) cs
    else if q.isPlain && c = '*' then scan run q' command (draft.add .star) cs
    else scan run q' command (draft.add (.lit c)) cs

/-- The words of a finished draft, wildcards looked up. -/
def lookUp (glob : List Symbol → m (List String)) : List (List Symbol) → m (List String)
  | [] => pure []
  | word :: rest => do
    let found ← if Wildcard.hasStar word then glob word else pure [Wildcard.literal word]
    return found ++ (← lookUp glob rest)

/-- The words of one token. -/
def expand (run : String → m String) (glob : List Symbol → m (List String)) (token : String) :
    m (List String) := do
  let draft ← scan run .plain [] {} token.toList
  lookUp glob draft.words

/-- The words of several tokens, in order. -/
def expandAll (run : String → m String) (glob : List Symbol → m (List String)) :
    List String → m (List String)
  | [] => pure []
  | token :: rest => do
    let found ← expand run glob token
    return found ++ (← expandAll run glob rest)

end LineShell.Word
