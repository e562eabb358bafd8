import LineShell.Text.Split

/-!
Command trees. A call is the raw tokens of one application run; a pipe chains the streams of its
calls; a sequence runs its commands one after the other.
-/
namespace LineShell

/-- The raw tokens of one application run, quotes and redirections included. -/
structure Call where
  tokens : List String
  deriving Repr, DecidableEq

/-- A command tree. -/
inductive Command where
  | call (c : Call)
  | pipe (stages : List Call)
  | sequence (commands : List Command)
  deriving Repr

/-- A call written out. -/
def Call.text (c : Call) : String := Text.join " " c.tokens

namespace Command

mutual

/-- A command written out: a space between tokens, a bar between stages, a semicolon between
commands. -/
def text : Command → String
  | .call c => c.text
  | .pipe stages => Text.join " | " (stages.map Call.text)
  | .sequence commands => Text.join "; " (texts commands)

/-- Each of several commands written out. -/
def texts : List Command → List String
  | [] => []
  | c :: cs => c.text :: texts cs

end

end Command

end LineShell
