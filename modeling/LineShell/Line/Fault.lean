import LineShell.Line.Quote

/-!
What can be wrong with the writing of a command line.
-/
namespace LineShell

/-- A command that cannot be read, or one whose words and redirections make no command. -/
inductive LineFault where
  /-- A line break inside the line. -/
  | lineBreak
  /-- The line ends inside a quote. -/
  | unterminated (q : Quote)
  /-- Nothing stands before or after a semicolon. -/
  | blankCommand
  /-- Nothing stands before or after a bar. -/
  | blankStage
  /-- A call has no word left to name an application. -/
  | noName
  /-- A call redirects its input twice. -/
  | secondInput
  deriving Repr, DecidableEq

/-- The fault in words. -/
def LineFault.message : LineFault → String
  | .lineBreak => "unexpected newline"
  | .unterminated q => "unterminated " ++ q.describe
  | .blankCommand => "unexpected ';'"
  | .blankStage => "unexpected '|'"
  | .noName => "empty command"
  | .secondInput => "only one input redirection is allowed"

end LineShell
