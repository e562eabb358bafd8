import LineShell.Application.Operand

/-!
`echo [WORD]...` writes its arguments with one space between them.
-/
namespace LineShell.Echo

/-- Runs the application. -/
def run (args : List String) : Job Outcome := do
  Job.writeLines [Text.join " " args]
  return .proceed

end LineShell.Echo
