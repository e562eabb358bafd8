import LineShell.Application.Operand

/-!
`exit` asks for the session to end. Its arguments do not matter.
-/
namespace LineShell.Exit

/-- Runs the application. -/
def run (_args : List String) : Job Outcome := pure (.exit 0)

end LineShell.Exit
