import LineShell.Application.Cat
import LineShell.Application.Cd
import LineShell.Application.Cp
import LineShell.Application.Cut
import LineShell.Application.Echo
import LineShell.Application.Exit
import LineShell.Application.Grep
import LineShell.Application.Ls
import LineShell.Application.Mv
import LineShell.Application.Paste
import LineShell.Application.Rm
import LineShell.Application.Sort
import LineShell.Application.Tee
import LineShell.Application.Uniq
import LineShell.Application.Wc

/-!
The applications that the shell knows, by name.
-/
namespace LineShell

/-- A known application. -/
inductive Application where
  | cat
  | cd
  | cp
  | cut
  | echo
  | exit
  | grep
  | ls
  | mv
  | paste
  | rm
  | sort
  | tee
  | uniq
  | wc
  deriving Repr, DecidableEq

namespace Application

/-- All applications, in the order of their names. -/
def all : List Application :=
  [.cat, .cd, .cp, .cut, .echo, .exit, .grep, .ls, .mv, .paste, .rm, .sort, .tee, .uniq, .wc]

/-- The name that calls an application. -/
def name : Application → String
  | .cat => "cat"
  | .cd => "cd"
  | .cp => "cp"
  | .cut => "cut"
  | .echo => "echo"
  | .exit => "exit"
  | .grep => "grep"
  | .ls => "ls"
  | .mv => "mv"
  | .paste => "paste"
  | .rm => "rm"
  | .sort => "sort"
  | .tee => "tee"
  | .uniq => "uniq"
  | .wc => "wc"

/-- The application that a name calls. -/
def ofName? (name : String) : Option Application := all.find? (·.name = name)

/-- Runs an application on the streams of the session. -/
def run : Application → List String → Job Outcome
  | .cat => Cat.run
  | .cd => Cd.run
  | .cp => Cp.run
  | .cut => Cut.run
  | .echo => Echo.run
  | .exit => Exit.run
  | .grep => Grep.run
  | .ls => Ls.run
  | .mv => Mv.run
  | .paste => Paste.run
  | .rm => Rm.run
  | .sort => Sort.run
  | .tee => Tee.run
  | .uniq => Uniq.run
  | .wc => Wc.run

theorem mem_all (a : Application) : a ∈ all := by cases a <;> simp [all]

theorem ofName?_name (a : Application) : ofName? a.name = some a := by cases a <;> rfl

end Application

end LineShell
