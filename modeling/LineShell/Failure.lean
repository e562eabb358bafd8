import LineShell.Disk.Error
import LineShell.Line.Fault
import LineShell.Line.Token

/-!
Everything that can go wrong with a command. A complaint is what an application says about its
arguments and files; a failure is what a whole command ends with.
-/
namespace LineShell

/-- What an application objects to. -/
inductive Complaint where
  | io (e : IoError)
  | illegalOption (c : Char)
  | tooFewArguments
  | tooManyArguments
  | noSuchFile (name : String)
  | isDirectory (name : String)
  | notDirectory (name : String)
  | cannotCopy (name : String)
  | copyOntoItself (name : String)
  | copyIntoItself (name : String)
  | cannotMove (name : String)
  | moveIntoItself (name : String)
  | holdsSession (name : String)
  | notEmpty (name : String)
  | twoListKinds
  | noListKind
  | invalidList (list : String)
  | invalidPattern (pattern : String)
  | countsOfAllDuplicates
  deriving Repr, DecidableEq

namespace Complaint

/-- The complaint in words. -/
def message : Complaint → String
  | .io e => e.message
  | .illegalOption c => "illegal option -- " ++ c.toString
  | .tooFewArguments => "Insufficient arguments"
  | .tooManyArguments => "Too many arguments"
  | .noSuchFile name => name ++ ": No such file or directory"
  | .isDirectory name => name ++ ": This is a directory"
  | .notDirectory name => name ++ ": Not a directory"
  | .cannotCopy name => name ++ ": cannot copy"
  | .copyOntoItself name => name ++ ": source and destination are the same"
  | .copyIntoItself name => name ++ ": cannot copy a directory into itself"
  | .cannotMove name => name ++ ": cannot move"
  | .moveIntoItself name => name ++ ": cannot move a directory into itself"
  | .holdsSession name => name ++ ": refusing to remove the current directory"
  | .notEmpty name => name ++ ": Directory not empty"
  | .twoListKinds => "only one type of list may be specified"
  | .noListKind => "you must specify a list of bytes or characters"
  | .invalidList list => list ++ ": Invalid list"
  | .invalidPattern pattern => pattern ++ ": Invalid regular expression supplied"
  | .countsOfAllDuplicates => "printing all duplicated lines and repeat counts is meaningless"

/-- Whether the application stopped because nobody reads its output any more. -/
def isBrokenPipe : Complaint → Bool
  | .io e => e.isBrokenPipe
  | _ => false

end Complaint

/-- Why a stream could not be redirected. Names are as typed. -/
inductive RedirectFault where
  | missingOperand (sign : Token.Redirect)
  | ambiguous (operand : String)
  | notFound (name : String)
  | isDirectory (name : String)
  | io (name : String) (e : IoError)
  deriving Repr, DecidableEq

/-- The fault in words. -/
def RedirectFault.message : RedirectFault → String
  | .missingOperand sign => "missing file operand after '" ++ sign.text ++ "'"
  | .ambiguous operand => operand ++ ": ambiguous redirect"
  | .notFound name => name ++ ": No such file or directory"
  | .isDirectory name => name ++ ": This is a directory"
  | .io name e => name ++ ": " ++ e.message

/-- Why a command failed. -/
inductive Failure where
  | line (fault : LineFault)
  | redirect (fault : RedirectFault)
  | commandNotFound (name : String)
  | application (name : String) (complaint : Complaint)
  /-- A substitution inside as many others as are allowed. -/
  | tooDeep (limit : Nat)
  | io (e : IoError)
  deriving Repr, DecidableEq

namespace Failure

/-- The failure in words. -/
def message : Failure → String
  | .line fault => "shell: syntax error: " ++ fault.message
  | .redirect fault => "shell: " ++ fault.message
  | .commandNotFound name => "shell: " ++ name ++ ": command not found"
  | .application name complaint => name ++ ": " ++ complaint.message
  | .tooDeep limit =>
    "shell: command substitution nested deeper than " ++ toString limit ++ " levels"
  | .io e => "shell: " ++ e.message

/-- Whether the command stopped because nobody reads its output any more. -/
def isBrokenPipe : Failure → Bool
  | .io e => e.isBrokenPipe
  | .application _ complaint => complaint.isBrokenPipe
  | _ => false

end Failure

end LineShell
