import LineShell.Failure

/-!
Arguments of an application: single-letter flags and operands. Flags may be grouped and may stand
anywhere before a `--`; a lone `-` is an operand, and so is everything after the `--`.
-/
namespace LineShell

/-- Arguments read: the flags given, and the operands in order. -/
structure Options where
  flags : List Char
  operands : List String
  deriving Repr, DecidableEq

namespace Options

/-- Whether a flag was given. -/
def has (o : Options) (flag : Char) : Bool := o.flags.contains flag

/-- Whether an argument can only be an operand. -/
def isOperand (arg : String) : Bool := arg = "-" || arg.toList.head? ≠ some '-'

/-- Reads arguments, of which `legal` holds the flags known. -/
def parse (legal : List Char) : List String → Except Complaint Options
  | [] => .ok ⟨[], []⟩
  | arg :: rest =>
    if isOperand arg then
      (fun o => { o with operands := arg :: o.operands }) <$> parse legal rest
    else if arg = "--" then .ok ⟨[], rest⟩
    else
      let flags := arg.toList.drop 1
      match flags.find? (!legal.contains ·) with
      | some c => .error (.illegalOption c)
      | none => (fun o => { o with flags := flags ++ o.flags }) <$> parse legal rest

/-- The operands, or `instead` if there are none. -/
def operandsOr (o : Options) (instead : String) : List String :=
  if o.operands.isEmpty then [instead] else o.operands

end Options

end LineShell
