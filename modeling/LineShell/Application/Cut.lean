import LineShell.Application.Operand

/-!
`cut -c LIST [FILE]...` and `cut -b LIST [FILE]...` keep the characters or bytes of each line whose
positions are in a list. A list has comma-separated items: a position, or a range of positions that may
be open at one end. Positions count from 1. What is kept comes in ascending order, whatever the order
of the items.
-/
namespace LineShell.Cut

/-- Positions from `first` to `last`, or to the end of the line. -/
structure Span where
  first : Nat
  last : Option Nat
  deriving Repr, DecidableEq

/-- Whether a position is in the span. -/
def Span.has (r : Span) (pos : Nat) : Bool :=
  r.first ≤ pos && match r.last with
    | none => true
    | some last => pos ≤ last

/-- Every position is smaller than this. -/
def positionLimit : Nat := Nat.pow 2 64

/-- The number that decimal digits write. -/
def decimal (digits : List Char) : Nat := digits.foldl (fun n c => n * 10 + (c.toNat - 48)) 0

/-- Reads a position: digits, perhaps after a plus sign, for a number above zero. -/
def position? (cs : List Char) : Option Nat :=
  let digits := if cs.head? = some '+' then cs.drop 1 else cs
  if digits.isEmpty || !digits.all Char.isDigit then none
  else
    let n := decimal digits
    if 0 < n && n < positionLimit then some n else none

/-- Reads one item of a list. -/
def span? (item : List Char) : Option Span :=
  let front := item.takeWhile (· ≠ '-')
  match item.drop front.length with
  | [] => (position? front).map fun n => ⟨n, some n⟩
  | _ :: back =>
    match front.isEmpty, back.isEmpty with
    | true, true => none
    | true, false => (position? back).map fun n => ⟨1, some n⟩
    | false, true => (position? front).map fun n => ⟨n, none⟩
    | false, false => do
      let first ← position? front
      let last ← position? back
      if last < first then none else some ⟨first, some last⟩

/-- Reads a list. -/
def list? (list : String) : Option (List Span) :=
  (Text.splitWhere (· = ',') list.toList).mapM span?

/-- The members of a list, counted from 1, whose positions are in one of the spans. -/
def select {α : Type} (spans : List Span) (xs : List α) : List α :=
  (xs.zipIdx 1).filterMap fun (x, pos) => if spans.any (·.has pos) then some x else none

/-- The characters kept of a line. -/
def selectChars (spans : List Span) (line : String) : String :=
  String.ofList (select spans line.toList)

/-- The bytes kept of a line; where they are not whole characters they read as U+FFFD. -/
def selectBytes (spans : List Span) (line : String) : String :=
  Text.stringLossy (select spans (Text.bytes line))

/-- Runs the application. -/
def run (args : List String) : Job Outcome := do
  let o ← Job.options "cb" args
  if o.has 'c' && o.has 'b' then throw .twoListKinds
  if !o.has 'c' && !o.has 'b' then throw .noListKind
  match o.operands with
  | [] => throw .tooFewArguments
  | list :: files =>
    match list? list with
    | none => throw (.invalidList list)
    | some spans =>
      let inputs ← Job.readAllOperands (if files.isEmpty then ["-"] else files)
      let keep := if o.has 'c' then selectChars spans else selectBytes spans
      Job.writeLines ((inputs.flatMap Text.lines).map keep)
      return .proceed

end LineShell.Cut
