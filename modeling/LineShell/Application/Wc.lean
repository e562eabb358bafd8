import LineShell.Application.Operand

/-!
`wc [-clw] [FILE]...` counts line feeds, words and bytes. A word is a maximal run of bytes that are not
ASCII blanks. With several operands a total comes last. An operand that cannot be read is left out, and
the first such complaint comes at the end.
-/
namespace LineShell.Wc

/-- What is counted. -/
structure Counts where
  lines : Nat
  words : Nat
  bytes : Nat
  deriving Repr, DecidableEq

/-- Whether a byte is an ASCII blank: space, tab, line feed, form feed or carriage return. -/
def isBlank (b : UInt8) : Bool := b == 32 || b == 9 || b == 10 || b == 12 || b == 13

/-- Counts. -/
def count (bs : Bytes) : Counts :=
  { lines := bs.countP (· == 10)
    words := (Text.splitWhere isBlank bs).countP (!·.isEmpty)
    bytes := bs.length }

/-- The counts of two inputs together. -/
def Counts.add (a b : Counts) : Counts :=
  ⟨a.lines + b.lines, a.words + b.words, a.bytes + b.bytes⟩

/-- The columns shown. -/
structure Columns where
  lines : Bool
  words : Bool
  bytes : Bool
  deriving Repr, DecidableEq

/-- The columns that flags ask for; without flags, all of them. -/
def columns (o : Options) : Columns :=
  let any := o.has 'c' || o.has 'l' || o.has 'w'
  ⟨!any || o.has 'l', !any || o.has 'w', !any || o.has 'c'⟩

/-- One row: each column after a tab, and the label after a space. -/
def Columns.row (shown : Columns) (c : Counts) (label : Option String) : String :=
  let cell (on : Bool) (n : Nat) : String := if on then "\t" ++ toString n else ""
  let name := match label with
    | some label => " " ++ label
    | none => ""
  cell shown.lines c.lines ++ cell shown.words c.words ++ cell shown.bytes c.bytes ++ name

/-- The operands that were read, with their counts. -/
def counted (readings : List Job.Reading) : List (String × Counts) :=
  readings.filterMap fun r =>
    match r.result with
    | .ok bs => some (r.name, count bs)
    | .error _ => none

/-- Runs the application. -/
def run (args : List String) : Job Outcome := do
  let o ← Job.options "clw" args
  let shown := columns o
  if o.operands.isEmpty then
    let bs ← Job.readOperand "-"
    Job.writeLines [shown.row (count bs) none]
    return .proceed
  let readings ← Job.tryOperands o.operands
  let rows := counted readings
  let total := rows.foldl (fun sum (_, c) => sum.add c) ⟨0, 0, 0⟩
  let totals := if 1 < o.operands.length then [shown.row total (some "total")] else []
  Job.writeLines (rows.map (fun (name, c) => shown.row c (some name)) ++ totals)
  Job.settle (Job.firstComplaint? (readings.map (·.result)))

end LineShell.Wc
