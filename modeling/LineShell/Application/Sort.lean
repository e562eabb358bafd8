import LineShell.Application.Operand
import LineShell.Text.Order
import LineShell.Unicode.Case

/-!
`sort [-nrf] [FILE]...` sorts the lines of its operands together. Lines compare by code points; with
`-n` runs of digits in them compare by value, with `-f` case does not count, and with `-r` the sorted
list is turned round. Lines that compare equal keep their order.
-/
namespace LineShell.Sort

/-- The maximal runs of digits and of other characters of a text, in order. -/
def chunks (cs : List Char) : List (List Char) :=
  cs.foldr
    (fun c later =>
      match later with
      | (d :: run) :: rest =>
        if c.isDigit = d.isDigit then (c :: d :: run) :: rest else [c] :: (d :: run) :: rest
      | _ => [c] :: later)
    []

/-- Compares texts by code points. -/
def compareChars : List Char → List Char → Ordering := List.compareLex (compareOn Char.toNat)

/-- Compares numerals by value: without their leading zeros the longer one is greater, and of two of
one length the first digit that differs decides. -/
def compareDigits (a b : List Char) : Ordering :=
  let a := a.dropWhile (· = '0')
  let b := b.dropWhile (· = '0')
  (compare a.length b.length).then (compareChars a b)

/-- Whether a chunk is a run of digits. -/
def isNumber (chunk : List Char) : Bool :=
  match chunk with
  | [] => false
  | c :: _ => c.isDigit

/-- Compares two chunks. -/
def compareChunk (a b : List Char) : Ordering :=
  if isNumber a && isNumber b then compareDigits a b else compareChars a b

/-- Compares lists of chunks at the first place where they differ; a list comes before its
extensions. -/
def compareChunks (a b : List (List Char)) : Ordering := List.compareLex compareChunk a b

/-- What counts when lines are compared. -/
structure Order where
  numeric : Bool
  fold : Bool
  deriving Repr, DecidableEq

/-- What a line is compared by. -/
def Order.key (order : Order) (line : String) : String :=
  if order.fold then Unicode.toLower line else line

/-- Compares two keys. -/
def Order.compareKeys (order : Order) (a b : String) : Ordering :=
  if order.numeric then compareChunks (chunks a.toList) (chunks b.toList) else Text.compare a b

/-- Compares two lines. -/
def Order.compare (order : Order) (a b : String) : Ordering :=
  order.compareKeys (order.key a) (order.key b)

/-- Sorts lines. Each line's key is made once. -/
def sortLines (order : Order) (lines : List String) : List String :=
  ((lines.map fun line => (order.key line, line)).mergeSort fun a b =>
    (order.compareKeys a.1 b.1).isLE).map Prod.snd

/-- Runs the application. -/
def run (args : List String) : Job Outcome := do
  let o ← Job.options "nrf" args
  let inputs ← Job.readAllOperands (o.operandsOr "-")
  let sorted := sortLines ⟨o.has 'n', o.has 'f'⟩ (inputs.flatMap Text.lines)
  Job.writeLines (if o.has 'r' then sorted.reverse else sorted)
  return .proceed

end LineShell.Sort
