import LineShell.Unicode.CodeSet

/-!
Maps on code points, written as runs: `100-12e/2+1` takes every second code point from U+0100 to
U+012E one further, and `~` marks a shift downwards.
-/
namespace LineShell.Unicode

/-- Every `stride`-th code point from `lo` to `hi` goes `shift` further. -/
structure Run where
  lo : Nat
  hi : Nat
  stride : Nat
  shift : Int

namespace Run

/-- Whether the run moves the code point. -/
def covers (r : Run) (n : Nat) : Bool :=
  r.lo ≤ n && n ≤ r.hi && (n - r.lo) % r.stride = 0

/-- Where the run takes a code point. -/
def move (r : Run) (n : Nat) : Nat := (Int.ofNat n + r.shift).toNat

/-- The code point that the run takes to `n`, if there is one. -/
def back? (r : Run) (n : Nat) : Option Nat :=
  let m := (Int.ofNat n - r.shift).toNat
  if r.covers m && r.move m = n then some m else none

/-- The code points that the run moves. -/
def codes (r : Run) : List Nat :=
  (List.range ((r.hi - r.lo) / r.stride + 1)).map fun i => r.lo + i * r.stride

end Run

/-- A map on code points that moves those of its runs and keeps all others. -/
structure CodeMap where
  runs : List Run

namespace CodeMap

/-- Reads one run. -/
def readRun (item : List Char) : Run :=
  let span := item.takeWhile fun c => c ≠ '/' && c ≠ '+' && c ≠ '~'
  let tail := item.drop span.length
  let stride := if tail.head? = some '/' then 2 else 1
  let signed := if stride = 2 then tail.drop 2 else tail
  let size := Int.ofNat (hexNumber (signed.drop 1))
  let shift := if signed.head? = some '~' then -size else size
  match Text.splitWhere (· = '-') span with
  | lo :: hi :: _ => ⟨hexNumber lo, hexNumber hi, stride, shift⟩
  | lo :: _ => ⟨hexNumber lo, hexNumber lo, stride, shift⟩
  | [] => ⟨1, 0, 1, 0⟩

/-- Reads a map. -/
def ofText (text : String) : CodeMap := ⟨(items text).map readRun⟩

/-- Where a code point goes. -/
def apply (m : CodeMap) (n : Nat) : Nat :=
  match m.runs.find? (·.covers n) with
  | some r => r.move n
  | none => n

/-- The code points that the runs take to `n`. -/
def preimages (m : CodeMap) (n : Nat) : List Nat := m.runs.filterMap (·.back? n)

/-- The code points that the map moves. -/
def moved (m : CodeMap) : List Nat := m.runs.flatMap Run.codes

/-- The code points to which the map moves others. -/
def reached (m : CodeMap) : List Nat := m.runs.flatMap fun r => r.codes.map r.move

end CodeMap

end LineShell.Unicode
