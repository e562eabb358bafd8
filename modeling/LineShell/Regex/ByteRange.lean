import LineShell.Unicode.CodeSet

/-!
Ranges of code points as ranges of bytes. In UTF-8 a range of code points is a union of boxes: one
range of bytes for each place of the encoding. The boxes of a range come out in ascending order, and
there are no fewer.
-/
namespace LineShell.Regex

open Unicode (Span)

/-- The bytes of a code point in UTF-8. -/
def codeBytes (n : Nat) : List Nat :=
  if n < 0x80 then [n]
  else if n < 0x800 then [0xC0 + n / 64, 0x80 + n % 64]
  else if n < 0x10000 then [0xE0 + n / 4096, 0x80 + n / 64 % 64, 0x80 + n % 64]
  else [0xF0 + n / 262144, 0x80 + n / 4096 % 64, 0x80 + n / 64 % 64, 0x80 + n % 64]

/-- The last code points before the surrogates and before encodings become longer. -/
def lengthCuts : List Nat := [0xD7FF, 0x7F, 0x7FF, 0xFFFF]

/-- Where a range within encodings of one length has to be cut because the places above the lowest
`size` values differ: the end of the part before the cut. -/
def placeCut? (lo hi size : Nat) : Option Nat :=
  if lo / size = hi / size then none
  else if lo % size ≠ 0 then some (lo / size * size + size - 1)
  else if hi % size ≠ size - 1 then some (hi / size * size - 1)
  else none

/-- Where a range has to be cut first, so that both parts have fewer boxes. -/
def cut? (lo hi : Nat) : Option Nat :=
  match lengthCuts.find? fun n => lo ≤ n && n < hi with
  | some n => some n
  | none =>
    if hi < 0x80 then none
    else [64, 4096, 262144].findSome? (placeCut? lo hi)

/-- The boxes of the code points from `lo` to `hi`, without surrogates. Each cut leaves two shorter
ranges. -/
def boxes (lo hi : Nat) : List (List Span) :=
  if hi < lo then []
  else if 0xD800 ≤ lo && lo < 0xE000 then
    if 0xE000 ≤ hi then boxes 0xE000 hi else []
  else
    match cut? lo hi with
    | none => [(codeBytes lo).zipWith (fun a b => ⟨a, b⟩) (codeBytes hi)]
    | some c =>
      if lo ≤ c ∧ c < hi then boxes lo c ++ boxes (c + 1) hi else []
termination_by hi + 1 - lo
decreasing_by
  all_goals simp_all
  all_goals omega

/-- The boxes of all code points in some spans. -/
def boxesOf (spans : List Span) : List (List Span) := spans.flatMap fun s => boxes s.lo s.hi

end LineShell.Regex
