import LineShell.Unicode.Table

/-!
Sets of code points as ascending spans with gaps between them. Each set has one such form, so two
sets are equal when their spans are.

Surrogates are no characters: the code point after U+D7FF is U+E000. A span may still run across
them, since they occur in no text.
-/
namespace LineShell.Unicode

/-- The greatest code point. -/
def lastCode : Nat := 0x10FFFF

/-- The code point after `n`. -/
def codeAfter (n : Nat) : Nat := if n = 0xD7FF then 0xE000 else n + 1

/-- The code point before `n`. -/
def codeBefore (n : Nat) : Nat := if n = 0xE000 then 0xD7FF else n - 1

/-- The code points from `lo` to `hi`. -/
structure Span where
  lo : Nat
  hi : Nat
  deriving DecidableEq, Repr

namespace Span

/-- The span with the given ends, whichever is smaller. -/
def between (a b : Nat) : Span := if a ≤ b then ⟨a, b⟩ else ⟨b, a⟩

/-- Whether one span comes before another in the order of their ends. -/
def le (s t : Span) : Bool := s.lo < t.lo || (s.lo = t.lo && s.hi ≤ t.hi)

/-- Joins a span with those after it, ascending by their lower ends, as long as there is no gap. -/
def joinFrom (s : Span) : List Span → List Span
  | [] => [s]
  | t :: ts => if t.lo ≤ s.hi + 1 then joinFrom ⟨s.lo, max s.hi t.hi⟩ ts else s :: joinFrom t ts

/-- Any spans in order, with no two that touch. -/
def join (spans : List Span) : List Span :=
  match spans.mergeSort le with
  | [] => []
  | s :: ts => joinFrom s ts

/-- The spans between `last` and the given spans, and up to `top`. -/
def gapsAfter (top last : Nat) : List Span → List Span
  | [] => if last < top then [between (codeAfter last) top] else []
  | s :: ss => between (codeAfter last) (codeBefore s.lo) :: gapsAfter top s.hi ss

/-- The spans of what is not in the given spans, up to `top`. -/
def gaps (top : Nat) : List Span → List Span
  | [] => [⟨0, top⟩]
  | s :: ss =>
    if 0 < s.lo then ⟨0, codeBefore s.lo⟩ :: gapsAfter top s.hi ss else gapsAfter top s.hi ss

/-- The spans of what is in both of two lists of spans. -/
def common : List Span → List Span → List Span
  | [], _ => []
  | _ :: _, [] => []
  | s :: ss, t :: ts =>
    let rest := if s.hi < t.hi then common ss (t :: ts) else common (s :: ss) ts
    if max s.lo t.lo ≤ min s.hi t.hi then ⟨max s.lo t.lo, min s.hi t.hi⟩ :: rest else rest
termination_by ss ts => ss.length + ts.length

/-- The spans of what is in the first list and not in the second. -/
def without : List Span → List Span → List Span
  | [], _ => []
  | s :: ss, [] => s :: ss
  | s :: ss, t :: ts =>
    if t.hi < s.lo then without (s :: ss) ts
    else if s.hi < t.lo then s :: without ss (t :: ts)
    else
      let rest :=
        if t.hi < s.hi then without (⟨codeAfter t.hi, s.hi⟩ :: ss) ts else without ss (t :: ts)
      if s.lo < t.lo then ⟨s.lo, codeBefore t.lo⟩ :: rest else rest
termination_by ss ts => ss.length + ts.length

end Span

/-- A set of code points. -/
structure CodeSet where
  spans : Array Span
  deriving DecidableEq, Repr

namespace CodeSet

/-- The set of the code points in some spans. -/
def ofSpans (spans : List Span) : CodeSet := ⟨(Span.join spans).toArray⟩

/-- The code points from `lo` to `hi`. -/
def range (lo hi : Nat) : CodeSet := ⟨#[⟨lo, hi⟩]⟩

/-- The set of some code points. -/
def ofCodes (codes : List Nat) : CodeSet := ofSpans (codes.map fun n => ⟨n, n⟩)

/-- No code point. -/
def empty : CodeSet := ⟨#[]⟩

/-- Every code point. -/
def all : CodeSet := range 0 lastCode

/-- Reads a set from ranges of hexadecimal numbers, `41-5a b5`. -/
def ofText (text : String) : CodeSet :=
  ofSpans ((items text).filterMap fun item =>
    match Text.splitWhere (· = '-') item with
    | [one] => some ⟨hexNumber one, hexNumber one⟩
    | lo :: hi :: _ => some ⟨hexNumber lo, hexNumber hi⟩
    | [] => none)

/-- Looks for `n` in the spans numbered from `lo` up to but not with `hi`, halving them each
time. -/
def search (spans : Array Span) (n : Nat) : Nat → Nat → Nat → Bool
  | 0, _, _ => false
  | fuel + 1, lo, hi =>
    if hi ≤ lo then false
    else
      let mid := (lo + hi) / 2
      match spans[mid]? with
      | none => false
      | some s =>
        if n < s.lo then search spans n fuel lo mid
        else if s.hi < n then search spans n fuel (mid + 1) hi
        else true

/-- Whether a code point is in the set. Sixty-four halvings are more than any set needs. -/
def has (s : CodeSet) (n : Nat) : Bool := search s.spans n 64 0 s.spans.size

/-- In one set or the other. -/
def union (a b : CodeSet) : CodeSet := ofSpans (a.spans.toList ++ b.spans.toList)

/-- In one of several sets. -/
def unions (sets : List CodeSet) : CodeSet := ofSpans (sets.flatMap (·.spans.toList))

/-- In both sets. -/
def inter (a b : CodeSet) : CodeSet := ⟨(Span.common a.spans.toList b.spans.toList).toArray⟩

/-- In the first set only. -/
def diff (a b : CodeSet) : CodeSet := ⟨(Span.without a.spans.toList b.spans.toList).toArray⟩

/-- In exactly one of the sets. -/
def symmDiff (a b : CodeSet) : CodeSet := (a.union b).diff (a.inter b)

/-- Not in the set, and not above `top`. -/
def negateUpTo (top : Nat) (a : CodeSet) : CodeSet := ⟨(Span.gaps top a.spans.toList).toArray⟩

/-- Not in the set. -/
def negate (a : CodeSet) : CodeSet := a.negateUpTo lastCode

/-- The greatest member. -/
def last? (a : CodeSet) : Option Nat := a.spans.back?.map (·.hi)

/-- The least member. -/
def first? (a : CodeSet) : Option Nat := a.spans[0]?.map (·.lo)

/-- The only member of a set that has just one. -/
def single? (a : CodeSet) : Option Nat :=
  match a.spans.toList with
  | [s] => if s.lo = s.hi then some s.lo else none
  | _ => none

end CodeSet

end LineShell.Unicode
