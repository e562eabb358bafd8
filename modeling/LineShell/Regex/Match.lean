import LineShell.Regex.Pattern
import Std.Data.HashSet

/-!
Matches of line patterns. The meaning of a pattern is a map from sets of positions to sets of
positions: from where it starts to where it can end. So a match costs at most the size of the pattern
times the square of the length of the line, whatever the pattern.
-/
namespace LineShell.Regex

/-- The code points of a line. -/
abbrev Line := Array Nat

/-- Whether there is a word character at a position. -/
def wordAt (unicode : Bool) (codes : Line) (pos : Nat) : Bool :=
  match codes[pos]? with
  | some n => if unicode then Unicode.Property.word.has n else CharClass.asciiWord.has n
  | none => false

/-- Whether there is a word character before a position. -/
def wordBefore (unicode : Bool) (codes : Line) (pos : Nat) : Bool :=
  0 < pos && wordAt unicode codes (pos - 1)

/-- Whether the code point before a position is `n`. -/
def before (codes : Line) (pos n : Nat) : Bool := 0 < pos && codes[pos - 1]? = some n

/-- Whether the condition holds at a position. -/
def Look.holds (codes : Line) (pos : Nat) : Look → Bool
  | .textStart => pos = 0
  | .textEnd => pos = codes.size
  | .lineStart => pos = 0 || before codes pos 10
  | .lineEnd => pos = codes.size || codes[pos]? = some 10
  | .crlfStart => pos = 0 || before codes pos 10 || (before codes pos 13 && codes[pos]? ≠ some 10)
  | .crlfEnd =>
    pos = codes.size || codes[pos]? = some 13 || (codes[pos]? = some 10 && !before codes pos 13)
  | .wordBoundary u => wordBefore u codes pos ^^ wordAt u codes pos
  | .notWordBoundary u => !(wordBefore u codes pos ^^ wordAt u codes pos)
  | .wordStart u => !wordBefore u codes pos && wordAt u codes pos
  | .wordEnd u => wordBefore u codes pos && !wordAt u codes pos
  | .wordStartHalf u => !wordBefore u codes pos
  | .wordEndHalf u => !wordAt u codes pos

/-- Unites two ascending lists of positions. -/
def unite : List Nat → List Nat → List Nat
  | xs, ys => (List.merge xs ys (· ≤ ·)).eraseReps

/-- Applies a step again and again, `rounds` times at most, and stops when nothing changes. -/
def iterate (step : List Nat → List Nat) : Nat → List Nat → List Nat
  | 0, xs => xs
  | rounds + 1, xs =>
    let ys := step xs
    if ys.isEmpty then [] else if ys = xs then xs else iterate step rounds ys

/-- All positions reached by at most `rounds` steps from `fresh`, with those in `all`, which are the
known ones. -/
def spread (step : List Nat → List Nat) : Nat → Std.HashSet Nat → List Nat → List Nat → List Nat
  | 0, _, all, _ => all
  | rounds + 1, known, all, fresh =>
    let found := (step fresh).filter fun n => !known.contains n
    if found.isEmpty then all
    else spread step rounds (known.insertMany found) (found ++ all) found

/-- All positions reached by at most `rounds` steps from `first`, ascending. -/
def reach (step : List Nat → List Nat) (rounds : Nat) (first : List Nat) : List Nat :=
  (spread step rounds (Std.HashSet.ofList first) first first).mergeSort

namespace Pattern

/-- The positions after the characters for which a test holds. -/
def step (codes : Line) (test : Nat → Bool) (starts : List Nat) : List Nat :=
  starts.filterMap fun pos =>
    match codes[pos]? with
    | some n => if test n then some (pos + 1) else none
    | none => none

mutual

/-- The positions, ascending, where matches that start at one of `starts` end. A repetition without
an upper end reaches every position that it can reach in as many rounds as there are positions. -/
def ends (codes : Line) : Pattern → List Nat → List Nat
  | .empty, starts => starts
  | .literal text, starts => text.foldl (fun at_ c => step codes (· == c.toNat) at_) starts
  | .cls c, starts => step codes c.has starts
  | .look l, starts => starts.filter (l.holds codes ·)
  | .times p least most _, starts =>
    let first := iterate (ends codes p) least starts
    let rounds := match most with
      | none => codes.size + 1
      | some most => min (most - least) (codes.size + 1)
    if first.isEmpty then [] else if rounds = 0 then first
    else reach (ends codes p) rounds first
  | .capture _ p, starts => ends codes p starts
  | .seq ps, starts => endsOfAll codes ps starts
  | .alt ps, starts => endsOfAny codes ps starts

/-- Where matches of the patterns, one after the other, end. -/
def endsOfAll (codes : Line) : List Pattern → List Nat → List Nat
  | [], starts => starts
  | p :: ps, starts => endsOfAll codes ps (ends codes p starts)

/-- Where matches of any of the patterns end. -/
def endsOfAny (codes : Line) : List Pattern → List Nat → List Nat
  | [], _ => []
  | p :: ps, starts => unite (ends codes p starts) (endsOfAny codes ps starts)

end

/-- Whether the pattern matches somewhere in a line. -/
def isMatch (p : Pattern) (line : String) : Bool :=
  let codes := (line.toList.map Char.toNat).toArray
  !(p.ends codes (List.range (codes.size + 1))).isEmpty

end Pattern

end LineShell.Regex
