import LineShell.Regex.CharClass
import LineShell.Text.Utf8

/-!
Line patterns, how long their matches are, and where they are bound to the ends of a line.
-/
namespace LineShell.Regex

/-- Conditions on a position. -/
inductive Look where
  | textStart
  | textEnd
  | lineStart
  | lineEnd
  | crlfStart
  | crlfEnd
  | wordBoundary (unicode : Bool)
  | notWordBoundary (unicode : Bool)
  | wordStart (unicode : Bool)
  | wordEnd (unicode : Bool)
  | wordStartHalf (unicode : Bool)
  | wordEndHalf (unicode : Bool)
  deriving Repr, DecidableEq

/-- A pattern. -/
inductive Pattern where
  | empty
  /-- These characters one after the other. -/
  | literal (text : List Char)
  | cls (c : CharClass)
  | look (l : Look)
  /-- From `least` to `most` times, or any number of times from `least` on. A greedy repetition
  prefers long matches to short ones. -/
  | times (p : Pattern) (least : Nat) (most : Option Nat) (greedy : Bool)
  /-- A group whose matches are remembered, with its number. -/
  | capture (number : Nat) (p : Pattern)
  | seq (ps : List Pattern)
  | alt (ps : List Pattern)
  deriving Repr

namespace Pattern

mutual

/-- Whether two patterns are written alike. -/
def same : Pattern → Pattern → Bool
  | .empty, .empty => true
  | .literal a, .literal b => a = b
  | .cls a, .cls b => a = b
  | .look a, .look b => a = b
  | .times p least most greedy, .times p' least' most' greedy' =>
    least = least' && most = most' && greedy = greedy' && same p p'
  | .capture n p, .capture n' p' => n = n' && same p p'
  | .seq ps, .seq ps' => sameAll ps ps'
  | .alt ps, .alt ps' => sameAll ps ps'
  | _, _ => false

/-- Whether two lists of patterns are written alike. -/
def sameAll : List Pattern → List Pattern → Bool
  | [], [] => true
  | p :: ps, p' :: ps' => same p p' && sameAll ps ps'
  | _, _ => false

end

/-- The number of bytes of a text in UTF-8. -/
def bytesOf (text : List Char) : Nat := text.foldr (fun c n => c.utf8Size + n) 0

/-- The number of bytes of a code point in UTF-8. -/
def codeSize (n : Nat) : Nat :=
  if n < 0x80 then 1 else if n < 0x800 then 2 else if n < 0x10000 then 3 else 4

mutual

/-- The least number of bytes of a match, if it can be told. -/
def shortest? : Pattern → Option Nat
  | .empty => some 0
  | .literal text => some (bytesOf text)
  | .cls c => c.codes.first?.map fun n => if c.bytes then 1 else codeSize n
  | .look _ => some 0
  | .times p least _ _ => (shortest? p).map (· * least)
  | .capture _ p => shortest? p
  | .seq ps => shortestSum ps
  | .alt ps => shortestOf ps

/-- The least number of bytes of matches one after the other. -/
def shortestSum : List Pattern → Option Nat
  | [] => some 0
  | p :: ps =>
    match shortest? p, shortestSum ps with
    | some m, some n => some (m + n)
    | _, _ => none

/-- The least number of bytes of a match of one of the patterns. -/
def shortestOf : List Pattern → Option Nat
  | [] => none
  | [p] => shortest? p
  | p :: ps =>
    match shortest? p, shortestOf ps with
    | some m, some n => some (min m n)
    | _, _ => none

end

mutual

/-- The greatest number of bytes of a match, if there is one. -/
def longest? : Pattern → Option Nat
  | .empty => some 0
  | .literal text => some (bytesOf text)
  | .cls c => c.codes.last?.map fun n => if c.bytes then 1 else codeSize n
  | .look _ => some 0
  | .times p _ most _ =>
    match longest? p, most with
    | some m, some n => some (m * n)
    | _, _ => none
  | .capture _ p => longest? p
  | .seq ps => longestSum ps
  | .alt ps => longestOf ps

/-- The greatest number of bytes of matches one after the other. -/
def longestSum : List Pattern → Option Nat
  | [] => some 0
  | p :: ps =>
    match longest? p, longestSum ps with
    | some m, some n => some (m + n)
    | _, _ => none

/-- The greatest number of bytes of a match of one of the patterns. -/
def longestOf : List Pattern → Option Nat
  | [] => none
  | [p] => longest? p
  | p :: ps =>
    match longest? p, longestOf ps with
    | some m, some n => some (max m n)
    | _, _ => none

end

mutual

/-- Whether every match is bound by the condition `edge`, as its first part or, read from the back,
as its last. -/
def boundBy (edge : Look) (fromBack : Bool) : Pattern → Bool
  | .look l => l = edge
  | .times p least _ _ => 0 < least && boundBy edge fromBack p
  | .capture _ p => boundBy edge fromBack p
  | .seq ps => if fromBack then (lastBoundBy edge ps).1 else firstBoundBy edge ps
  | .alt ps => !ps.isEmpty && allBoundBy edge fromBack ps
  | _ => false

/-- Whether one of the patterns up to the first that takes characters is bound. -/
def firstBoundBy (edge : Look) : List Pattern → Bool
  | [] => false
  | p :: ps => boundBy edge false p || (longest? p = some 0 && firstBoundBy edge ps)

/-- Whether one of the patterns from the last that takes characters on is bound, and whether none of
them takes characters. -/
def lastBoundBy (edge : Look) : List Pattern → Bool × Bool
  | [] => (false, true)
  | p :: ps =>
    let (bound, vacant) := lastBoundBy edge ps
    (bound || (vacant && boundBy edge true p), vacant && longest? p = some 0)

/-- Whether all patterns are bound. -/
def allBoundBy (edge : Look) (fromBack : Bool) : List Pattern → Bool
  | [] => true
  | p :: ps => boundBy edge fromBack p && allBoundBy edge fromBack ps

end

end Pattern

end LineShell.Regex
