import LineShell.Unicode.Name

/-!
Character classes of line patterns: sets of code points, or of bytes where a pattern is not about
characters.
-/
namespace LineShell.Regex

open Unicode (CodeSet)

/-- A class of characters. -/
structure CharClass where
  codes : CodeSet
  /-- Whether its members are single bytes. -/
  bytes : Bool := false
  deriving DecidableEq, Repr

namespace CharClass

/-- Whether a code point is in the class. -/
def has (c : CharClass) (n : Nat) : Bool := c.codes.has n

/-- Whether nothing is in the class. -/
def isEmpty (c : CharClass) : Bool := c.codes.spans.isEmpty

/-- The class of bytes in which nothing is. -/
def none : CharClass := ⟨.empty, true⟩

/-- In one class or the other. -/
def union (a b : CharClass) : CharClass := { a with codes := a.codes.union b.codes }

/-- In both classes. -/
def inter (a b : CharClass) : CharClass := { a with codes := a.codes.inter b.codes }

/-- In the first class only. -/
def diff (a b : CharClass) : CharClass := { a with codes := a.codes.diff b.codes }

/-- In exactly one of the classes. -/
def symmDiff (a b : CharClass) : CharClass := { a with codes := a.codes.symmDiff b.codes }

/-- Not in the class. -/
def negate (a : CharClass) : CharClass :=
  { a with codes := if a.bytes then a.codes.negateUpTo 255 else a.codes.negate }

/-- ASCII capital letters. -/
def asciiUpper : CodeSet := .range 65 90

/-- ASCII small letters. -/
def asciiLower : CodeSet := .range 97 122

/-- The set together with all ASCII letters that differ from one of it in case only. -/
def foldedAscii (s : CodeSet) : CodeSet :=
  let capitals := (s.inter asciiUpper).spans.toList
  let smalls := (s.inter asciiLower).spans.toList
  .ofSpans (s.spans.toList ++ capitals.map (fun t => ⟨t.lo + 32, t.hi + 32⟩) ++
    smalls.map fun t => ⟨t.lo - 32, t.hi - 32⟩)

/-- Together with all that differs from a member in case only. -/
def folded (a : CharClass) : CharClass :=
  { a with codes := if a.bytes then foldedAscii a.codes else a.codes.folded }

/-- Whether all members are ASCII. -/
def isAscii (a : CharClass) : Bool := a.codes.last?.all (· < 128)

/-- ASCII digits. -/
def asciiDigit : CodeSet := .range 48 57

/-- ASCII letters, digits and the low line. -/
def asciiWord : CodeSet := .ofText "30-39 41-5a 5f 61-7a"

/-- ASCII blanks. -/
def asciiSpace : CodeSet := .ofText "9-d 20"

/-- The set that brackets with colons name. -/
def named? (name : String) : Option CodeSet :=
  match name with
  | "alnum" => some (.ofText "30-39 41-5a 61-7a")
  | "alpha" => some (.ofText "41-5a 61-7a")
  | "ascii" => some (.range 0 127)
  | "blank" => some (.ofText "9 20")
  | "cntrl" => some (.ofText "0-1f 7f")
  | "digit" => some asciiDigit
  | "graph" => some (.range 33 126)
  | "lower" => some asciiLower
  | "print" => some (.range 32 126)
  | "punct" => some (.ofText "21-2f 3a-40 5b-60 7b-7e")
  | "space" => some asciiSpace
  | "upper" => some asciiUpper
  | "word" => some asciiWord
  | "xdigit" => some (.ofText "30-39 41-46 61-66")
  | _ => .none

end CharClass

end LineShell.Regex
