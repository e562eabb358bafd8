import LineShell.Unicode.Property.Derived

/-!
Texts as the journal shows them: in double quotes with escapes for what does not print, and words
of a command line quoted so that a shell would read them back.
-/
namespace LineShell.Text

/-- The digits of a number in base 16, in lower case. -/
def hexText (n : Nat) : String := String.ofList (Nat.toDigits 16 n)

/-- The code points beyond ASCII that do not print by themselves: unassigned or invisible ones,
blanks, and those that only modify the one before them. -/
def silent : Unicode.CodeSet :=
  .unions [Unicode.Category.group 'C', Unicode.Category.group 'Z', Unicode.Category.unassigned,
    Unicode.Property.graphemeExtend]

/-- Whether a code point prints by itself. -/
def prints (n : Nat) : Bool :=
  if n < 0x80 then 0x20 ≤ n && n < 0x7F else !silent.has n

/-- One character between double quotes. -/
def shownChar (c : Char) : String :=
  if c = '\t' then "\\t" else if c = '\r' then "\\r" else if c = '\n' then "\\n"
  else if c = '\x00' then "\\0"
  else if c = '\x22' then "\\\"" else if c = '\x5c' then "\\\\"
  else if prints c.toNat then c.toString
  else "\\u\x7b" ++ hexText c.toNat ++ "\x7d"

/-- A text in double quotes. -/
def shown (s : String) : String := "\"" ++ String.join (s.toList.map shownChar) ++ "\""

namespace ShellWord

/-- The three ways to write a piece of a word. -/
structure Styles where
  bare : Bool
  single : Bool
  double : Bool
  deriving DecidableEq, Repr

/-- Whether no style is left. -/
def Styles.none (s : Styles) : Bool := !s.bare && !s.single && !s.double

/-- Whether a character needs no quotes. -/
def isBare (c : Char) : Bool := c.isAlphanum || "+-./:@]_".toList.contains c

/-- The styles of `s` that can also hold the character `c`. -/
def Styles.with (s : Styles) (c : Char) : Styles :=
  if 0x80 ≤ c.toNat then { s with bare := false }
  else
    { bare := s.bare && isBare c
      single := s.single && !(['\x27', '^', '\x5c'].contains c)
      double := s.double && !(['\x60', '$', '!', '^'].contains c) }

/-- Extends a piece, given latest character first, as long as one style can hold it all. -/
def extend (styles : Styles) (piece : List Char) : List Char → Styles × List Char × List Char
  | [] => (styles, piece, [])
  | c :: cs =>
    let styles' := styles.with c
    if styles'.none then (styles, piece, c :: cs) else extend styles' (c :: piece) cs

/-- Writes a piece in the plainest style left. -/
def write (styles : Styles) (piece : List Char) : String :=
  if styles.bare then String.ofList piece
  else if styles.single then "'" ++ String.ofList piece ++ "'"
  else
    "\"" ++ String.join (piece.map fun c =>
      if ['\x22', '\x5c', '$', '\x60'].contains c then "\\" ++ c.toString else c.toString) ++ "\""

/-- The longest piece at the start of a word that one style can hold. A circumflex is held only
right after an opening single quote. -/
def piece : List Char → Styles × List Char × List Char
  | [] => (⟨true, true, true⟩, [], [])
  | c :: cs =>
    if c = '^' then extend ⟨false, true, false⟩ [c] cs
    else extend ((⟨true, true, true⟩ : Styles).with c) [c] cs

/-- Writes a word piece by piece; there are at most as many pieces as characters. -/
def pieces : Nat → List Char → List String
  | 0, _ => []
  | _, [] => []
  | fuel + 1, cs =>
    let (styles, p, rest) := piece cs
    write styles p.reverse :: pieces fuel rest

/-- A word quoted where it has to be. -/
def quote (word : String) : String :=
  if word = "" then "''"
  else String.join (pieces word.length word.toList)

/-- Words of a command line; with the character U+0000 among them nothing can be quoted. -/
def line (words : List String) : String :=
  if words.any (·.toList.contains '\x00') then " ".intercalate words
  else " ".intercalate (words.map quote)

end ShellWord

end LineShell.Text
