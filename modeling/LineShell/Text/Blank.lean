import LineShell.Text.Split

/-!
Blank characters are those with the Unicode property White_Space. They separate the tokens of a
command line and the words of a substitution's output.
-/
namespace LineShell.Text

/-- Whether `c` has the property White_Space. -/
def isBlank (c : Char) : Bool :=
  let n := c.toNat
  (9 ≤ n && n ≤ 13) || n == 0x20 || n == 0x85 || n == 0xA0 || n == 0x1680 ||
    (0x2000 ≤ n && n ≤ 0x200A) || n == 0x2028 || n == 0x2029 || n == 0x202F || n == 0x205F ||
    n == 0x3000

/-- Whether every character of the text is blank; so the empty text is. -/
def allBlank (cs : List Char) : Bool := cs.all isBlank

/-- The maximal runs of characters that are not blank, in order. -/
def blankWords (cs : List Char) : List (List Char) :=
  (splitWhere isBlank cs).filter (!·.isEmpty)

end LineShell.Text
