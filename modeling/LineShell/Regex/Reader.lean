import LineShell.Regex.Build
import LineShell.Text.Blank

/-!
The reader of line patterns works on a cursor: the text left, the flags in force and the group names
used. Every reader step either advances the cursor or refuses the pattern; why it is refused does not
matter to anyone.
-/
namespace LineShell.Regex

/-- The flags in force at a place of a pattern. -/
structure Flags where
  ignoreCase : Bool := false
  multiLine : Bool := false
  dotAll : Bool := false
  unicode : Bool := true
  crlf : Bool := false
  verbose : Bool := false
  reluctant : Bool := false
  deriving Repr, DecidableEq

namespace Flags

/-- Switches the flag that a letter names. -/
def set (f : Flags) (letter : Char) (on : Bool) : Option Flags :=
  match letter with
  | 'i' => some { f with ignoreCase := on }
  | 'm' => some { f with multiLine := on }
  | 's' => some { f with dotAll := on }
  | 'U' => some { f with reluctant := on }
  | 'u' => some { f with unicode := on }
  | 'R' => some { f with crlf := on }
  | 'x' => some { f with verbose := on }
  | _ => none

/-- The class of some code points, or of bytes where a pattern is not about characters. -/
def toClass (f : Flags) (codes : Unicode.CodeSet) : CharClass := ⟨codes, !f.unicode⟩

/-- The class with what differs from it in case only, where case is ignored. -/
def fold (f : Flags) (c : CharClass) : CharClass := if f.ignoreCase then c.folded else c

/-- The set with what differs from it in case only, where case is ignored. -/
def foldSet (f : Flags) (codes : Unicode.CodeSet) : Unicode.CodeSet := (f.fold (f.toClass codes)).codes

/-- Whether a class may stand where these flags are in force: bytes outside ASCII are no characters
by themselves. -/
def admits (f : Flags) (c : CharClass) : Bool := f.unicode || c.isAscii

end Flags

/-- What is left to read, and what has been agreed on so far. -/
structure Cursor where
  rest : List Char
  flags : Flags := {}
  names : List String := []
  captures : Nat := 0

/-- A step of reading a pattern, which may refuse it. -/
abbrev Reader (α : Type) := StateT Cursor Option α

namespace Reader

/-- Drops blank characters and comments that end with their line. -/
def dropFiller : Bool → List Char → List Char
  | _, [] => []
  | true, c :: cs => dropFiller (c ≠ '\n') cs
  | false, c :: cs =>
    if Text.isBlank c then dropFiller false cs
    else if c = '#' then dropFiller true cs
    else c :: cs

/-- The text without the filler at its start, where filler is allowed. -/
def pastFiller (f : Flags) (cs : List Char) : List Char :=
  if f.verbose then dropFiller false cs else cs

/-- The next character. -/
def peek : Reader (Option Char) := return (← get).rest.head?

/-- The flags in force. -/
def flags : Reader Flags := return (← get).flags

/-- Replaces the flags in force. -/
def setFlags (f : Flags) : Reader Unit := modify fun c => { c with flags := f }

/-- Skips filler. -/
def skipFiller : Reader Unit := modify fun c => { c with rest := pastFiller c.flags c.rest }

/-- Drops the next character. -/
def drop : Reader Unit := modify fun c => { c with rest := c.rest.drop 1 }

/-- Drops the next character and the filler after it. -/
def dropSkip : Reader Unit := do drop; skipFiller

/-- The next character, which has to be there and is not dropped. -/
def current : Reader Char := do
  let some c ← peek | failure
  return c

/-- Reads the next character, which has to be there. -/
def next : Reader Char := do
  let c ← current
  drop
  return c

/-- Refuses the pattern unless something holds. -/
def require (holds : Bool) : Reader Unit := if holds then pure () else failure

/-- Reads `word` if it comes next. -/
def accept (word : String) : Reader Bool := do
  let c ← get
  let w := word.toList
  if w.isPrefixOf c.rest then
    set { c with rest := c.rest.drop w.length }
    return true
  else return false

/-- Reads the first of some words that comes next. -/
def acceptAny : List String → Reader Bool
  | [] => pure false
  | word :: others => do
    if ← accept word then return true else acceptAny others

/-- Reads while a test holds, with the filler between; at most `fuel` characters. -/
def takeWhile (test : Char → Bool) : Nat → List Char → Reader (List Char)
  | 0, done => pure done.reverse
  | fuel + 1, done => do
    match ← peek with
    | some c => if test c then dropSkip; takeWhile test fuel (c :: done) else return done.reverse
    | none => return done.reverse

/-- Reads all characters for which a test holds, with the filler between. -/
def takeAll (test : Char → Bool) : Reader (List Char) := do
  takeWhile test (← get).rest.length []

/-- Whether a character is a hexadecimal digit. -/
def isHex (c : Char) : Bool := c.isDigit || ('a' ≤ c && c ≤ 'f') || ('A' ≤ c && c ≤ 'F')

/-- The character with a number written in base 16. -/
def charOfHex (digits : List Char) : Reader Char := do
  let n := Unicode.hexNumber digits
  require (n.isValidChar : Bool)
  return Char.ofNat n

/-- Reads exactly `count` hexadecimal digits. -/
def hexDigits : Nat → List Char → Reader (List Char)
  | 0, done => pure done.reverse
  | count + 1, done => do
    let c ← current
    require (isHex c)
    dropSkip
    hexDigits count (c :: done)

/-- Reads a character's number: in braces, or of fixed width. Tells whether it was of fixed width. -/
def hexChar (width : Nat) : Reader (Char × Bool) := do
  if (← current) = '\x7b' then
    dropSkip
    let digits ← takeAll isHex
    require ((← current) = '\x7d' && !digits.isEmpty)
    dropSkip
    return (← charOfHex digits, false)
  else return (← charOfHex (← hexDigits width []), true)

/-- Reads a decimal number below 2^32, with blanks around it. -/
def decimal : Reader Nat := do
  modify fun c => { c with rest := c.rest.dropWhile Text.isBlank }
  let digits ← takeAll Char.isDigit
  modify fun c => { c with rest := c.rest.dropWhile Text.isBlank }
  skipFiller
  let n := digits.foldl (fun n d => n * 10 + (d.toNat - 48)) 0
  require (!digits.isEmpty && n < Nat.pow 2 32)
  return n

/-- Whether a character may stand in a group's name. -/
def isNameChar (first : Bool) (c : Char) : Bool :=
  c = '_' || Unicode.Property.alphabetic.has c.toNat ||
    (!first && (c = '.' || c = '[' || c = ']' || (Unicode.Category.group 'N').has c.toNat))

/-- The number of a new group whose matches are remembered. -/
def newCapture : Reader Nat := do
  let c ← get
  set { c with captures := c.captures + 1 }
  return c.captures + 1

/-- Reads a group's name and the sign that ends it; no two groups share a name. -/
def groupName : Reader Unit := do
  let c ← get
  let name := c.rest.takeWhile (· ≠ '>')
  let rest := c.rest.drop name.length
  let text := String.ofList name
  require (!rest.isEmpty && !c.names.contains text)
  match name with
  | [] => failure
  | first :: others => require (isNameChar true first && others.all (isNameChar false))
  set { c with rest := rest.drop 1, names := text :: c.names }

/-- Reads flag letters up to a closing sign: the flags they make, whether there were any, and the
sign. No letter occurs twice, and one `-` at most stands before letters that are switched off. -/
def flagLetters : List Char → Flags → List Char → Bool → Reader (Flags × List Char)
  | [], _, _, _ => failure
  | c :: cs, f, seen, dangling => do
    if c = ':' || c = ')' then
      require !dangling
      modify fun cur => { cur with rest := c :: cs }
      return (f, seen)
    else
      require !(seen.contains c)
      if c = '-' then flagLetters cs f (c :: seen) true
      else
        match f.set c !(seen.contains '-') with
        | some f => flagLetters cs f (c :: seen) false
        | none => failure

end Reader

end LineShell.Regex
