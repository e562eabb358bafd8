import LineShell.Regex.Reader

/-!
What a backslash introduces in a pattern: a character, a class of characters, or a condition on the
position.
-/
namespace LineShell.Regex

/-- What stands for itself or for a class in a pattern. -/
inductive Atom where
  /-- A character; `byte` says that it was written as a byte's two digits. -/
  | char (c : Char) (byte : Bool)
  | cls (c : CharClass)
  | look (l : Look)

namespace Reader

/-- The class as these flags take it: folded if asked for, negated, and admitted. -/
def foldedClass (c : CharClass) (negated : Bool) : Reader CharClass := do
  let f ← flags
  let c := f.fold c
  let c := if negated then c.negate else c
  require (f.admits c)
  return c

/-- The class of digits, blanks or word characters that a letter names. -/
def letterClass (letter : Char) : Reader CharClass := do
  let f ← flags
  let c := f.toClass <|
    match letter.toLower, f.unicode with
    | 'd', true => Unicode.Category.nd
    | 'd', false => CharClass.asciiDigit
    | 's', true => Unicode.Property.whiteSpace
    | 's', false => CharClass.asciiSpace
    | _, true => Unicode.Property.word
    | _, false => CharClass.asciiWord
  let c := if letter.isUpper then c.negate else c
  require (f.admits c)
  return c

/-- Splits a text before and after the first place where `sign` stands. -/
def splitAt? (sign : List Char) : List Char → List Char → Option (List Char × List Char)
  | _, [] => none
  | done, c :: cs =>
    if sign.isPrefixOf (c :: cs) then some (done.reverse, (c :: cs).drop sign.length)
    else splitAt? sign (c :: done) cs

/-- The set that a property's name, or its name and a value, stand for, and whether the sign between
them asks for all others. -/
def property? (text : List Char) : Option (Unicode.CodeSet × Bool) :=
  match splitAt? ['!', '='] [] text with
  | some (name, value) => (Unicode.CodeSet.ofNameValue? name value).map (·, true)
  | none =>
    match (splitAt? [':'] [] text).orElse fun _ => splitAt? ['='] [] text with
    | some (name, value) => (Unicode.CodeSet.ofNameValue? name value).map (·, false)
    | none => (Unicode.CodeSet.ofName? text).map (·, false)

/-- Reads a property: one letter, or a text in braces. -/
def property (negated : Bool) : Reader CharClass := do
  let c ← current
  let text ←
    if c = '\x7b' then do
      dropSkip
      let text ← takeAll (· ≠ '\x7d')
      require ((← peek) = some '\x7d')
      drop
      pure text
    else do
      require (c ≠ '\x5c')
      dropSkip
      pure [c]
  require (← flags).unicode
  let some (codes, others) := property? text | failure
  foldedClass ⟨codes, false⟩ (negated ^^ others)

/-- Whether a character may stand in the name of a word boundary. -/
def isBoundaryChar (c : Char) : Bool := c.isAlpha || c = '-'

/-- Reads what may follow the sign of a word boundary: the name of a special one in braces. Braces
that hold anything else are left for a repetition. -/
def wordBoundary : Reader Look := do
  let u := (← flags).unicode
  let start ← get
  if (← peek) ≠ some '\x7b' then return .wordBoundary u
  dropSkip
  if !isBoundaryChar (← current) then
    set start
    return .wordBoundary u
  let name ← takeAll isBoundaryChar
  require ((← peek) = some '\x7d')
  drop
  match String.ofList name with
  | "start" => return .wordStart u
  | "end" => return .wordEnd u
  | "start-half" => return .wordStartHalf u
  | "end-half" => return .wordEndHalf u
  | _ => failure

/-- Whether a character, with a backslash before it, stands for itself. -/
def isEscapable (c : Char) : Bool := c.toNat < 128 && !c.isAlphanum && c ≠ '<' && c ≠ '>'

/-- Reads what follows a backslash. -/
def escape : Reader Atom := do
  let c ← next
  let u := (← flags).unicode
  if isEscapable c then return .char c false
  match c with
  | 'x' => skipFiller; let (c, byte) ← hexChar 2; return .char c byte
  | 'u' => skipFiller; return .char (← hexChar 4).1 false
  | 'U' => skipFiller; return .char (← hexChar 8).1 false
  | 'p' => skipFiller; return .cls (← property false)
  | 'P' => skipFiller; return .cls (← property true)
  | 'd' | 's' | 'w' | 'D' | 'S' | 'W' => return .cls (← letterClass c)
  | 'a' => return .char '\x07' false
  | 'f' => return .char '\x0c' false
  | 't' => return .char '\t' false
  | 'n' => return .char '\n' false
  | 'r' => return .char '\r' false
  | 'v' => return .char '\x0b' false
  | 'A' => return .look .textStart
  | 'z' => return .look .textEnd
  | 'b' => return .look (← wordBoundary)
  | 'B' => return .look (.notWordBoundary u)
  | '<' => return .look (.wordStart u)
  | '>' => return .look (.wordEnd u)
  | _ => failure

end Reader

end LineShell.Regex
