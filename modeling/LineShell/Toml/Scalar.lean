import LineShell.Toml.Value
import LineShell.Unicode.Table

/-!
Reading single values of a TOML document: strings in their four ways of writing, numbers, dates and
truth values. A reader takes what it reads from the front of the text, or refuses the document.
-/
namespace LineShell.Toml

/-- A step of reading. -/
abbrev Reader (α : Type) := StateT (List Char) Option α

namespace Reader

/-- The next character. -/
def peek : Reader (Option Char) := return (← get).head?

/-- Drops the next characters. -/
def drop (n : Nat) : Reader Unit := modify (·.drop n)

/-- Reads the next character, which has to be there. -/
def next : Reader Char := do
  let some c ← peek | failure
  drop 1
  return c

/-- Refuses the document unless something holds. -/
def require (holds : Bool) : Reader Unit := if holds then pure () else failure

/-- Whether a word comes next. -/
def sees (word : String) : Reader Bool := return word.toList.isPrefixOf (← get)

/-- Reads a word if it comes next. -/
def accept (word : String) : Reader Bool := do
  if ← sees word then
    drop word.length
    return true
  else return false

/-- Reads a word that has to come next. -/
def expect (word : String) : Reader Unit := do require (← accept word)

/-- Reads all characters for which a test holds. -/
def takeWhile (test : Char → Bool) : Reader (List Char) := do
  let taken := (← get).takeWhile test
  drop taken.length
  return taken

/-- Whether a character is a space or a tab. -/
def isGap (c : Char) : Bool := c = ' ' || c = '\t'

/-- Skips spaces and tabs. -/
def gap : Reader Unit := do let _ ← takeWhile isGap

/-- Reads a line break if one comes next. -/
def lineBreak? : Reader Bool := do
  if ← accept "\n" then return true else accept "\x0d\n"

/-- Whether a character may stand in a comment or a string: no control character but the tab. -/
def isText (c : Char) : Bool := c = '\t' || (32 ≤ c.toNat && c.toNat ≠ 127)

/-- Skips a comment if one comes next. -/
def comment : Reader Unit := do
  if (← peek) = some '#' then let _ ← takeWhile isText

/-- Reads the rest of a line that holds nothing more. -/
def lineEnd : Reader Unit := do
  gap
  comment
  if (← peek).isSome then require (← lineBreak?)

/-- The character that a backslash and a letter stand for. -/
def escapeOf? : Char → Option Char
  | 'b' => some '\x08'
  | 't' => some '\t'
  | 'n' => some '\n'
  | 'f' => some '\x0c'
  | 'r' => some '\x0d'
  | '\x22' => some '\x22'
  | '\x5c' => some '\x5c'
  | _ => none

/-- Whether a character is a hexadecimal digit. -/
def isHex (c : Char) : Bool := c.isDigit || ('a' ≤ c && c ≤ 'f') || ('A' ≤ c && c ≤ 'F')

/-- Reads a character's number with a fixed count of digits. -/
def hexChar (count : Nat) : Reader Char := do
  let digits := (← get).take count
  require (digits.length = count && digits.all isHex)
  let n := Unicode.hexNumber digits
  require (n.isValidChar : Bool)
  drop count
  return Char.ofNat n

/-- Reads what follows a backslash. -/
def escape : Reader Char := do
  match ← next with
  | 'u' => hexChar 4
  | 'U' => hexChar 8
  | c =>
    let some e := escapeOf? c | failure
    return e

/-- Reads the inside of a string in double quotes and its end. -/
def basicRest : Nat → List Char → Reader String
  | 0, _ => failure
  | fuel + 1, done => do
    let c ← next
    if c = '\x22' then return String.ofList done.reverse
    else if c = '\x5c' then basicRest fuel ((← escape) :: done)
    else
      require (isText c)
      basicRest fuel (c :: done)

/-- Reads the inside of a string in single quotes and its end. -/
def literalRest : Reader String := do
  let cs ← takeWhile fun c => isText c && c ≠ '\x27'
  expect "'"
  return String.ofList cs

/-- Reads the quotes that come next in a text of several lines: how many belong to the text, and whether
the others end it. Three quotes end a text, and up to two may stand right before them. -/
def quotes (quote : Char) : Reader (Nat × Bool) := do
  let n := ((← get).takeWhile (· = quote)).length
  if n < 3 then
    drop n
    return (n, false)
  else
    let kept := min (n - 3) 2
    drop (kept + 3)
    return (kept, true)

/-- Reads the inside of a text of several lines and its end. With `escapes` a backslash introduces a
character, or hides a line break with all gaps and line breaks after it. -/
def linesRest (quote : Char) (escapes : Bool) : Nat → List Char → Reader String
  | 0, _ => failure
  | fuel + 1, done => do
    if (← peek) = some quote then
      let (n, ended) ← quotes quote
      let done := List.replicate n quote ++ done
      if ended then return String.ofList done.reverse else linesRest quote escapes fuel done
    else if ← lineBreak? then linesRest quote escapes fuel ('\n' :: done)
    else
      let c ← next
      if escapes && c = '\x5c' then
        let after := (← get).dropWhile isGap
        if after.head? = some '\n' || ['\x0d', '\n'].isPrefixOf after then
          set after
          skipBreaks fuel
          linesRest quote escapes fuel done
        else linesRest quote escapes fuel ((← escape) :: done)
      else
        require (isText c)
        linesRest quote escapes fuel (c :: done)
where
  /-- Skips gaps and line breaks. -/
  skipBreaks : Nat → Reader Unit
    | 0 => pure ()
    | fuel + 1 => do
      gap
      if ← lineBreak? then skipBreaks fuel

/-- Reads a string of one line, from its quote on. -/
def shortString : Reader String := do
  match ← next with
  | '\x22' => basicRest (← get).length []
  | '\x27' => literalRest
  | _ => failure

/-- Reads a string, from its quote on. -/
def string : Reader String := do
  if ← accept "\x22\x22\x22" then
    let _ ← lineBreak?
    linesRest '\x22' true ((← get).length + 1) []
  else if ← accept "'''" then
    let _ ← lineBreak?
    linesRest '\x27' false ((← get).length + 1) []
  else shortString

/-- The digits at the front, single low lines between them left out. -/
def digitsOf (test : Char → Bool) : List Char → List Char × List Char
  | [] => ([], [])
  | c :: cs =>
    if test c then
      let (more, rest) := afterDigit cs
      (c :: more, rest)
    else ([], c :: cs)
where
  /-- The digits that may follow a digit. -/
  afterDigit : List Char → List Char × List Char
    | [] => ([], [])
    | c :: cs =>
      if test c then
        let (more, rest) := afterDigit cs
        (c :: more, rest)
      else if c = '_' then
        match cs with
        | d :: ds =>
          if test d then
            let (more, rest) := afterDigit ds
            (d :: more, rest)
          else ([], c :: cs)
        | [] => ([], c :: cs)
      else ([], c :: cs)

/-- Reads at least one digit. -/
def digits (test : Char → Bool) : Reader (List Char) := do
  let (ds, rest) := digitsOf test (← get)
  require !ds.isEmpty
  set rest
  return ds

/-- The number that digits write in a base. -/
def numberOf (base : Nat) (ds : List Char) : Nat :=
  ds.foldl (fun n d => n * base + Unicode.hexDigit d) 0

/-- Reads a sign: whether it is a minus. -/
def sign : Reader Bool := do
  if ← accept "-" then return true
  let _ ← accept "+"
  return false

/-- Reads a whole number in base ten, which has no leading zeros. -/
def decimal : Reader Int := do
  let negative ← sign
  let n ←
    if ← accept "0" then pure 0
    else numberOf 10 <$> digits Char.isDigit
  return if negative then -Int.ofNat n else Int.ofNat n

/-- Whether a number fits into sixty-four bits. -/
def fits (n : Int) : Bool :=
  -Int.ofNat (Nat.pow 2 63) ≤ n && n < Int.ofNat (Nat.pow 2 63)

/-- Reads a whole number. -/
def integer : Reader Value := do
  let n ←
    if ← accept "0x" then Int.ofNat <$> numberOf 16 <$> digits isHex
    else if ← accept "0o" then
      Int.ofNat <$> numberOf 8 <$> digits fun c => '0' ≤ c && c ≤ '7'
    else if ← accept "0b" then
      Int.ofNat <$> numberOf 2 <$> digits fun c => c = '0' || c = '1'
    else decimal
  require (fits n)
  return .integer n

/-- Reads an exponent. -/
def exponent : Reader Int := do
  let c ← next
  require (c = 'e' || c = 'E')
  let negative ← sign
  let n := Int.ofNat (numberOf 10 (← digits Char.isDigit))
  return if negative then -n else n

/-- Reads the digits of a fraction. -/
def fraction : Reader (List Char) := do
  expect "."
  digits Char.isDigit

/-- Whether `n * 10 ^ e` is too large for a number of double precision, and so would be an infinity:
at least halfway between the largest such number and the next power of two. -/
def overflows (n : Nat) (e : Int) : Bool :=
  let places := Int.ofNat (Nat.toDigits 10 n).length + e
  if n = 0 || places < 309 then false
  else if 309 < places then true
  else decide ((Nat.pow 2 1024 - Nat.pow 2 970) * Nat.pow 10 (-e).toNat ≤ n * Nat.pow 10 e.toNat)

/-- Reads a number with a fraction or an exponent, an infinity or no number. A number above zero may
not be too large; one below zero may. -/
def real : Reader Value := do
  let start ← get
  let negative ← sign
  if (← accept "inf") then return .real
  if (← accept "nan") then return .real
  set start
  let whole ← decimal
  let (part, e) ←
    if (← peek) = some '.' then do
      let part ← fraction
      if (← peek) = some 'e' || (← peek) = some 'E' then pure (part, ← exponent)
      else pure (part, 0)
    else pure ([], ← exponent)
  require (negative ||
    !overflows (whole.natAbs * Nat.pow 10 part.length + numberOf 10 part) (e - Int.ofNat part.length))
  return .real

/-- Reads a number of a fixed count of digits between two bounds. -/
def fixed (count lo hi : Nat) : Reader Nat := do
  let ds := (← get).take count
  require (ds.length = count && ds.all Char.isDigit)
  let n := numberOf 10 ds
  require (lo ≤ n && n ≤ hi)
  drop count
  return n

/-- The number of days of a month. -/
def daysOf (year month : Nat) : Nat :=
  if month = 2 then if (year % 4 = 0 && year % 100 ≠ 0) || year % 400 = 0 then 29 else 28
  else if month = 4 || month = 6 || month = 9 || month = 11 then 30
  else 31

/-- Reads a day of the calendar. -/
def calendarDay : Reader Unit := do
  let year ← fixed 4 0 9999
  expect "-"
  let month ← fixed 2 1 12
  expect "-"
  let _ ← fixed 2 1 (daysOf year month)

/-- Reads a time of day, which may have a fraction of a second. -/
def clockTime : Reader Unit := do
  let _ ← fixed 2 0 23
  expect ":"
  let _ ← fixed 2 0 59
  expect ":"
  let _ ← fixed 2 0 60
  if (← peek) = some '.' then
    drop 1
    require !(← takeWhile Char.isDigit).isEmpty

/-- Reads the offset of a time from the world's, if one comes next. -/
def offset : Reader Unit := do
  match ← peek with
  | some 'Z' | some 'z' => drop 1
  | some '+' | some '-' =>
    drop 1
    let _ ← fixed 2 0 23
    expect ":"
    let _ ← fixed 2 0 59
  | _ => pure ()

/-- Reads the time after a day. -/
def timeAfterDay : Reader Unit := do
  let c ← next
  require (c = 'T' || c = 't' || c = ' ')
  clockTime
  offset

/-- Reads a date, a time, or both. -/
def date : Reader Value := do
  (do calendarDay; timeAfterDay <|> pure ()) <|> clockTime
  return .date

/-- Reads a value that is written without quotes or brackets. -/
def bare : Reader Value := do
  match ← peek with
  | some 't' => expect "true"; return .boolean true
  | some 'f' => expect "false"; return .boolean false
  | some 'i' => expect "inf"; return .real
  | some 'n' => expect "nan"; return .real
  | _ => date <|> real <|> integer

end Reader

end LineShell.Toml
