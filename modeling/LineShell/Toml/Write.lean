import LineShell.Text.Split

/-!
Writing TOML: a string takes the plainest of four ways to write it that needs no escapes, and an
array of more than one item takes a line for each.
-/
namespace LineShell.Toml

/-- Whether a character can only be written by an escape; a tab and a line feed need none
everywhere. -/
def needsEscape (c : Char) : Bool :=
  c ≠ '\t' && c ≠ '\n' && (c.toNat < 32 || c.toNat = 127)

/-- The length of the longest run of a character. -/
def longestRun (mark : Char) (cs : List Char) : Nat :=
  (cs.foldl (fun (best, run) c => if c = mark then (max best (run + 1), run + 1) else (best, 0))
    (0, 0)).1

/-- Ways to write a string. -/
inductive Style where
  | basic
  | literal
  | basicLines
  | literalLines
  deriving Repr, DecidableEq

/-- The way to write a string: between quotes on one line if it can be, and with escapes only if
nothing else is left. -/
def Style.of (cs : List Char) : Style :=
  let broken := cs.contains '\n'
  let plain := !cs.any needsEscape
  let unescaped := plain && !cs.contains '\x5c'
  if unescaped && !cs.contains '\x22' && !broken then .basic
  else if plain && !cs.contains '\x27' && !broken then .literal
  else if unescaped && longestRun '\x22' cs ≤ 2 then .basicLines
  else if plain && longestRun '\x27' cs ≤ 2 then .literalLines
  else if broken then .basicLines
  else .basic

/-- The last four digits of a number in base 16, in upper case. -/
def hex4 (n : Nat) : String :=
  String.ofList ([n / 4096, n / 256, n / 16, n].map fun d =>
    (Nat.digitChar (d % 16)).toUpper)

/-- One character between double quotes; `lines` says that line feeds stand as they are. -/
def escaped (lines : Bool) (c : Char) : String :=
  match c with
  | '\x08' => "\\b"
  | '\t' => "\\t"
  | '\n' => if lines then "\n" else "\\n"
  | '\x0c' => "\\f"
  | '\x0d' => "\\r"
  | '\x5c' => "\\\\"
  | c => if needsEscape c then "\\u" ++ hex4 c.toNat else c.toString

/-- The inside of a string in double quotes. No more than `most` quotes stand in a row; `run` counts
those just written. -/
def basicBody (lines : Bool) (most run : Nat) : List Char → List String
  | [] => []
  | c :: cs =>
    if c = '\x22' then
      if run < most then "\x22" :: basicBody lines most (run + 1) cs
      else "\\\x22" :: basicBody lines most 0 cs
    else escaped lines c :: basicBody lines most 0 cs

/-- A string. -/
def writeString (s : String) : String :=
  let cs := s.toList
  let lead := if cs.contains '\n' then "\n" else ""
  match Style.of cs with
  | .basic => "\x22" ++ String.join (basicBody false 0 0 cs) ++ "\x22"
  | .literal => "'" ++ s ++ "'"
  | .basicLines => "\x22\x22\x22" ++ lead ++ String.join (basicBody true 2 0 cs) ++ "\x22\x22\x22"
  | .literalLines => "'''" ++ lead ++ s ++ "'''"

/-- An array of strings. -/
def writeStrings (items : List String) : String :=
  match items with
  | [] => "[]"
  | [one] => "[" ++ writeString one ++ "]"
  | _ => "[\n" ++ String.join (items.map fun s => "    " ++ writeString s ++ ",\n") ++ "]"

end LineShell.Toml
