import LineShell.Toml.Scalar

/-!
Reading whole TOML documents: keys, arrays, tables between braces, and sections.
-/
namespace LineShell.Toml

namespace Reader

/-- Brackets and dotted keys nest less deep than this. -/
def depthLimit : Nat := 80

/-- Whether a character may stand in a key without quotes. -/
def isKeyChar (c : Char) : Bool := c.isAlphanum || c = '_' || c = '-'

/-- Reads one name of a key. -/
def name : Reader String := do
  match ← peek with
  | some '\x22' | some '\x27' => shortString
  | _ =>
    let cs ← takeWhile isKeyChar
    require !cs.isEmpty
    return String.ofList cs

/-- Reads names with points between them, given those read before, last first. -/
def names : Nat → List String → Reader (List String)
  | 0, _ => failure
  | fuel + 1, done => do
    gap
    let n ← name
    gap
    if ← accept "." then names fuel (n :: done) else return n :: done

/-- Reads a key. -/
def key : Reader Key := do
  match ← names ((← get).length + 1) [] with
  | [] => failure
  | last :: earlier =>
    require (earlier.length + 1 < depthLimit)
    return ⟨earlier.reverse, last⟩

/-- The text after gaps, line breaks and comments, of which each ends with its line. -/
def pastFiller? (inComment : Bool) : List Char → Option (List Char)
  | [] => if inComment then none else some []
  | c :: cs =>
    if c = '\n' then pastFiller? false cs
    else if c = '\x0d' then
      match cs with
      | d :: ds => if d = '\n' then pastFiller? false ds else none
      | [] => none
    else if inComment then if isText c then pastFiller? true cs else none
    else if isGap c then pastFiller? false cs
    else if c = '#' then pastFiller? true cs
    else some (c :: cs)

/-- Skips gaps, line breaks and comments. -/
def filler : Reader Unit := do
  let some rest := pastFiller? false (← get) | failure
  set rest

mutual

/-- Reads a value inside `depth` brackets. -/
def value (depth : Nat) : Nat → Reader Value
  | 0 => failure
  | fuel + 1 => do
    match ← peek with
    | some '\x22' | some '\x27' => return .text (← string)
    | some '[' =>
      drop 1
      require (depth + 1 < depthLimit)
      return .array (← items (depth + 1) fuel [])
    | some '\x7b' =>
      drop 1
      require (depth + 1 < depthLimit)
      gap
      let ps ← if (← peek) = some '\x7d' then pure [] else pairs (depth + 1) fuel []
      expect "\x7d"
      let some es := Entries.assignAll [] ps | failure
      return .table .inline es
    | _ => bare

/-- Reads the items of an array and its end; a comma may stand after the last. -/
def items (depth : Nat) : Nat → List Value → Reader (List Value)
  | 0, _ => failure
  | fuel + 1, done => do
    filler
    if ← accept "]" then return done.reverse
    let v ← value depth fuel
    filler
    if ← accept "," then items depth fuel (v :: done)
    else
      expect "]"
      return (v :: done).reverse

/-- Reads keys with values up to a closing brace. -/
def pairs (depth : Nat) : Nat → List (Key × Value) → Reader (List (Key × Value))
  | 0, _ => failure
  | fuel + 1, done => do
    let k ← key
    expect "="
    gap
    let v ← value depth fuel
    gap
    if ← accept "," then pairs depth fuel ((k, v) :: done) else return ((k, v) :: done).reverse

end

/-- Reads a header, from its bracket on. -/
def header : Reader Header := do
  let repeated ← accept "[["
  if !repeated then expect "["
  let k ← key
  expect (if repeated then "]]" else "]")
  lineEnd
  return ⟨k, repeated⟩

/-- Reads a key with its value, on a line of their own. -/
def pair : Reader (Key × Value) := do
  let k ← key
  expect "="
  gap
  let v ← value 0 (2 * (← get).length + 2)
  lineEnd
  return (k, v)

/-- A section read so far, its keys last first, put before those read earlier. -/
def closeSection (current : Section) (done : List Section) : List Section :=
  { current with pairs := current.pairs.reverse } :: done

/-- Reads all lines; the sections, last first. -/
def sections : Nat → Section → List Section → Reader (List Section)
  | 0, _, _ => failure
  | fuel + 1, current, done => do
    gap
    match ← peek with
    | none => return closeSection current done
    | some '#' | some '\n' | some '\x0d' =>
      lineEnd
      sections fuel current done
    | some '[' =>
      let h ← header
      sections fuel { header := some h } (closeSection current done)
    | some _ =>
      let p ← pair
      sections fuel { current with pairs := p :: current.pairs } done

end Reader

/-- Reads a document: its root table. A byte order mark may stand first. -/
def parse (text : String) : Option Entries := do
  let cs := text.toList
  let cs := if cs.head? = some (Char.ofNat 0xFEFF) then cs.drop 1 else cs
  let (sections, _) ← (Reader.sections (cs.length + 1) {} []).run cs
  Entries.ofSections sections.reverse

end LineShell.Toml
