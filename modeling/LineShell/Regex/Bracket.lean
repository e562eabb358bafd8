import LineShell.Regex.Escape

/-!
Classes in brackets: characters, ranges, named classes and nested brackets side by side, and the
operations between them, which all bind alike and to the left.
-/
namespace LineShell.Regex

open Unicode (CodeSet)

/-- A set of code points read so far, and how deep its parts are nested. -/
structure Nested where
  codes : CodeSet
  depth : Nat

/-- Operations on classes. -/
inductive ClassOp where
  | inter
  | diff
  | symmDiff

namespace ClassOp

/-- The sign of the operation. -/
def sign : ClassOp → String
  | .inter => "&&"
  | .diff => "--"
  | .symmDiff => "~~"

/-- Applies the operation. -/
def apply : ClassOp → CodeSet → CodeSet → CodeSet
  | .inter => CodeSet.inter
  | .diff => CodeSet.diff
  | .symmDiff => CodeSet.symmDiff

end ClassOp

/-- The inside of brackets as far as it has been read: what stands before the last operation, and the
members after it, last first. -/
structure Inside where
  earlier : Option (ClassOp × Nested) := none
  members : List Nested := []

namespace Inside

/-- The greatest depth among members. -/
def deepest (members : List Nested) : Nat := members.foldl (fun n m => max n m.depth) 0

/-- The members together; one member alone is not nested deeper by that. -/
def union (members : List Nested) : Nested :=
  match members with
  | [one] => one
  | _ =>
    ⟨.unions (members.map (·.codes)), if members.isEmpty then 0 else deepest members + 1⟩

/-- All that has been read, as one set. Both sides of an operation are folded first. -/
def close (f : Flags) (i : Inside) : Nested :=
  let last := union i.members
  match i.earlier with
  | none => last
  | some (op, before) =>
    ⟨op.apply (f.foldSet before.codes) (f.foldSet last.codes), max before.depth last.depth + 1⟩

/-- One more member. -/
def push (i : Inside) (codes : CodeSet) (depth : Nat := 0) : Inside :=
  { i with members := ⟨codes, depth⟩ :: i.members }

end Inside

namespace Reader

/-- The set of one member, which has to be a character or a class. -/
def memberSet (a : Atom) : Reader CodeSet := do
  match a with
  | .char c _ =>
    require ((← flags).unicode || c.toNat < 128)
    return .ofCodes [c.toNat]
  | .cls c => return c.codes
  | .look _ => failure

/-- Reads one character or what a backslash introduces. -/
def member : Reader Atom := do
  let c ← next
  if c = '\x5c' then escape else return .char c false

/-- Reads a member, or a range between two characters. A `-` before a `]` or another `-` makes no
range. -/
def memberOrRange : Reader CodeSet := do
  let first ← member
  skipFiller
  let c ← current
  let after := (pastFiller (← flags) ((← get).rest.drop 1)).head?
  if c ≠ '-' || after = some ']' || after = some '-' then memberSet first
  else
    dropSkip
    match first, ← member with
    | .char lo _, .char hi _ =>
      require (lo ≤ hi && ((← flags).unicode || hi.toNat < 128))
      return .range lo.toNat hi.toNat
    | _, _ => failure

/-- Reads a class named between brackets with colons, if one comes next. -/
def namedClass? : Reader (Option CodeSet) := do
  let start ← get
  if !(← accept "[:") then return none
  let negated ← accept "^"
  let name := (← get).rest.takeWhile (· ≠ ':')
  modify fun c => { c with rest := c.rest.drop name.length }
  let closed ← accept ":]"
  match closed, CharClass.named? (String.ofList name) with
  | true, some codes => return some (← foldedClass ((← flags).toClass codes) negated).codes
  | _, _ =>
    set start
    return none

/-- Reads the `-` signs that stand first between brackets; at most `fuel` of them. -/
def leadingDashes : Nat → Inside → Reader Inside
  | 0, i => pure i
  | fuel + 1, i => do
    if (← current) = '-' then dropSkip; leadingDashes fuel (i.push (.ofCodes [45])) else return i

/-- Reads an opening bracket: whether the class is negated, and the members that have no other
meaning at this place. -/
def openBracket : Reader (Bool × Inside) := do
  dropSkip
  let negated := (← current) = '^'
  if negated then dropSkip
  let i ← leadingDashes (← get).rest.length {}
  if i.members.isEmpty && (← current) = ']' then
    dropSkip
    require (← peek).isSome
    return (negated, i.push (.ofCodes [93]))
  else return (negated, i)

/-- Reads the sign of an operation, if one comes next. -/
def classOp? : Reader (Option ClassOp) := do
  if ← accept "&&" then return some .inter
  else if ← accept "--" then return some .diff
  else if ← accept "~~" then return some .symmDiff
  else return none

mutual

/-- Reads a class in brackets, from its opening bracket on. -/
def bracket : Nat → Reader Nested
  | 0 => failure
  | fuel + 1 => do
    let (negated, i) ← openBracket
    let inside ← bracketRest fuel i
    let cls ← foldedClass ((← flags).toClass inside.codes) negated
    return ⟨cls.codes, inside.depth + 1⟩

/-- Reads the rest of a class up to and with its closing bracket. -/
def bracketRest : Nat → Inside → Reader Nested
  | 0, _ => failure
  | fuel + 1, i => do
    skipFiller
    match ← current with
    | '[' =>
      match ← namedClass? with
      | some c => bracketRest fuel (i.push c)
      | none =>
        let inner ← bracket fuel
        bracketRest fuel (i.push inner.codes inner.depth)
    | ']' =>
      drop
      return i.close (← flags)
    | _ =>
      match ← classOp? with
      | some op => bracketRest fuel { earlier := some (op, i.close (← flags)) }
      | none =>
        let c ← memberOrRange
        bracketRest fuel (i.push c)

end

end Reader

end LineShell.Regex
