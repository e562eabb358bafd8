import LineShell.Regex.Automaton.Size
import LineShell.Regex.Bracket

/-!
The reader of whole patterns: alternatives, sequences, repetitions and groups. Patterns nested too
deep, or too large once their repetitions are written out, are refused.
-/
namespace LineShell.Regex

/-- A part of a pattern, how deep its own parts are nested, and whether it may be repeated: a change
of flags may not. -/
structure Part where
  pattern : Pattern
  depth : Nat := 0
  repeatable : Bool := true

namespace Part

/-- The greatest depth among parts. -/
def deepest (parts : List Part) : Nat := parts.foldl (fun n p => max n p.depth) 0

/-- Parts one after the other, given last first. -/
def sequence (parts : List Part) : Part :=
  match parts with
  | [one] => one
  | _ =>
    { pattern := .concat (parts.reverse.map (·.pattern))
      depth := if parts.isEmpty then 0 else deepest parts + 1 }

/-- Alternatives, given last first. -/
def choice (parts : List Part) : Part :=
  match parts with
  | [one] => one
  | _ =>
    { pattern := .choice (parts.reverse.map (·.pattern))
      depth := deepest parts + 1 }

/-- A part repeated. -/
def times (p : Part) (least : Nat) (most : Option Nat) (greedy : Bool) : Part :=
  { pattern := .repeated p.pattern least most greedy, depth := p.depth + 1 }

end Part

namespace Reader

/-- Reads the mark of a repetition that prefers the other kind of match, if one comes next, and tells
whether the repetition is greedy. -/
def greed : Reader Bool := do
  let f ← flags
  if (← peek) = some '?' then
    drop
    return f.reluctant
  else return !f.reluctant

/-- The last of some parts, which has to be one that can be repeated, and the others. -/
def lastPart (parts : List Part) : Reader (Part × List Part) :=
  match parts with
  | p :: others => if p.repeatable then pure (p, others) else failure
  | [] => failure

/-- Reads the counts of a repetition, after the opening brace, and whether it is greedy. -/
def counts : Reader (Nat × Option Nat × Bool) := do
  skipFiller
  let least ← decimal
  let range ←
    if (← current) = ',' then do
      dropSkip
      if (← current) = '\x7d' then pure (least, none)
      else do
        let most ← decimal
        pure (least, some most)
    else pure (least, some least)
  require ((← peek) = some '\x7d')
  dropSkip
  let greedy ← greed
  match range with
  | (least, some most) => require (least ≤ most)
  | _ => pure ()
  return (range.1, range.2, greedy)

/-- Whether a group would look around. -/
def looksAround : Reader Bool := do
  let rest := (← get).rest
  return ["?=", "?!", "?<=", "?<!"].any fun (s : String) => s.toList.isPrefixOf rest

/-- One character, or those that differ from it in case only where case is ignored. -/
def charPattern (f : Flags) (c : Char) : Pattern :=
  let n := c.toNat
  if !f.ignoreCase then .literal [c]
  else if f.unicode then .ofClass ⟨.ofCodes (n :: Unicode.foldMates n), false⟩
  else if n < 128 then .ofClass ⟨CharClass.foldedAscii (.ofCodes [n]), true⟩
  else .literal [c]

/-- The pattern of an atom. -/
def atomPart (a : Atom) : Reader Part := do
  let f ← flags
  match a with
  | .char c byte =>
    require (f.unicode || !byte || c.toNat < 128)
    return { pattern := charPattern f c }
  | .cls c => return { pattern := .ofClass c }
  | .look l => return { pattern := .look l }

/-- Any character, but no line break unless asked for. -/
def anyChar : Reader Part := do
  let f ← flags
  require f.unicode
  let breaks := if f.dotAll then [] else if f.crlf then [10, 13] else [10]
  return { pattern := .cls ⟨(Unicode.CodeSet.ofCodes breaks).negate, false⟩ }

/-- Reads one character of a pattern that is no sign of its structure. -/
def atom : Reader Part := do
  let f ← flags
  match ← next with
  | '\x5c' => atomPart (← escape)
  | '.' => anyChar
  | '^' =>
    return { pattern := .look <|
      if !f.multiLine then .textStart else if f.crlf then .crlfStart else .lineStart }
  | '$' =>
    return { pattern := .look <|
      if !f.multiLine then .textEnd else if f.crlf then .crlfEnd else .lineEnd }
  | c => atomPart (.char c false)

mutual

/-- Reads alternatives up to the end of their group; `done` holds those read, last first. -/
def alternatives : Nat → List Part → Reader Part
  | 0, _ => failure
  | fuel + 1, done => do
    let p ← parts fuel []
    if (← peek) = some '|' then
      drop
      alternatives fuel (p :: done)
    else return Part.choice (p :: done)

/-- Reads the parts of one alternative; `done` holds those read, last first. -/
def parts : Nat → List Part → Reader Part
  | 0, _ => failure
  | fuel + 1, done => do
    skipFiller
    match ← peek with
    | none | some '|' | some ')' => return Part.sequence done
    | some '(' =>
      let p ← group fuel
      parts fuel (p :: done)
    | some '[' =>
      let n ← bracket fuel
      let cls := (← flags).toClass n.codes
      parts fuel ({ pattern := .ofClass cls, depth := n.depth } :: done)
    | some '?' => repeated fuel 0 (some 1) done
    | some '*' => repeated fuel 0 none done
    | some '+' => repeated fuel 1 none done
    | some '\x7b' =>
      let (p, others) ← lastPart done
      drop
      let (least, most, greedy) ← counts
      parts fuel (p.times least most greedy :: others)
    | some _ =>
      let p ← atom
      parts fuel (p :: done)

/-- Reads a repetition sign of one character and goes on. -/
def repeated : Nat → Nat → Option Nat → List Part → Reader Part
  | 0, _, _, _ => failure
  | fuel + 1, least, most, done => do
    let (p, others) ← lastPart done
    drop
    let greedy ← greed
    parts fuel (p.times least most greedy :: others)

/-- Reads a group, or flags for the rest of the group that they stand in. -/
def group : Nat → Reader Part
  | 0 => failure
  | fuel + 1 => do
    dropSkip
    let outer ← flags
    require !(← looksAround)
    if ← acceptAny ["?P<", "?<"] then
      let number ← newCapture
      groupName
      groupRest fuel outer (some number)
    else if ← accept "?" then
      let (inner, seen) ← flagLetters (← get).rest outer [] false
      let sign ← next
      setFlags inner
      if sign = ')' then
        require !seen.isEmpty
        return { pattern := .empty, repeatable := false }
      else groupRest fuel outer none
    else groupRest fuel outer (some (← newCapture))

/-- Reads the inside of a group and its end, after which the outer flags are in force again. A group
with a number is remembered. -/
def groupRest : Nat → Flags → Option Nat → Reader Part
  | 0, _, _ => failure
  | fuel + 1, outer, number => do
    let p ← alternatives fuel []
    require ((← peek) = some ')')
    drop
    setFlags outer
    let pattern := match number with
      | some n => .capture n p.pattern
      | none => p.pattern
    return { pattern, depth := p.depth + 1 }

end

end Reader

/-- Patterns nested deeper are refused. -/
def Pattern.depthLimit : Nat := 250

/-- Reads a pattern. No character is visited by more than four steps of the reader. -/
def Pattern.parse? (ignoreCase : Bool) (text : String) : Option Pattern := do
  let start : Cursor := { rest := text.toList, flags := { ignoreCase } }
  let (p, cursor) ← (Reader.alternatives (4 * text.length + 4) []).run start
  guard (cursor.rest.isEmpty && p.depth ≤ depthLimit && p.pattern.fits)
  return p.pattern

end LineShell.Regex
