import LineShell.Regex.Automaton.Tally
import LineShell.Regex.ByteRange
import Std.Data.HashMap

/-!
The part of an automaton for a class of characters, over the bytes of their encoding. States with the
same transitions are shared as far as a table with a fixed number of slots remembers them: a state is
kept in the slot that its hash names, and the next state with that slot takes its place.
-/
namespace LineShell.Regex

open Unicode (Span)

namespace Characters

/-- Mixes a number into a hash. -/
def mix (hash : UInt64) (n : Nat) : UInt64 := (hash ^^^ n.toUInt64) * 1099511628211

/-- The hash of some numbers. -/
def hash (ns : List Nat) : UInt64 := ns.foldl mix 14695981039346656037

/-- The slot of some numbers among `slots`. -/
def slot (slots : UInt64) (ns : List Nat) : Nat := (hash ns % slots).toNat

/-- The states remembered: for each slot the numbers that describe a state, and which state it is. -/
abbrev Memory := Std.HashMap Nat (List Nat × Nat)

/-- The state that is remembered for a description. -/
def recalled (m : Memory) (slot : Nat) (key : List Nat) : Option Nat :=
  match m[slot]? with
  | some (key', state) => if key' = key then some state else none
  | none => none

/-- A state under construction: its transitions as bytes from and to and the next state, and the
bytes of the one whose next state is not known yet. -/
structure Node where
  done : List Nat := []
  pending : Option Span := none

namespace Node

/-- The transitions, when the next state of the pending one is known. -/
def freeze (n : Node) (next : Nat) : List Nat :=
  match n.pending with
  | some s => n.done ++ [s.lo, s.hi, next]
  | none => n.done

end Node

/-- What has been built of a class: the states under construction, deepest first, those remembered and
the size of it all. -/
structure Build where
  nodes : List Node
  memory : Memory
  tally : Tally

/-- The state with some transitions, a new one if none is remembered. -/
def state (b : Build) (transitions : List Nat) : Option (Nat × Build) :=
  let key := slot 10000 transitions
  match recalled b.memory key transitions with
  | some n => some (n, b)
  | none =>
    match Growth.add 1 (Growth.transition * (transitions.length / 3)) b.tally with
    | none => none
    | some t =>
      some (b.tally.states,
        { b with memory := b.memory.insert key (transitions, b.tally.states), tally := t })

/-- Finishes the states deeper than `depth`, of which the deepest leads to `next`. The list of states
is given deepest first. -/
def finishTo (depth : Nat) (b : Build) (next : Nat) : List Node → Option Build
  | [] => some { b with nodes := [] }
  | n :: outer =>
    if outer.length ≤ depth then
      some { b with nodes := { done := n.freeze next } :: outer }
    else
      match state b (n.freeze next) with
      | none => none
      | some (made, b) => finishTo depth b made outer

/-- How many of the bytes at the start of a box are those pending in the states, outermost first. -/
def shared : List Span → List Node → Nat
  | s :: box, n :: nodes => if n.pending = some s then shared box nodes + 1 else 0
  | _, _ => 0

/-- New states for the rest of a box below the deepest state. -/
def extend (box : List Span) (nodes : List Node) : List Node :=
  match box, nodes with
  | s :: rest, n :: outer =>
    (rest.map fun t => ({ pending := some t } : Node)).reverse ++
      { n with pending := some s } :: outer
  | _, _ => nodes

/-- Adds a box that comes after all boxes added before. -/
def addBox (goal : Nat) (b : Build) (box : List Span) : Option Build :=
  let depth := shared box b.nodes.reverse
  match finishTo depth b goal b.nodes with
  | none => none
  | some b => some { b with nodes := extend (box.drop depth) b.nodes }

/-- The class read forwards: a state at which all characters end, and the states of the boxes with
their ends shared. -/
def forwards (spans : List Span) : Growth := fun t =>
  let goal := t.states
  match Growth.add 1 0 t with
  | none => none
  | some t =>
    let start : Build := { nodes := [{}], memory := ∅, tally := t }
    match (boxesOf spans).foldlM (addBox goal) start with
    | none => none
    | some b =>
      match finishTo 0 b goal b.nodes with
      | some { nodes := [root], memory, tally } =>
        (state { nodes := [], memory, tally } root.done).map fun (_, b) => b.tally
      | _ => none

/-- One range of bytes on the way backwards from the end of a character. -/
def rangeBack (b : Memory × Tally) (from_ : Nat) (s : Span) : Option (Nat × Memory × Tally) :=
  let key := [from_, s.lo, s.hi]
  let place := slot 1000 key
  match recalled b.1 place key with
  | some n => some (n, b)
  | none =>
    match Growth.add 1 0 b.2 with
    | none => none
    | some t => some (b.2.states, b.1.insert place (key, b.2.states), t)

/-- The ranges of a box, each leading to the one before. -/
def boxBack (b : Memory × Tally) (from_ : Nat) : List Span → Option (Memory × Tally)
  | [] => (Growth.add 0 Growth.way b.2).map fun t => (b.1, t)
  | s :: box =>
    match rangeBack b from_ s with
    | none => none
    | some (n, b) => boxBack b n box

/-- The class read backwards: a branching state, the state to which all characters lead, and the
states of the boxes with their starts shared. -/
def backwards (spans : List Span) : Growth := fun t =>
  let goal := t.states + 1
  match Growth.add 2 0 t with
  | none => none
  | some t =>
    ((boxesOf spans).foldlM (fun b box => boxBack b goal box) ((∅ : Memory), t)).map (·.2)

/-- The part for a class. Where one byte is one character a single state has all transitions. -/
def growth (backward : Bool) (c : CharClass) : Growth :=
  let spans := c.codes.spans.toList
  if c.bytes || c.isAscii then Growth.add 2 (Growth.transition * spans.length)
  else if backward then backwards spans
  else forwards spans

end Characters

end LineShell.Regex
