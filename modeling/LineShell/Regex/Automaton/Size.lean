import LineShell.Regex.Automaton.Characters
import LineShell.Regex.Automaton.Literals

/-!
The size of the automata of a pattern. A repetition with counts is written out, so its size grows with
the counts; counting stops as soon as the limit is passed.
-/
namespace LineShell.Regex.Pattern

open Growth (add then_ way)

mutual

/-- Whether the automaton of the pattern ends in a branching state. -/
def endsBranching (backward : Bool) : Pattern → Bool
  | .times p least most _ =>
    match most with
    | none => 0 < least || (p.shortest?.any (0 < ·))
    | some most => 0 < least && least = most && endsBranching backward p
  | .capture _ p => backward && endsBranching backward p
  | .seq ps => if backward then firstBranching backward ps else lastBranching backward ps
  | _ => false

/-- Whether the first automaton ends in a branching state. -/
def firstBranching (backward : Bool) : List Pattern → Bool
  | [] => false
  | p :: _ => endsBranching backward p

/-- Whether the last automaton ends in a branching state. -/
def lastBranching (backward : Bool) : List Pattern → Bool
  | [] => false
  | [p] => endsBranching backward p
  | _ :: ps => lastBranching backward ps

end

/-- What it takes to lead from the end of an automaton to another state. -/
def leadOn (backward : Bool) (p : Pattern) : Nat := if endsBranching backward p then way else 0

/-- The bytes of a literal, in the order in which they are read. -/
def literalBytes (backward : Bool) : Pattern → Option (List Nat)
  | .literal text =>
    let bytes := text.flatMap fun c => codeBytes c.toNat
    some (if backward then bytes.reverse else bytes)
  | _ => none

/-- The part for literals of which one is chosen. -/
def literalsGrowth (literals : List (List Nat)) : Growth :=
  let t := (LiteralTree.ofLiterals literals).tally
  add (t.states + 1) t.extra

/-- The part for a repetition, given that of what is repeated and what leading on from it takes. -/
def repetition (body : Growth) (lead : Nat) (shortest? : Option Nat) (least : Nat)
    (most : Option Nat) : Growth :=
  let copy := then_ body (add 0 lead)
  match least, most with
  | 0, some 1 => then_ (add 1 0) (then_ copy (add 1 (2 * way)))
  | 0, none =>
    if shortest?.any (0 < ·) then then_ (add 1 0) (then_ copy (add 0 way))
    else then_ copy (add 3 (4 * way))
  | least, none => then_ (copy.times least) (add 1 way)
  | least, some most =>
    if least = most then
      match least with
      | 0 => add 1 0
      | n + 1 => then_ (copy.times n) body
    else
      then_ (if least = 0 then add 1 0 else copy.times least)
        (then_ (add 1 0) ((then_ (add 1 (2 * way)) copy).times (most - least)))

mutual

/-- The part for a pattern, read forwards or backwards. Groups are remembered only forwards. -/
def growth (backward : Bool) : Pattern → Growth
  | .empty => add 1 0
  | .literal text => add (bytesOf text) 0
  | .cls c => Characters.growth backward c
  | .look _ => add 1 0
  | .times p least most _ =>
    repetition (growth backward p) (leadOn backward p) p.shortest? least most
  | .capture _ p =>
    if backward then growth backward p
    else then_ (add 1 0) (then_ (growth backward p) (add 1 (leadOn backward p)))
  | .seq ps =>
    if backward then growthBack ps else growthOfAll ps
  | .alt ps =>
    match ps.mapM (literalBytes backward) with
    | some literals => literalsGrowth literals
    | none => growthOfAny backward 0 ps

/-- The parts of patterns one after the other. -/
def growthOfAll : List Pattern → Growth
  | [] => some
  | [p] => growth false p
  | p :: ps => then_ (growth false p) (then_ (add 0 (leadOn false p)) (growthOfAll ps))

/-- The parts of patterns one after the other, the last one first. -/
def growthBack : List Pattern → Growth
  | [] => some
  | p :: ps =>
    then_ (growthBack ps)
      (then_ (growth true p) (add 0 (match ps with | [] => 0 | q :: _ => leadOn true q)))

/-- The parts of alternatives. The branching state before them and the state after them are added
behind the second one. -/
def growthOfAny (backward : Bool) : Nat → List Pattern → Growth
  | _, [] => some
  | index, p :: ps =>
    then_ (growth backward p)
      (then_ (add (if index = 1 then 2 else 0) (way + leadOn backward p))
        (growthOfAny backward (index + 1) ps))

end

/-- What is put before a pattern that may match anywhere, or one state before one that is bound to the
end where reading starts. -/
def entrance (backward : Bool) (p : Pattern) : Growth :=
  if p.boundBy (if backward then .textEnd else .textStart) backward then add 1 0
  else add 3 (Growth.transition + 2 * way)

/-- The automaton that reads forwards; the whole match is remembered. -/
def forwardTally (p : Pattern) : Option Tally :=
  then_ (entrance false p)
    (then_ (add 1 0) (then_ (growth false p) (add 2 (leadOn false p)))) {}

/-- The automaton that reads backwards. -/
def backwardTally (p : Pattern) : Option Tally :=
  then_ (entrance true p) (then_ (growth true p) (add 1 (leadOn true p))) {}

/-- Whether the pattern is a choice of very many literals. These are all searched for at once without
an automaton of this kind. -/
def isWordList : Pattern → Bool
  | .alt ps => 3000 ≤ ps.length && ps.all fun p => (literalBytes false p).isSome
  | _ => false

/-- Whether a pattern is small enough to be searched for. -/
def fits (p : Pattern) : Bool :=
  p.isWordList || (p.forwardTally.isSome && p.backwardTally.isSome)

end LineShell.Regex.Pattern
