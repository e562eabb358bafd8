import LineShell.Regex.Automaton.Tally

/-!
The part of an automaton for alternatives that are all literals: a tree of their bytes. Earlier
alternatives are preferred, so after the end of a literal its node starts a new chunk of edges, and
edges of an earlier chunk are not used again for later literals.
-/
namespace LineShell.Regex

/-- A tree of literals: the edges of each closed chunk, and those of the last one by ascending
byte. -/
inductive LiteralTree where
  | node (closed : List (List (Nat × LiteralTree))) (last : List (Nat × LiteralTree))

namespace LiteralTree

/-- No literal. -/
def leaf : LiteralTree := .node [] []

/-- Whether no edge leaves the root. -/
def isLeaf : LiteralTree → Bool
  | .node closed last => last.isEmpty && closed.all (·.isEmpty)

/-- Follows the edge with a byte, or a new one, and changes what is below it. -/
def follow (change : LiteralTree → LiteralTree) (b : Nat) :
    List (Nat × LiteralTree) → List (Nat × LiteralTree)
  | [] => [(b, change leaf)]
  | (a, t) :: edges =>
    if a = b then (a, change t) :: edges
    else if b < a then (b, change leaf) :: (a, t) :: edges
    else (a, t) :: follow change b edges

/-- Adds a literal. -/
def insert : List Nat → LiteralTree → LiteralTree
  | [], .node closed last =>
    if last.isEmpty && closed.all (·.isEmpty) && !closed.isEmpty then .node closed last
    else .node (closed ++ [last]) []
  | b :: bs, .node closed last => .node closed (follow (insert bs) b last)

/-- The state of one chunk: with one edge a plain one, with none there is no state. -/
def chunkTally (edges : Nat) : Tally :=
  match edges with
  | 0 => {}
  | 1 => ⟨1, 0⟩
  | n => ⟨1, Growth.transition * n⟩

/-- Both tallies together. -/
def plus (a b : Tally) : Tally := ⟨a.states + b.states, a.extra + b.extra⟩

mutual

/-- The states of a tree whose root is no leaf: those below its edges, one for each chunk, and a
branching state that leads to the chunks and, between them, to the end. -/
def tally : LiteralTree → Tally
  | .node closed last =>
    let chunks := closed ++ [last]
    let ways := chunks.countP (!·.isEmpty) + closed.length
    plus ⟨1, Growth.way * ways⟩
      (plus (chunks.foldl (fun t es => plus t (chunkTally es.length)) {})
        (plus (closedTally closed) (edgesTally last)))

/-- The states below the edges of some chunks. -/
def closedTally : List (List (Nat × LiteralTree)) → Tally
  | [] => {}
  | es :: chunks => plus (edgesTally es) (closedTally chunks)

/-- The states below some edges; leaves have none. -/
def edgesTally : List (Nat × LiteralTree) → Tally
  | [] => {}
  | (_, t) :: edges => plus (if t.isLeaf then {} else tally t) (edgesTally edges)

end

/-- The tree of some literals. -/
def ofLiterals (literals : List (List Nat)) : LiteralTree :=
  literals.foldl (fun t bytes => t.insert bytes) leaf

end LiteralTree

end LineShell.Regex
