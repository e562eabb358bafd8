import LineShell.Regex.Pattern

/-!
How large an automaton is. A pattern is searched for with two automata over bytes, one that reads
forwards and one that reads backwards, and is refused when one of them grows beyond a limit. Only
their sizes are computed: a state takes 32 bytes, each transition of a state that may have several
takes 8 more, and each way out of a branching state takes 4 more.
-/
namespace LineShell.Regex

/-- What there is of an automaton: how many states, and how many bytes beside them. -/
structure Tally where
  states : Nat := 0
  extra : Nat := 0
  deriving Repr, DecidableEq

namespace Tally

/-- The size in bytes. -/
def size (t : Tally) : Nat := 32 * t.states + t.extra

/-- Larger automata are refused. -/
def limit : Nat := 10 * Nat.pow 2 20

end Tally

/-- A step that makes an automaton larger, or too large. -/
abbrev Growth := Tally → Option Tally

namespace Growth

/-- Adds states and bytes beside them. -/
def add (states extra : Nat) : Growth := fun t =>
  let t' : Tally := ⟨t.states + states, t.extra + extra⟩
  if t'.size ≤ Tally.limit then some t' else none

/-- One step after the other. -/
def then_ (a b : Growth) : Growth := fun t =>
  match a t with
  | some t' => b t'
  | none => none

/-- A step again and again. -/
def times (g : Growth) : Nat → Growth
  | 0, t => some t
  | n + 1, t =>
    match g t with
    | some t' => times g n t'
    | none => none

/-- A transition of a state that may have several. -/
def transition : Nat := 8

/-- A way out of a branching state. -/
def way : Nat := 4

end Growth

end LineShell.Regex
