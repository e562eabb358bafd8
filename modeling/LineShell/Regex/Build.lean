import LineShell.Regex.Pattern

/-!
Patterns in their simplest form. Parts are put together by functions that leave out what matches only
the empty text, unite neighbouring literals, turn alternatives of single characters into a class and
take out what all alternatives start with. None of this changes what a pattern matches; it decides how
large a pattern counts.
-/
namespace LineShell.Regex.Pattern

/-- A literal; without characters it is empty. -/
def ofText (text : List Char) : Pattern := if text.isEmpty then .empty else .literal text

/-- One character of a class. -/
def ofClass (c : CharClass) : Pattern :=
  if c.isEmpty then .cls .none
  else
    match c.codes.single? with
    | some n => .literal [Char.ofNat n]
    | none => .cls c

/-- A repetition. What matches only the empty text is not worth repeating. -/
def repeated (p : Pattern) (least : Nat) (most : Option Nat) (greedy : Bool) : Pattern :=
  let (least, most) :=
    if p.longest? = some 0 then (min least 1, some (min (most.getD 1) 1)) else (least, most)
  if least = 0 && most = some 0 then .empty
  else if least = 1 && most = some 1 then p
  else .times p least most greedy

/-- The parts of a pattern that follow one another. -/
def parts : Pattern → List Pattern
  | .seq ps => ps
  | p => [p]

/-- Puts a pattern before others that follow it, and unites it with the first if both are
literals. -/
def prepend (p : Pattern) (later : List Pattern) : List Pattern :=
  match p, later with
  | .empty, _ => later
  | .literal a, .literal b :: rest => .literal (a ++ b) :: rest
  | _, _ => p :: later

/-- Patterns one after the other. -/
def concat (ps : List Pattern) : Pattern :=
  match (ps.flatMap parts).foldr prepend [] with
  | [] => .empty
  | [p] => p
  | ps => .seq ps

/-- The alternatives of a pattern. -/
def alternatives : Pattern → List Pattern
  | .alt ps => ps
  | p => [p]

/-- The character of a literal that has just one. -/
def char? : Pattern → Option Char
  | .literal [c] => some c
  | _ => none

/-- The class of a pattern that is one. A class of bytes counts if it is ASCII. -/
def class? : Pattern → Option CharClass
  | .cls c => if !c.bytes || c.isAscii then some { c with bytes := false } else none
  | _ => none

/-- How many parts two lists have in common at their start. -/
def commonLength : List Pattern → List Pattern → Nat
  | p :: ps, q :: qs => if same p q then commonLength ps qs + 1 else 0
  | _, _ => 0

/-- The parts of a pattern that has more than one. -/
def parts? : Pattern → Option (List Pattern)
  | .seq ps => some ps
  | _ => none

/-- How many parts all alternatives have in common at their start. -/
def sharedLength (alternatives : List (List Pattern)) : Nat :=
  match alternatives with
  | [] => 0
  | first :: others =>
    (others.foldl (fun shared ps => shared.take (commonLength shared ps)) first).length

/-- Alternatives as they are, with a class for single characters. -/
def plainChoice (ps : List Pattern) : Pattern :=
  let ps := ps.flatMap alternatives
  match ps, ps.mapM char?, ps.mapM class? with
  | [], _, _ => .cls .none
  | [p], _, _ => p
  | _, some cs, _ => ofClass ⟨.ofCodes (cs.map Char.toNat), false⟩
  | _, none, some cs => ofClass ⟨.unions (cs.map (·.codes)), false⟩
  | _, none, none => .alt ps

/-- Alternatives. If all start with the same parts, these are taken out in front; then what is left of
them has no start in common. -/
def choice (ps : List Pattern) : Pattern :=
  match plainChoice ps with
  | .alt ps =>
    match ps.mapM parts? with
    | none => .alt ps
    | some alternatives =>
      match sharedLength alternatives with
      | 0 => .alt ps
      | n =>
        concat ((alternatives.headD []).take n ++
          [plainChoice (alternatives.map fun ps => concat (ps.drop n))])
  | p => p

end LineShell.Regex.Pattern
