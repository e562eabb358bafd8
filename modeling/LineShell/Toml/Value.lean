import LineShell.Text.Split

/-!
Values of a TOML document, and how its sections build up the root table. A table is defined once: by
its own header, by dotted keys, or between braces. A table that so far only stands in the headers of
others may still get a header of its own, and an array of tables grows by one with each of its
headers.
-/
namespace LineShell.Toml

/-- How a table came about. -/
inductive Form where
  /-- By a header of its own. -/
  | defined
  /-- As a part of another table's header. -/
  | implied
  /-- As a part of a dotted key. -/
  | dotted
  /-- Between braces, complete. -/
  | inline
  deriving Repr, DecidableEq

/-- A value. Of numbers with a fraction and of dates only their kind is kept. -/
inductive Value where
  | text (s : String)
  | integer (n : Int)
  | real
  | boolean (b : Bool)
  | date
  | array (items : List Value)
  | table (form : Form) (entries : List (String × Value))
  | tables (items : List (List (String × Value)))

/-- The entries of a table, in the order of their first mention. -/
abbrev Entries := List (String × Value)

/-- A key: the names of the tables on the way, and the last name. -/
structure Key where
  path : List String
  name : String
  deriving Repr, DecidableEq

/-- The header of a section; `repeated` says that it adds to an array of tables. -/
structure Header where
  key : Key
  repeated : Bool
  deriving Repr, DecidableEq

/-- A section: its header, which the first one lacks, and its keys with their values. -/
structure Section where
  header : Option Header := none
  pairs : List (Key × Value) := []

namespace Entries

/-- Puts a value in the place of the old one with its name, or at the end. -/
def set (es : Entries) (name : String) (v : Value) : Entries :=
  if es.any (·.1 = name) then es.map fun e => if e.1 = name then (name, v) else e
  else es ++ [(name, v)]

/-- Changes the last of an array of tables. -/
def changeLast (f : Entries → Option Entries) (items : List Entries) : Option (List Entries) := do
  let last ← items.getLast?
  return items.dropLast ++ [← f last]

/-- Gives a value to a key that has none. Tables on the way are made, and those made by dotted keys
before are extended; the last of them has to be one of these. -/
def assign (name : String) (v : Value) : List String → Entries → Option Entries
  | [], es => if es.any (·.1 = name) then none else some (es ++ [(name, v)])
  | step :: path, es =>
    match es.lookup step with
    | none => do return es.set step (.table .dotted (← assign name v path []))
    | some (.table .dotted sub) => do
      return es.set step (.table .dotted (← assign name v path sub))
    | some (.table .implied sub) => do
      if path.isEmpty then none
      else return es.set step (.table .implied (← assign name v path sub))
    | some (.tables items) => do
      if path.isEmpty then none
      else return es.set step (.tables (← changeLast (assign name v path) items))
    | some _ => none

/-- Gives values to several keys, one after the other. -/
def assignAll (es : Entries) (pairs : List (Key × Value)) : Option Entries :=
  pairs.foldlM (fun es (k, v) => assign k.name v k.path es) es

/-- Changes what a header's key stands for. Tables on the way are made; arrays of tables are entered
at their last. -/
def modifyAt (f : Option Value → Option Value) (name : String) :
    List String → Entries → Option Entries
  | [], es => do return es.set name (← f (es.lookup name))
  | step :: path, es =>
    match es.lookup step with
    | none => do return es.set step (.table .implied (← modifyAt f name path []))
    | some (.table .inline _) => none
    | some (.table form sub) => do return es.set step (.table form (← modifyAt f name path sub))
    | some (.tables items) => do
      return es.set step (.tables (← changeLast (modifyAt f name path) items))
    | some _ => none

/-- The value that a section's header stands for, with the section's keys added to what was there. -/
def opened (repeated : Bool) (pairs : List (Key × Value)) : Option Value → Option Value
  | none => do
    let es ← assignAll [] pairs
    return if repeated then .tables [es] else .table .defined es
  | some (.table .implied es) => do
    if repeated then none else return .table .defined (← assignAll es pairs)
  | some (.tables items) => do
    if repeated then return .tables (items ++ [← assignAll [] pairs]) else none
  | some _ => none

/-- Adds a section to the root table. -/
def addSection (root : Entries) (s : Section) : Option Entries :=
  match s.header with
  | none => root.assignAll s.pairs
  | some h => root.modifyAt (opened h.repeated s.pairs) h.key.name h.key.path

/-- The root table that sections make up. -/
def ofSections (sections : List Section) : Option Entries := sections.foldlM addSection []

end Entries

end LineShell.Toml
