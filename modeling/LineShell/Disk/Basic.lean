import LineShell.Disk.Error
import LineShell.Disk.Place
import LineShell.Text.Utf8

/-!
The disk: a table of entries by place, and the contents of regular files by number. Contents are
apart from entries because an open file keeps its content when its entry is moved or removed. The
root is a directory without an entry of its own. Names are text: those that are not UTF-8 have no
place here.
-/
namespace LineShell

/-- The number of a regular file's content. -/
abbrev FileId := Nat

/-- What stands at a place. -/
inductive Entry where
  | file (id : FileId)
  | dir
  | link (target : String)
  deriving Repr, DecidableEq

/-- Entries by place, in the order in which directories are enumerated, and file contents. -/
structure Disk where
  entries : List (Place × Entry) := []
  contents : List Bytes := []
  deriving Repr, DecidableEq

namespace Disk

/-- The entry at a place, with no link followed. -/
def entry? (d : Disk) (p : Place) : Option Entry :=
  if p = [] then some .dir else d.entries.lookup p

/-- The content of a file. -/
def content (d : Disk) (id : FileId) : Bytes := d.contents.getD id []

/-- The names in a directory, in enumeration order. -/
def children (d : Disk) (p : Place) : List String :=
  d.entries.filterMap fun (q, _) =>
    if q ≠ [] && q.dropLast = p then q.getLast? else none

/-- Gives a file a new content. -/
def setContent (d : Disk) (id : FileId) (bs : Bytes) : Disk :=
  { d with contents := d.contents.set id bs }

/-- Puts an entry at a place. -/
def put (d : Disk) (p : Place) (e : Entry) : Disk :=
  { d with entries := d.entries.filter (·.1 ≠ p) ++ [(p, e)] }

/-- Puts a new, empty file at a place. -/
def create (d : Disk) (p : Place) : Disk × FileId :=
  let d' := { d with contents := d.contents ++ [[]] }
  (d'.put p (.file d.contents.length), d.contents.length)

/-- Removes the entry at a place. -/
def erase (d : Disk) (p : Place) : Disk :=
  { d with entries := d.entries.filter (·.1 ≠ p) }

/-- Removes the entry at a place and all entries below it. -/
def eraseTree (d : Disk) (p : Place) : Disk :=
  { d with entries := d.entries.filter (!p.covers ·.1) }

/-- Takes the entry at `p`, with all entries below it, to `q`; an entry at `q` gives way. -/
def relocate (d : Disk) (p q : Place) : Disk :=
  { d with
    entries := (d.entries.filter (·.1 ≠ q)).map fun (r, e) =>
      if p.covers r then (q ++ r.drop p.length, e) else (r, e) }

/-- Writes `bs` into a file from position `pos` on; zeros fill a gap before it. -/
def overwrite (d : Disk) (id : FileId) (pos : Nat) (bs : Bytes) : Disk :=
  let old := d.content id
  let gap := List.replicate (pos - old.length) 0
  d.setContent id (old.take pos ++ gap ++ bs ++ old.drop (pos + bs.length))

/-- Writes `bs` at the end of a file. -/
def append (d : Disk) (id : FileId) (bs : Bytes) : Disk :=
  d.setContent id (d.content id ++ bs)

end Disk

end LineShell
