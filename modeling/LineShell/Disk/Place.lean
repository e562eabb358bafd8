import LineShell.Text.Split

/-!
Places and lexical path resolution. A place is the list of names that lead from the root to an
entry. Resolution reads a path from left to right: an empty name and `.` stay where they are, `..`
goes up one level and stays at the root, and any other name goes down. Links are not looked at.
-/
namespace LineShell

/-- A location on the disk: the names from the root down. -/
abbrev Place := List String

namespace Place

/-- A place written as an absolute path. -/
def text (p : Place) : String := "/" ++ Text.join "/" p

/-- The number of bytes of the absolute path. -/
def width (p : Place) : Nat := max 1 (p.foldl (fun n name => n + 1 + name.utf8ByteSize) 0)

/-- Whether `q` is `p` itself or lies below it. -/
def covers (p q : Place) : Bool := p.isPrefixOf q

end Place

namespace Path

/-- Whether a path starts at the root. -/
def isRooted (path : String) : Bool := path.toList.head? = some '/'

/-- The names between the slashes of a path, empty ones included. -/
def names (path : String) : List String :=
  (Text.splitWhere (· = '/') path.toList).map String.ofList

/-- One name further. -/
def enter (p : Place) (name : String) : Place :=
  if name = "" || name = "." then p
  else if name = ".." then p.dropLast
  else p ++ [name]

/-- The place that `path` names, seen from `cwd`. -/
def resolve (cwd : Place) (path : String) : Place :=
  (names path).foldl enter (if isRooted path then [] else cwd)

/-- Resolution on texts, for a starting directory that need not be absolute. -/
def resolveText (cwd path : String) : String :=
  let p := resolve (resolve [] cwd) path
  if isRooted cwd || isRooted path then p.text else Text.join "/" p

/-- Whether a name lies in a place: it is not empty, is neither `.` nor `..`, and has no slash. -/
def isName (name : String) : Bool :=
  name ≠ "" && name ≠ "." && name ≠ ".." && !name.toList.contains '/'

@[simp] theorem resolve_empty (cwd : Place) : resolve cwd "" = cwd := by
  simp [resolve, names, isRooted, enter, Text.splitWhere]

end Path

end LineShell
