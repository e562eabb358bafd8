import LineShell.Disk.Basic

/-!
Walking a path. Every name but the last has to lead to a directory, and links on the way are
followed; a link at the end is followed on request. A walk follows at most forty links. A name has
at most 255 bytes, a whole path less than 4096.
-/
namespace LineShell

/-- Where a walk ends. -/
inductive Spot where
  /-- An entry. -/
  | found (p : Place) (e : Entry)
  /-- A free name in an existing directory. -/
  | free (p : Place)
  deriving Repr, DecidableEq

namespace Disk

/-- The longest name, in bytes. -/
def nameLimit : Nat := 255

/-- Every path is shorter than this, in bytes. -/
def pathLimit : Nat := 4096

/-- The greatest number of links that a walk follows. -/
def linkLimit : Nat := 40

/-- Where a walk stops to follow a link, or ends. -/
inductive Pause where
  | ends (s : Spot)
  | fails (e : IoError)
  | follows (dir : Place) (target : String) (rest : List String)
  deriving Repr, DecidableEq

/-- Walks from directory `dir` up to the first link to follow. -/
def stride (d : Disk) (followLast : Bool) (dir : Place) : List String → Pause
  | [] => .ends (.found dir .dir)
  | name :: rest =>
    if name = "." then d.stride followLast dir rest
    else if name = ".." then d.stride followLast dir.dropLast rest
    else if nameLimit < name.utf8ByteSize then .fails .nameTooLong
    else
      let here := dir ++ [name]
      match d.entry? here with
      | none => if rest.isEmpty then .ends (.free here) else .fails .notFound
      | some .dir => d.stride followLast here rest
      | some (.file id) => if rest.isEmpty then .ends (.found here (.file id)) else .fails .notDirectory
      | some (.link target) =>
        if rest.isEmpty && !followLast then .ends (.found here (.link target))
        else .follows dir target rest

/-- The steps of a path: its names without the empty ones. A slash at the end asks for a
directory, as a last `.` does. -/
def steps (path : String) : List String :=
  (Path.names path).filter (· ≠ "") ++ if path.toList.getLast? = some '/' then ["."] else []

/-- Walks on with at most `links` links left. -/
def walk (d : Disk) (followLast : Bool) : Nat → Place → List String → Except IoError Spot
  | links, dir, names =>
    match d.stride followLast dir names with
    | .ends s => .ok s
    | .fails e => .error e
    | .follows dir target rest =>
      match links with
      | 0 => .error .tooManyLinks
      | links + 1 =>
        d.walk followLast links (if Path.isRooted target then [] else dir) (steps target ++ rest)

/-- Walks the names of a place. -/
def locate (d : Disk) (followLast : Bool) (p : Place) : Except IoError Spot :=
  if p.any (·.toList.contains '\x00') then .error .nulInName
  else if pathLimit ≤ p.width then .error .nameTooLong
  else d.walk followLast linkLimit [] p

/-- Walks a path as written, from the directory `base` if it does not start at the root. -/
def locateText (d : Disk) (followLast : Bool) (base : Place) (path : String) :
    Except IoError Spot :=
  if path.toList.contains '\x00' then .error .nulInName
  else if path = "" then .error .notFound
  else if pathLimit ≤ path.utf8ByteSize then .error .nameTooLong
  else d.walk followLast linkLimit (if Path.isRooted path then [] else base) (steps path)

/-- The entry that a walk found; a free name is an error. -/
def require : Except IoError Spot → Except IoError (Place × Entry)
  | .error e => .error e
  | .ok (.free _) => .error .notFound
  | .ok (.found p e) => .ok (p, e)

/-- The entry that a place leads to, all links followed. -/
def find (d : Disk) (p : Place) : Except IoError (Place × Entry) := require (d.locate true p)

/-- Whether a place leads to an entry, all links followed. -/
def reaches (d : Disk) (p : Place) : Bool := (d.find p).isOk

/-- Whether a walk ended at a directory. -/
def endsAtDir : Except IoError Spot → Bool
  | .ok (.found _ .dir) => true
  | _ => false

/-- Whether a place leads to a directory, all links followed. -/
def isDir (d : Disk) (p : Place) : Bool := endsAtDir (d.locate true p)

end Disk

end LineShell
