import LineShell.Disk.Locate
import LineShell.Text.Order
import LineShell.Text.Shown

/-!
Wildcards. A word is a list of symbols: characters that stand for themselves, and stars. A star
stands for any text without a slash; two stars that make up a whole component stand for any
directories in between, and at the end of a word for all directories below. The entries `.` and
`..` match only a component that starts with a dot.
-/
namespace LineShell

/-- One symbol of a word. -/
inductive Symbol where
  | lit (c : Char)
  | star
  deriving Repr, DecidableEq

namespace Wildcard

/-- The word as typed, with its stars written back. -/
def literal (word : List Symbol) : String :=
  String.ofList (word.map fun | .lit c => c | .star => '*')

/-- Whether the word has a star. -/
def hasStar (word : List Symbol) : Bool := word.contains .star

/-- Whether `k` holds of the list or of one of its tails. -/
def anyTail (k : List Char → Bool) : List Char → Bool
  | [] => k []
  | c :: cs => k (c :: cs) || anyTail k cs

/-- Whether a name is an instance of a component. -/
def covers : List Symbol → List Char → Bool
  | [], cs => cs.isEmpty
  | .lit c :: rest, d :: cs => c = d && covers rest cs
  | .lit _ :: _, [] => false
  | .star :: rest, cs => anyTail (covers rest) cs

/-- One component of a pattern. -/
inductive Component where
  | name (text : String)
  | pattern (symbols : List Symbol)
  | anyDepth
  deriving Repr, DecidableEq

/-- What the symbols between two slashes stand for. -/
def Component.of (symbols : List Symbol) : Component :=
  if symbols = [.star, .star] then .anyDepth
  else if hasStar symbols then .pattern symbols
  else .name (literal symbols)

/-- Whether an entry's name fits a component. -/
def Component.fits (name : String) : Component → Bool
  | .name text => text = name
  | .pattern symbols => covers symbols name.toList
  | .anyDepth => false

/-- The components of a word; a slash at the end adds none. -/
def components (word : List Symbol) : List Component :=
  let parts := Text.splitWhere (· = Symbol.lit '/') word
  (if parts.getLast? = some [] then parts.dropLast else parts).map Component.of

/-- One more name on a path. -/
def extend (path name : String) : String :=
  if path.toList.getLast? = some '/' then path ++ name else path ++ "/" ++ name

/-- Whether a path leads to a directory. -/
def leadsToDir (d : Disk) (path : String) : Bool := Disk.endsAtDir (d.locateText true [] path)

/-- The names in the directory that a path leads to; none if it leads to no directory. -/
def namesAt (d : Disk) (path : String) : List String :=
  match d.locateText true [] path with
  | .ok (.found p .dir) => d.children p
  | _ => []

/-- Whether a path names an entry; a link need not lead anywhere. -/
def isEntry (d : Disk) (path : String) : Bool := (Disk.require (d.locateText false [] path)).isOk

/-- What `here` finds at each entry below a path, down to a depth of `fuel`. -/
def below (d : Disk) (here : String → String → List String) : Nat → String → List String
  | 0, _ => []
  | fuel + 1, path =>
    (namesAt d path).flatMap fun name =>
      let child := extend path name
      here name child ++ below d here fuel child

/-- The paths that extend `path` by instances of the components. No path has more names than
bytes, so `pathLimit` bounds every depth. -/
def paths (d : Disk) (needsDir : Bool) : List Component → String → List String
  | [], path => if needsDir && !leadsToDir d path then [] else [path]
  | .name text :: rest, path =>
    let next := extend path text
    if (if text = "." || text = ".." then leadsToDir d path else isEntry d next) then
      paths d needsDir rest next
    else []
  | .pattern symbols :: rest, path =>
    let specials := if symbols.head? = some (.lit '.') && leadsToDir d path then [".", ".."] else []
    ((namesAt d path ++ specials).filter fun name => covers symbols name.toList).flatMap fun name =>
      paths d needsDir rest (extend path name)
  | .anyDepth :: .anyDepth :: rest, path => paths d needsDir (.anyDepth :: rest) path
  | .anyDepth :: [], path =>
    below d (fun _ child => if leadsToDir d child then [child] else []) Disk.pathLimit path
  | .anyDepth :: .name text :: rest, path =>
    below d (fun name child => if text = name then paths d needsDir rest child else [])
      Disk.pathLimit path
  | .anyDepth :: .pattern symbols :: rest, path =>
    below d (fun name child => if covers symbols name.toList then paths d needsDir rest child else [])
      Disk.pathLimit path

/-- A path below the directory with path `base`, written from there: without the empty names and
the `.` at either end. -/
def relative (base path : String) : String :=
  let idle (name : String) : Bool := name = "" || name = "."
  let names := (Path.names (String.ofList (path.toList.drop base.length))).dropWhile idle
  Text.join "/" ((names.reverse.dropWhile idle).reverse)

/-- A character as a pattern writes it, in brackets if it would have a meaning. -/
def escaped (c : Char) : List Char := if ['?', '*', '[', ']'].contains c then ['[', c, ']'] else [c]

/-- A pattern's text. -/
def patternText (symbols : List Symbol) : String :=
  String.ofList (symbols.flatMap fun | .lit c => escaped c | .star => ['*'])

/-- The first misuse of stars: more than two in a row, or two that are not a whole component. It is
given with its position in the pattern's text. -/
def flaw? (pos : Nat) (afterSlash : Bool) : List Symbol → Option (Nat × String)
  | [] => none
  | .lit c :: rest => flaw? (pos + (escaped c).length) (c = '/') rest
  | .star :: .star :: .star :: _ =>
    some (pos + 2, "wildcards are either regular `*` or recursive `**`")
  | .star :: .star :: rest =>
    let apart := "recursive wildcards must form a single path component"
    if !afterSlash && pos ≠ 0 then some (pos - 1, apart)
    else
      match rest with
      | [] => none
      | .lit c :: rest' => if c = '/' then flaw? (pos + 3) true rest' else some (pos + 2, apart)
      | .star :: _ => some (pos + 2, apart)
  | .star :: rest => flaw? (pos + 1) false rest

/-- The result of expanding a word: the words it stands for, and a remark if its stars are
misused. -/
structure Expansion where
  words : List String
  remark : Option String := none
  deriving Repr, DecidableEq

/-- Expands a word with a star against the disk, seen from a directory. Matches come in the order of
their texts; a word without a match stands for itself. -/
def expand (d : Disk) (cwd : Place) (word : List Symbol) : Expansion :=
  let typed := literal word
  let rooted := Path.isRooted typed
  let base := cwd.text
  let lead := if rooted then [] else
    base.toList.map .lit ++ if base.toList.getLast? = some '/' then [] else [.lit '/']
  let pattern := lead ++ word
  match flaw? 0 false pattern with
  | some (pos, what) =>
    { words := [typed]
      remark := some ("glob pattern " ++ Text.shown (patternText pattern) ++
        " rejected: Pattern syntax error near position " ++ toString pos ++ ": " ++ what) }
  | none =>
    let needsDir := word.getLast? = some (.lit '/')
    let found :=
      if rooted then paths d needsDir (components (word.drop 1)) "/"
      else (paths d needsDir (components word) base).map (relative base)
    if found.isEmpty then { words := [typed] } else { words := Text.sort found }

end Wildcard

end LineShell
