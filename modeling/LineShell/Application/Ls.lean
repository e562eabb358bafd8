import LineShell.Application.Operand
import LineShell.Text.Order

/-!
`ls [-RX] [PATH]...` lists files first and then directories, in blocks with an empty line between
them. Entries whose names start with a dot are not shown. With `-R` a directory's block is followed
by those of the directories in it.
-/
namespace LineShell.Ls

/-- How entries are listed. -/
structure Style where
  recursive : Bool
  byExtension : Bool
  deriving Repr, DecidableEq

/-- The part of a name after its last dot. Of a path the last name counts, and a path that ends with
`..` has none. -/
def extension? (path : String) : Option String :=
  match ((Path.names path).filter fun name => name ≠ "" && name ≠ ".").getLast? with
  | none => none
  | some name =>
    if name = ".." then none
    else
      let tail := name.toList.reverse.takeWhile (· ≠ '.')
      if tail.length = name.length then none else some (String.ofList tail.reverse)

/-- Compares extensions; a name without one comes first. -/
def compareExtensions : Option String → Option String → Ordering
  | none, none => .eq
  | none, some _ => .lt
  | some _, none => .gt
  | some a, some b => Text.compare a b

/-- Whether one name does not come after another. -/
def Style.le (style : Style) (a b : String) : Bool :=
  if style.byExtension then
    ((compareExtensions (extension? a) (extension? b)).then (Text.compare a b)).isLE
  else Text.le a b

/-- Sorts names. -/
def Style.sort (style : Style) (names : List String) : List String := names.mergeSort style.le

/-- The names shown of the directory that a place leads to. They are text already, so each is shown
as it is. -/
def visible (d : Disk) (p : Place) : List String :=
  match d.find p with
  | .ok (real, .dir) => (d.children real).filter fun name => name.toList.head? ≠ some '.'
  | _ => []

/-- How an entry of a directory is named: without a leading `./`, and with one slash in between. -/
def childName (dir entry : String) : String :=
  if dir = "." then entry
  else String.ofList ((dir.toList.reverse.dropWhile (· = '/')).reverse) ++ "/" ++ entry

/-- The blocks of a directory, named from `cwd`, and if asked for of those below it to a depth of
`fuel`. -/
def blocks (d : Disk) (cwd : Place) (style : Style) (header : Bool) : Nat → String → List String
  | 0, _ => []
  | fuel + 1, name =>
    let entries := style.sort (visible d (Path.resolve cwd name))
    let body := Text.join "\n" entries
    let block := if header then name ++ ":\n" ++ body else body
    let deeper := if style.recursive then
        (entries.map (childName name)).flatMap fun child =>
          if d.isDir (Path.resolve cwd child) then blocks d cwd style true fuel child else []
      else []
    block :: deeper

/-- Runs the application. No path has more names than bytes, so `pathLimit` bounds every depth. -/
def run (args : List String) : Job Outcome := do
  let o ← Job.options "RX" args
  let style : Style := ⟨o.has 'R', o.has 'X'⟩
  let names := o.operandsOr "."
  let s ← Act.view fun s => s
  let place := Path.resolve s.cwd
  match names.find? fun name => !s.disk.reaches (place name) with
  | some name => throw (.noSuchFile name)
  | none =>
    let isDir (name : String) : Bool := s.disk.isDir (place name)
    let files := style.sort (names.filter (!isDir ·))
    let header := style.recursive || 1 < names.length
    let dirBlocks := (names.filter isDir).flatMap fun name =>
      blocks s.disk s.cwd style header Disk.pathLimit name
    let all := (if files.isEmpty then [] else [Text.join "\n" files]) ++ dirBlocks
    let text := Text.join "\n\n" all
    Job.write (Text.bytes (if text = "" then "" else text ++ "\n"))
    return .proceed

end LineShell.Ls
