import LineShell.Disk.Locate

/-!
Changes to the disk. Each is an operation on a place that may fail, and then, parents made on the way
apart, has changed nothing. The last link of a path is followed when a file is opened, and never when
an entry is made, moved or removed.
-/
namespace LineShell.Disk

/-- Opens the file that a place leads to, for reading. -/
def openFile (d : Disk) (p : Place) : Except IoError FileId := do
  match ← d.find p with
  | (_, .file id) => .ok id
  | _ => .error .isDirectory

/-- Opens the file that a place leads to, for writing; a free name becomes an empty file. With
`keep` an old content stays, otherwise it goes. -/
def openForWriting (d : Disk) (p : Place) (keep : Bool) : Except IoError (Disk × FileId) := do
  match ← d.locate true p with
  | .free q => .ok (d.create q)
  | .found _ (.file id) => .ok (if keep then d else d.setContent id [], id)
  | .found _ _ => .error .isDirectory

/-- Makes a directory. -/
def makeDir (d : Disk) (p : Place) : Except IoError Disk := do
  match ← d.locate false p with
  | .free q => .ok (d.put q .dir)
  | .found _ _ => .error .alreadyExists

/-- Makes a directory unless it is there. -/
def makeDirHere (d : Disk) (p : Place) : Except IoError Disk :=
  match d.makeDir p with
  | .ok d' => .ok d'
  | .error e => if d.isDir p then .ok d else .error e

/-- Makes a directory with its missing parents, the place given from its last name up to the root.
Parents made before a failure stay. -/
def makeDirsUp (d : Disk) : List String → Disk × Option IoError
  | [] => (d, none)
  | name :: parents =>
    let p := (name :: parents).reverse
    match d.makeDir p with
    | .ok d' => (d', none)
    | .error .notFound =>
      match d.makeDirsUp parents with
      | (d', some e) => (d', some e)
      | (d', none) =>
        match d'.makeDirHere p with
        | .ok d'' => (d'', none)
        | .error e => (d', some e)
    | .error e => if d.isDir p then (d, none) else (d, some e)

/-- Makes a directory with its missing parents. -/
def makeDirs (d : Disk) (p : Place) : Disk × Option IoError := d.makeDirsUp p.reverse

/-- Removes an entry that is not a directory. -/
def unlink (d : Disk) (p : Place) : Except IoError Disk := do
  match ← require (d.locate false p) with
  | (_, .dir) => .error .isDirectory
  | (q, _) => .ok (d.erase q)

/-- Removes an empty directory. -/
def removeDir (d : Disk) (p : Place) : Except IoError Disk := do
  match ← require (d.locate false p) with
  | (q, .dir) => if (d.children q).isEmpty then .ok (d.erase q) else .error .notEmpty
  | _ => .error .notDirectory

/-- Removes a directory with all that is below it. -/
def removeTree (d : Disk) (p : Place) : Except IoError Disk := do
  match ← require (d.locate false p) with
  | (q, _) => .ok (d.eraseTree q)

/-- Moves an entry to a new name. An entry that has the name already gives way if both are
directories and the old one is empty, or if neither is a directory. Two names of one file both stay.
A directory does not go below itself. -/
def rename (d : Disk) (p q : Place) : Except IoError Disk := do
  let (source, kind) ← require (d.locate false p)
  let target ← d.locate false q
  if source = [] then throw .busy
  match target with
  | .free target =>
    if source.covers target then throw .invalid
    return d.relocate source target
  | .found target other =>
    if target = [] then throw .busy
    if source = target then return d
    if source.covers target then throw .invalid
    if target.covers source then throw .notEmpty
    match kind, other with
    | .dir, .dir =>
      if (d.children target).isEmpty then return d.relocate source target else throw .notEmpty
    | .dir, _ => throw .notDirectory
    | _, .dir => throw .isDirectory
    | .file id, .file id' => if id = id' then return d else return d.relocate source target
    | _, _ => return d.relocate source target

/-- Copies a file's content: the source is opened, then the target is made or emptied, then the
content is read. -/
def copyFile (d : Disk) (p q : Place) : Except IoError Disk := do
  match ← d.find p with
  | (_, .file source) =>
    let (d', target) ← d.openForWriting q false
    return d'.setContent target (d'.content source)
  | _ => throw .notRegular

end LineShell.Disk
