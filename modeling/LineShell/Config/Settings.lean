import LineShell.Application.Basic
import LineShell.Shell.Evaluate
import LineShell.Toml.Parse
import LineShell.Toml.Write

/-!
Settings of the shell: the defaults, the overlay that a user may put on top of them, and what they
mean for the journal and for the applications that the shell runs. An overlay that cannot be read, or
that has a known key with a value of another kind, counts for nothing as a whole; unknown keys do not
matter.
-/
namespace LineShell

/-- The settings in force. -/
structure Config where
  prompt : String := "> "
  levels : Nat := 8
  logLevel : String := "warn"
  logFile : String := "~/.local/share/tinysh/shell.log"
  enabled : List String := Application.all.map Application.name
  deriving Repr, DecidableEq

/-- Changes to the settings. -/
structure Overlay where
  prompt : Option String := none
  levels : Option Nat := none
  logLevel : Option String := none
  logFile : Option String := none
  replace : Bool := false
  enabled : List String := []
  removed : List String := []
  deriving Repr, DecidableEq

namespace Overlay

open Toml

/-- A value that has to be a text. -/
def text? : Value → Option String
  | .text s => some s
  | _ => none

/-- A value that has to be a number from zero on. -/
def count? : Value → Option Nat
  | .integer n => if 0 ≤ n then some n.toNat else none
  | _ => none

/-- A value that has to be true or false. -/
def truth? : Value → Option Bool
  | .boolean b => some b
  | _ => none

/-- A value that has to be a list of texts. -/
def texts? : Value → Option (List String)
  | .array items => items.mapM text?
  | .tables [] => some []
  | _ => none

/-- A field that may be left out: read if it is there. -/
def field? {α : Type} (read : Value → Option α) (v : Option Value) : Option (Option α) :=
  match v with
  | none => some none
  | some v => some <$> read v

/-- Fields by name or, in an array, by position; a date has no fields. -/
inductive Fields where
  | named (entries : Entries)
  | listed (items : List Value)

/-- The fields of a value, if it can have any. -/
def Fields.of? : Value → Option Fields
  | .table _ entries => some (.named entries)
  | .date => some (.named [])
  | .array items => some (.listed items)
  | .tables items => some (.listed (items.map (.table .defined)))
  | _ => none

/-- The field with a name, which is the one at a position of a list. -/
def Fields.get? (name : String) (pos : Nat) : Fields → Option Value
  | .named entries => entries.lookup name
  | .listed items => items[pos]?

/-- Whether all of the first `n` fields have to be there and are not. -/
def Fields.lacks (n : Nat) : Fields → Bool
  | .named _ => false
  | .listed items => items.length < n

/-- Reads the settings' part of an overlay. -/
def readSettings (o : Overlay) (v : Value) : Option Overlay := do
  let fs ← Fields.of? v
  if fs.lacks 4 then none
  return { o with
    prompt := ← field? text? (fs.get? "prompt" 0)
    levels := ← field? count? (fs.get? "max_substitution_depth" 1)
    logLevel := ← field? text? (fs.get? "log_level" 2)
    logFile := ← field? text? (fs.get? "log_file" 3) }

/-- Reads the applications' part of an overlay. -/
def readApplications (o : Overlay) (v : Value) : Option Overlay := do
  let fs ← Fields.of? v
  return { o with
    replace := (← field? truth? (fs.get? "replace" 0)).getD false
    enabled := (← field? texts? (fs.get? "enabled" 1)).getD []
    removed := (← field? texts? (fs.get? "remove_enabled" 2)).getD [] }

/-- The overlay that a document describes. -/
def ofEntries? (root : Entries) : Option Overlay := do
  let o : Overlay := {}
  let o ← match root.lookup "settings" with
    | some v => o.readSettings v
    | none => some o
  match root.lookup "applications" with
  | some v => o.readApplications v
  | none => return o

/-- Reads an overlay. -/
def parse? (text : String) : Option Overlay := do ofEntries? (← Toml.parse text)

end Overlay

namespace Config

/-- Adds names that are not in the list yet, one after the other. -/
def addNames (names added : List String) : List String :=
  added.foldl (fun names name => if names.contains name then names else names ++ [name]) names

/-- Puts an overlay on top of settings. Names to remove go first, then new ones are added, unless the
overlay replaces the whole list. -/
def apply (c : Config) (o : Overlay) : Config :=
  { prompt := o.prompt.getD c.prompt
    levels := o.levels.getD c.levels
    logLevel := o.logLevel.getD c.logLevel
    logFile := o.logFile.getD c.logFile
    enabled :=
      if o.replace then o.enabled
      else addNames (c.enabled.filter (!o.removed.contains ·)) o.enabled }

/-- The settings written as a document. -/
def document (c : Config) : String :=
  "[settings]\n" ++
  "prompt = " ++ Toml.writeString c.prompt ++ "\n" ++
  "max_substitution_depth = " ++ toString c.levels ++ "\n" ++
  "log_level = " ++ Toml.writeString c.logLevel ++ "\n" ++
  "log_file = " ++ Toml.writeString c.logFile ++ "\n" ++
  "\n[applications]\n" ++
  "enabled = " ++ Toml.writeStrings c.enabled ++ "\n"

/-- The least important level that the journal keeps; none if it keeps nothing. A level is named in any
case, and a name that is none means warnings. -/
def threshold (c : Config) : Option Level :=
  match String.ofList (c.logLevel.toList.map Char.toUpper) with
  | "OFF" => none
  | "ERROR" => some .error
  | "INFO" => some .info
  | "DEBUG" => some .debug
  | "TRACE" => some .trace
  | _ => some .warn

/-- A path with a leading tilde, that stands alone or before a slash, replaced by the home
directory. -/
def expandHome (home : Option String) (path : String) : String :=
  match path.toList, home with
  | '~' :: rest, some home =>
    if rest.isEmpty || rest.head? = some '/' then home ++ String.ofList rest else path
  | _, _ => path

/-- Where the journal goes; nowhere if the setting is blank. -/
def logPath (c : Config) (home : Option String) : Option String :=
  if Text.allBlank c.logFile.toList then none else some (expandHome home c.logFile)

/-- The enabled applications, in the order of their names. -/
def applications (c : Config) : List Application :=
  Application.all.filter (c.enabled.contains ·.name)

/-- The enabled names that are no application's. -/
def unknownNames (c : Config) : List String :=
  c.enabled.filter fun name => (Application.ofName? name).isNone

/-- The records about names that are no application's. -/
def remarks (c : Config) : List Record :=
  c.unknownNames.map fun name =>
    ⟨.warn, "no builtin named " ++ Text.shown name ++ "; skipping"⟩

/-- The shell that the settings describe. -/
def shell (c : Config) : Shell :=
  { applications := c.applications, levels := c.levels, prompt := c.prompt }

end Config

end LineShell
