import LineShell.Disk.Basic

/-!
Streams. A source yields bytes and may fail where it would end; a file read as a source is read at
the time of reading, from an advancing position. A sink takes bytes: an outlet may have room for a
limited number of bytes and may refuse to be flushed, a file is written at an advancing position or
at its end.
-/
namespace LineShell

/-- Where a command's input comes from. -/
inductive Source where
  /-- The bytes left, and the failure that stands in place of the end. -/
  | stream (rest : Bytes) (fault : Option IoError)
  /-- An open file and the position reached. -/
  | file (id : FileId) (pos : Nat)
  deriving Repr, DecidableEq

namespace Source

/-- A source that has ended. -/
def empty : Source := .stream [] none

/-- The bytes that the source still holds. -/
def held (d : Disk) : Source → Bytes
  | .stream rest _ => rest
  | .file id pos => (d.content id).drop pos

/-- The failure met after the bytes held. -/
def fault : Source → Option IoError
  | .stream _ e => e
  | .file _ _ => none

/-- The source after `n` of the bytes held have been read. -/
def skip (n : Nat) : Source → Source
  | .stream rest e => .stream (rest.drop n) e
  | .file id pos => .file id (pos + n)

/-- Reads up to `n` bytes; nothing at the end, and the failure in place of the end. -/
def read (d : Disk) (n : Nat) (s : Source) : Except IoError Bytes × Source :=
  let chunk := (s.held d).take n
  if chunk.isEmpty then
    match s.fault with
    | some e => (.error e, s)
    | none => (.ok [], s)
  else (.ok chunk, s.skip chunk.length)

/-- Reads all that is left. -/
def drain (d : Disk) (s : Source) : Except IoError Bytes × Source :=
  let all := s.held d
  match s.fault with
  | some e => (.error e, s.skip all.length)
  | none => (.ok all, s.skip all.length)

/-- Splits off the bytes up to and with the first line feed, if there is one. -/
def cutLine (bs : Bytes) : Bytes × Option Bytes :=
  let line := bs.takeWhile (· ≠ 10)
  match bs.drop line.length with
  | [] => (line, none)
  | feed :: rest => (line ++ [feed], some rest)

/-- Reads a line with its line feed; the last line may have none. -/
def readLine (d : Disk) (s : Source) : Except IoError Bytes × Source :=
  match cutLine (s.held d) with
  | (line, some _) => (.ok line, s.skip line.length)
  | (line, none) =>
    match s.fault with
    | some e => (.error e, s.skip line.length)
    | none => (.ok line, s.skip line.length)

end Source

/-- An output of the session. -/
structure Outlet where
  /-- What has been taken so far. -/
  taken : Bytes := []
  /-- How many more bytes are taken, if that is limited. -/
  room : Option Nat := none
  /-- Whether every flush fails. -/
  flushFails : Bool := false
  /-- Whether failures say that the reader has gone away. -/
  broken : Bool := false
  deriving Repr, DecidableEq

namespace Outlet

/-- Writes all of `bs`, or as much as there is room for. -/
def write (p : Outlet) (bs : Bytes) : Outlet × Option IoError :=
  match p.room with
  | none => ({ p with taken := p.taken ++ bs }, none)
  | some n =>
    let fits := bs.take n
    ({ p with taken := p.taken ++ fits, room := some (n - fits.length) },
      if bs.length ≤ n then none else some (.described "sink full" p.broken))

/-- Asks for what was written to be passed on. -/
def flush (p : Outlet) : Option IoError :=
  if p.flushFails then some (.described "flush failed" p.broken) else none

end Outlet

/-- Where a command's output goes. -/
inductive Sink where
  | outlet (p : Outlet)
  /-- A file, and the position of the next write; without a position every write goes to the
  end. -/
  | file (id : FileId) (pos : Option Nat)
  deriving Repr, DecidableEq

namespace Sink

/-- An output that takes everything. -/
def unlimited : Sink := .outlet {}

/-- What an outlet has taken. -/
def taken : Sink → Bytes
  | .outlet p => p.taken
  | .file _ _ => []

/-- How many more bytes are taken, if that is limited. -/
def room? : Sink → Option Nat
  | .outlet p => p.room
  | .file _ _ => none

/-- Writes all of `bs`. -/
def write (d : Disk) (s : Sink) (bs : Bytes) : Disk × Sink × Option IoError :=
  match s with
  | .outlet p => let (p', e) := p.write bs; (d, .outlet p', e)
  | .file id none => (d.append id bs, s, none)
  | .file id (some pos) => (d.overwrite id pos bs, .file id (some (pos + bs.length)), none)

/-- Asks for what was written to be passed on. -/
def flush : Sink → Option IoError
  | .outlet p => p.flush
  | .file _ _ => none

end Sink

end LineShell
