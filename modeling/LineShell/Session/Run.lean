import LineShell.Session.Basic

/-!
Parts of a shell that run at the same time. They share a world, and each has an input and an output of
its own. A part gets at the world by accesses, of which each is made in one piece; between its
accesses the other parts make theirs, so a part is described by what it does for every world that its
accesses may meet. Put together, the accesses of all parts form one chain, in which each access meets
the world that the one before left.
-/
namespace LineShell

/-- What all parts of a shell share. -/
structure World where
  disk : Disk := {}
  cwd : Place := []
  reports : List Failure := []
  journal : List Record := []
  deriving Repr, DecidableEq

/-- What a part of a shell has for itself. -/
structure Streams where
  input : Source := .empty
  output : Sink := .unlimited
  deriving Repr, DecidableEq

/-- The session of a part in a world. -/
def Streams.over (p : Streams) (w : World) : Session :=
  { disk := w.disk, cwd := w.cwd, input := p.input, output := p.output, reports := w.reports
    journal := w.journal }

namespace Session

/-- What a session shares with others. -/
def world (s : Session) : World :=
  { disk := s.disk, cwd := s.cwd, reports := s.reports, journal := s.journal }

/-- What a session has for itself. -/
def streams (s : Session) : Streams := { input := s.input, output := s.output }

end Session

@[simp] theorem Streams.world_over (p : Streams) (w : World) : (p.over w).world = w := rfl

@[simp] theorem Streams.streams_over (p : Streams) (w : World) : (p.over w).streams = p := rfl

@[simp] theorem Streams.disk_over (p : Streams) (w : World) : (p.over w).disk = w.disk := rfl

@[simp] theorem Streams.cwd_over (p : Streams) (w : World) : (p.over w).cwd = w.cwd := rfl

@[simp] theorem Session.disk_world (s : Session) : s.world.disk = s.disk := rfl

@[simp] theorem Session.cwd_world (s : Session) : s.world.cwd = s.cwd := rfl

@[simp] theorem Session.over_world (s : Session) : s.streams.over s.world = s := rfl

/-- The making of a directory the current one: the path given, the world whose directory the path was
seen from, and the world in which it was found to lead to a directory. -/
structure Entrance where
  path : String
  seen : World
  found : World
  deriving Repr, DecidableEq

/-- The place that was entered. -/
def Entrance.place (e : Entrance) : Place := Path.resolve e.seen.cwd e.path

/-- An access to the world: what it met and what it left, and the directory that it entered, if it
did. -/
structure Step where
  before : World
  after : World
  entered : Option Entrance := none
  deriving Repr, DecidableEq

/-- Accesses that were made one right after the other, from one world to another. -/
def Chain : World → List Step → World → Prop
  | w, [], w' => w' = w
  | w, step :: steps, w' => step.before = w ∧ Chain step.after steps w'

/-- The accesses of two parts in one order, each part's own order kept. -/
inductive Interleaved : List Step → List Step → List Step → Prop where
  | nil : Interleaved [] [] []
  | left {one other both : List Step} (step : Step) (rest : Interleaved one other both) :
      Interleaved (step :: one) other (step :: both)
  | right {one other both : List Step} (step : Step) (rest : Interleaved one other both) :
      Interleaved one (step :: other) (step :: both)

/-- What a part of a shell may do: on which streams, by which accesses, with which result, and what it
leaves of the streams. -/
def Run (ε α : Type) : Type := Streams → List Step → Except ε α → Streams → Prop

namespace Run

variable {ε ε' α β : Type}

/-- The part may begin with the streams `p`, make these accesses, come to the result and leave `p'`. -/
def Does (run : Run ε α) (p : Streams) (steps : List Step) (result : Except ε α) (p' : Streams) :
    Prop :=
  run p steps result p'

/-- Comes to a result without an access. -/
def ofExcept (result : Except ε α) : Run ε α := fun p steps result' p' =>
  steps = [] ∧ result' = result ∧ p' = p

/-- A run and what comes after it: it may fail, and otherwise the rest goes on from what it left. -/
def andThen (first : Run ε α) (next : α → Run ε β) : Run ε β := fun p steps result p' =>
  (∃ e, first.Does p steps (.error e) p' ∧ result = .error e) ∨
    ∃ a p₁ begun later, first.Does p begun (.ok a) p₁ ∧ (next a).Does p₁ later result p' ∧
      steps = begun ++ later

/-- A run, and if it fails what is done about its error. -/
def orElse (first : Run ε α) (handle : ε → Run ε α) : Run ε α := fun p steps result p' =>
  (∃ a, first.Does p steps (.ok a) p' ∧ result = .ok a) ∨
    ∃ e p₁ begun later, first.Does p begun (.error e) p₁ ∧ (handle e).Does p₁ later result p' ∧
      steps = begun ++ later

instance : Monad (Run ε) where
  pure a := ofExcept (.ok a)
  bind := andThen

instance : MonadExceptOf ε (Run ε) where
  throw e := ofExcept (.error e)
  tryCatch := orElse

/-- A step of a session as a single access, whatever world it meets. -/
def access (act : Act ε α) : Run ε α := fun p steps result p' =>
  ∃ w s', act.start (p.over w) = some (result, s') ∧ steps = [{ before := w, after := s'.world }] ∧
    p' = s'.streams

/-- Enters a directory; the access meets any world. -/
def enter (e : Entrance) : Run ε Unit := fun p steps result p' =>
  ∃ w, steps = [{ before := w, after := { w with cwd := e.place }, entered := some e }] ∧
    result = .ok () ∧ p' = p

/-- Renames the error. -/
def mapError (f : ε → ε') (run : Run ε α) : Run ε' α := fun p steps result p' =>
  ∃ result', run.Does p steps result' p' ∧ result = result'.mapError f

/-- Gives the error as a value. -/
def attempt (run : Run ε α) : Run ε' (Except ε α) := fun p steps result p' =>
  ∃ result', run.Does p steps result' p' ∧ result = .ok result'

/-- Runs on another input. -/
def withInput (input : Source) (run : Run ε α) : Run ε α := fun p steps result p' =>
  ∃ p₁, run.Does { p with input } steps result p₁ ∧ p' = { p₁ with input := p.input }

/-- Runs on another output. -/
def withOutput (output : Sink) (run : Run ε α) : Run ε α := fun p steps result p' =>
  ∃ p₁, run.Does { p with output } steps result p₁ ∧ p' = { p₁ with output := p.output }

/-- Keeps what is written from the output; gives the result and the bytes written. -/
def collect (run : Run ε α) : Run ε' (Except ε α × Bytes) := fun p steps result p' =>
  ∃ result' p₁, run.Does { p with output := .unlimited } steps result' p₁ ∧
    result = .ok (result', p₁.output.taken) ∧ p' = { p₁ with output := p.output }

/-- The run does not read these bytes to their end: had there been more, all would have been the
same, and what is more would have been left. -/
def StopsShort (run : Run ε α) (bytes : Bytes) (output : Sink) (steps : List Step)
    (result : Except ε α) (p' : Streams) : Prop :=
  ∃ left, p'.input = .stream left none ∧ ∀ more fault,
    run.Does { input := .stream (bytes ++ more) fault, output } steps result
      { p' with input := .stream (left ++ more) fault }

/-- The writing end of a pipe that takes so many bytes before its reader is gone, or all. -/
def writer (room : Option Nat) : Sink := .outlet { room, broken := room.isSome }

/-- A run, and others at the same time that read what it writes. They get all that is written before
they have stopped reading; a run that goes on to write after that is told that its reader is gone. -/
def beside (first : Run ε α) (later : Run ε' (List (Except ε α))) :
    Run ε' (List (Except ε α)) := fun p steps results p' =>
  ∃ room result p₁ steps₁ results₂ p₂ steps₂,
    first.Does { p with output := writer room } steps₁ result p₁ ∧
    later.Does { p with input := .stream p₁.output.taken none } steps₂ results₂ p₂ ∧
    (room.isSome → later.StopsShort p₁.output.taken p.output steps₂ results₂ p₂) ∧
    Interleaved steps₁ steps₂ steps ∧
    results = results₂.map (result :: ·) ∧ p' = { p₂ with input := p₁.input }

end Run

end LineShell
