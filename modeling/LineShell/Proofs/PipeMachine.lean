import LineShell.Shell.Evaluate
import Mathlib.Data.Nat.Find
import Mathlib.Logic.Function.Basic

/-! The stages of a pipe at work side by side. A stage is a process that knows nothing
but its own input and output; neighbours share a pipe, a queue of bytes with limited
room. A scheduler picks the stage that moves next and how much it gets to read. A
stage that has to wait cannot move, and a stage that stops gives up both its ends.

Whatever the processes are and however much the pipes hold, some stage can move as long
as one has not stopped: every stage holds just the ends it was wired with, so the
leftmost stage that is still at work cannot wait for input, and a stage that waits for
room has something for the next one to read. -/
namespace LineShell.PipeMachine

/-- What a process does next. It reads what there is, up to a positive number of
bytes, and writes byte by byte. -/
inductive Move (σ : Type) where
  | read (most : Nat) (positive : 0 < most) (next : Except IoError Bytes → σ)
  | write (b : UInt8) (next : Option IoError → σ)
  | flush (next : Option IoError → σ)
  | stop (result : Except Failure Outcome)

/-- What a stage reads from or writes to. -/
inductive End where
  /-- The session's own input or output. -/
  | ambient
  | pipe (id : Nat)
  /-- No stream at all: it has ended as an input, and takes everything as an output. -/
  | closed
  deriving Repr, DecidableEq

/-- A process and the ends it holds. -/
structure Stage (σ : Type) where
  state : σ
  input : End
  output : End
  /-- Whether it was told that its input has no more bytes. -/
  sawEnd : Bool := false
  /-- What it came to, once it has stopped. -/
  result : Option (Except Failure Outcome) := none

/-- All stages, what each pipe holds, and the session's own input and output. -/
structure Machine (σ : Type) where
  stages : List (Stage σ)
  held : Nat → Bytes := fun _ => []
  source : Source
  outlet : Outlet

/-- Every stage but the last writes to a new pipe, and the next stage reads from it. -/
def wireFrom {σ : Type} (upstream : End) (fresh : Nat) : List σ → List (Stage σ)
  | [] => []
  | [last] => [{ state := last, input := upstream, output := .ambient }]
  | state :: next :: rest =>
    { state, input := upstream, output := .pipe fresh } ::
      wireFrom (.pipe fresh) (fresh + 1) (next :: rest)

/-- The stages before their first move. -/
def wire {σ : Type} (starts : List σ) (source : Source) (outlet : Outlet) : Machine σ :=
  { stages := wireFrom .ambient 0 starts, source, outlet }

/-- The failure of a write that nobody is left to read. -/
def brokenPipe : IoError := .described "Broken pipe (os error 32)" true

/-- Whether an answer to a read says that there are no more bytes. -/
def isEnd : Except IoError Bytes → Bool
  | .ok bs => bs.isEmpty
  | .error _ => true

namespace Machine

variable {σ : Type}

def hasReader (m : Machine σ) (id : Nat) : Bool := m.stages.any (·.input == .pipe id)

def hasWriter (m : Machine σ) (id : Nat) : Bool := m.stages.any (·.output == .pipe id)

/-- Reads up to `n` bytes; has to wait while a pipe is empty and may still be written to. -/
def read (d : Disk) (m : Machine σ) (n : Nat) : End → Option (Except IoError Bytes × Machine σ)
  | .ambient => some ((m.source.read d n).1, { m with source := (m.source.read d n).2 })
  | .pipe id =>
    if m.held id = [] then
      if m.hasWriter id then none else some (.ok [], m)
    else
      some (.ok ((m.held id).take n),
        { m with held := Function.update m.held id ((m.held id).drop n) })
  | .closed => some (.ok [], m)

/-- Writes a byte; has to wait while a pipe is full and may still be read from. -/
def write (capacity : Nat → Nat) (m : Machine σ) (b : UInt8) :
    End → Option (Option IoError × Machine σ)
  | .ambient => some ((m.outlet.write [b]).2, { m with outlet := (m.outlet.write [b]).1 })
  | .pipe id =>
    if m.hasReader id = false then some (some brokenPipe, m)
    else if (m.held id).length < capacity id then
      some (none, { m with held := Function.update m.held id (m.held id ++ [b]) })
    else none
  | .closed => some (none, m)

/-- A pipe has nothing to pass on. -/
def flush (m : Machine σ) : End → Option IoError
  | .ambient => m.outlet.flush
  | .pipe _ | .closed => none

/-- Replaces a stage. -/
def put (m : Machine σ) (i : Nat) (stage : Stage σ) : Machine σ :=
  { m with stages := m.stages.set i stage }

/-- The stage has not stopped. -/
def Running (m : Machine σ) (i : Nat) : Prop :=
  ∃ stage, m.stages[i]? = some stage ∧ stage.result = none

/-- All stages have stopped. -/
def Finished (m : Machine σ) : Prop := ∀ i, ¬ m.Running i

/-- What the stages that have stopped came to. -/
def results (m : Machine σ) : List (Except Failure Outcome) := m.stages.filterMap (·.result)

end Machine

variable {σ : Type} (next : σ → Move σ) (d : Disk) (capacity : Nat → Nat)

/-- The move of a stage, which gets up to `n` bytes if it reads. There is none if the
stage has stopped or has to wait. -/
def step (m : Machine σ) (i n : Nat) : Option (Machine σ) :=
  match m.stages[i]? with
  | none => none
  | some stage =>
    if stage.result.isSome then none
    else match next stage.state with
      | .read most _ f =>
        if 0 < n ∧ n ≤ most then
          (m.read d n stage.input).map fun (answer, m) =>
            m.put i { stage with state := f answer, sawEnd := stage.sawEnd || isEnd answer }
        else none
      | .write b f =>
        (m.write capacity b stage.output).map fun (answer, m) =>
          m.put i { stage with state := f answer }
      | .flush f => some (m.put i { stage with state := f (m.flush stage.output) })
      | .stop result =>
        some (m.put i { stage with input := .closed, output := .closed, result := some result })

/-- The stages that move, one after the other, and how much each gets to read. -/
def run (m : Machine σ) : List (Nat × Nat) → Option (Machine σ)
  | [] => some m
  | (i, n) :: schedule => (step next d capacity m i n).bind (run · schedule)

variable {next d capacity}

/-- What holds at first and is kept by every move holds after every run. -/
theorem run_invariant {P : Machine σ → Prop}
    (kept : ∀ m i n m', step next d capacity m i n = some m' → P m → P m')
    {schedule : List (Nat × Nat)} {m m' : Machine σ} (first : P m)
    (ran : run next d capacity m schedule = some m') : P m' := by
  induction schedule generalizing m with
  | nil =>
    cases ran
    exact first
  | cons choice schedule ih =>
    obtain ⟨i, n⟩ := choice
    obtain ⟨m₁, stepped, rest⟩ := Option.bind_eq_some_iff.mp ran
    exact ih (kept m i n m₁ stepped first) rest

/-- What a move can be. -/
inductive Moved (next : σ → Move σ) (d : Disk) (capacity : Nat → Nat) (m : Machine σ) (i n : Nat)
    (stage : Stage σ) : Machine σ → Prop where
  | read {most positive f answer m₁} (asks : next stage.state = .read most positive f)
      (some_bytes : 0 < n) (at_most : n ≤ most) (got : m.read d n stage.input = some (answer, m₁)) :
      Moved next d capacity m i n stage
        (m₁.put i { stage with state := f answer, sawEnd := stage.sawEnd || isEnd answer })
  | write {b f answer m₁} (asks : next stage.state = .write b f)
      (got : m.write capacity b stage.output = some (answer, m₁)) :
      Moved next d capacity m i n stage (m₁.put i { stage with state := f answer })
  | flush {f} (asks : next stage.state = .flush f) :
      Moved next d capacity m i n stage (m.put i { stage with state := f (m.flush stage.output) })
  | stop {result} (asks : next stage.state = .stop result) :
      Moved next d capacity m i n stage
        (m.put i { stage with input := .closed, output := .closed, result := some result })

theorem step_cases {m m' : Machine σ} {i n : Nat} (stepped : step next d capacity m i n = some m') :
    ∃ stage, m.stages[i]? = some stage ∧ stage.result = none ∧
      Moved next d capacity m i n stage m' := by
  unfold step at stepped
  split at stepped
  · cases stepped
  · rename_i stage found
    split at stepped
    · cases stepped
    · rename_i running
      refine ⟨stage, found, by simpa using running, ?_⟩
      split at stepped
      · rename_i asks
        split at stepped
        · rename_i fits
          obtain ⟨⟨answer, m₁⟩, got, rfl⟩ := Option.map_eq_some_iff.mp stepped
          exact .read asks fits.1 fits.2 got
        · cases stepped
      · rename_i asks
        obtain ⟨⟨answer, m₁⟩, got, rfl⟩ := Option.map_eq_some_iff.mp stepped
        exact .write asks got
      · rename_i asks
        cases stepped
        exact .flush asks
      · rename_i asks
        cases stepped
        exact .stop asks

/-! Who holds which end. -/

/-- The end that a stage reads from by its place. -/
def inputEnd : Nat → End
  | 0 => .ambient
  | i + 1 => .pipe i

/-- The end that one of `size` stages writes to by its place. -/
def outputEnd (size i : Nat) : End := if i + 1 < size then .pipe i else .ambient

/-- A stage holds the ends of its place until it stops, and none afterwards. -/
def Holds (size i : Nat) (stage : Stage σ) : Prop :=
  match stage.result with
  | none => stage.input = inputEnd i ∧ stage.output = outputEnd size i
  | some _ => stage.input = .closed ∧ stage.output = .closed

/-- Every stage holds what it should. -/
structure Wired (size : Nat) (m : Machine σ) : Prop where
  length : m.stages.length = size
  holds : ∀ i stage, m.stages[i]? = some stage → Holds size i stage

theorem wireFrom_length (upstream : End) (fresh : Nat) (starts : List σ) :
    (wireFrom upstream fresh starts).length = starts.length := by
  induction starts generalizing upstream fresh with
  | nil => rfl
  | cons start rest ih =>
    cases rest with
    | nil => rfl
    | cons second rest => simp [wireFrom, ih]

/-- Pipes that are made one after the other for stages from place `i` on. -/
theorem wireFrom_getElem? (starts : List σ) (i j : Nat) :
    (wireFrom (inputEnd i) i starts)[j]? = starts[j]?.map fun start =>
      { state := start, input := inputEnd (i + j), output := outputEnd (i + starts.length) (i + j) } := by
  induction starts generalizing i j with
  | nil => rfl
  | cons start rest ih =>
    cases rest with
    | nil => cases j <;> simp [wireFrom, outputEnd]
    | cons second rest =>
      cases j with
      | zero => simp [wireFrom, outputEnd]
      | succ j =>
        have later := ih (i + 1) j
        have place : i + 1 + j = i + (j + 1) := by omega
        have size : i + 1 + (second :: rest).length = i + (start :: second :: rest).length := by
          simp only [List.length_cons]
          omega
        rw [place, size] at later
        exact later

theorem wire_getElem? (starts : List σ) (source : Source) (outlet : Outlet) (i : Nat) :
    (wire starts source outlet).stages[i]? = starts[i]?.map fun start =>
      { state := start, input := inputEnd i, output := outputEnd starts.length i } := by
  have wired := wireFrom_getElem? starts 0 i
  simp only [Nat.zero_add] at wired
  exact wired

theorem wire_wired (starts : List σ) (source : Source) (outlet : Outlet) :
    Wired starts.length (wire starts source outlet) where
  length := wireFrom_length .ambient 0 starts
  holds := by
    intro i stage found
    rw [wire_getElem?] at found
    obtain ⟨start, -, rfl⟩ := Option.map_eq_some_iff.mp found
    exact ⟨rfl, rfl⟩

/-- A stage after one stage was replaced. -/
theorem put_cases {m : Machine σ} {i j : Nat} {stage other : Stage σ}
    (found : (m.put i stage).stages[j]? = some other) :
    j = i ∧ other = stage ∨ j ≠ i ∧ m.stages[j]? = some other := by
  rw [Machine.put, List.getElem?_set] at found
  by_cases same : i = j
  · subst same
    rw [if_pos rfl] at found
    split at found
    · cases found
      exact .inl ⟨rfl, rfl⟩
    · cases found
  · rw [if_neg same] at found
    exact .inr ⟨fun eq => same eq.symm, found⟩

theorem read_stages {m m₁ : Machine σ} {n : Nat} {e : End} {answer}
    (got : m.read d n e = some (answer, m₁)) : m₁.stages = m.stages := by
  cases e with
  | ambient | closed =>
    cases got
    rfl
  | pipe id =>
    simp only [Machine.read] at got
    split at got
    · split at got
      · cases got
      · cases got
        rfl
    · cases got
      rfl

theorem write_stages {m m₁ : Machine σ} {b : UInt8} {e : End} {answer}
    (got : m.write capacity b e = some (answer, m₁)) : m₁.stages = m.stages := by
  cases e with
  | ambient | closed =>
    cases got
    rfl
  | pipe id =>
    simp only [Machine.write] at got
    split at got
    · cases got
      rfl
    · split at got
      · cases got
        rfl
      · cases got

theorem Wired.of_stages {size : Nat} {m m₁ : Machine σ} (wired : Wired size m)
    (same : m₁.stages = m.stages) : Wired size m₁ where
  length := same ▸ wired.length
  holds := same ▸ wired.holds

theorem Wired.put {size i : Nat} {m : Machine σ} {stage : Stage σ} (wired : Wired size m)
    (holds : Holds size i stage) : Wired size (m.put i stage) where
  length := by simp [Machine.put, wired.length]
  holds := by
    intro j other found
    obtain ⟨rfl, rfl⟩ | ⟨-, found⟩ := put_cases found
    · exact holds
    · exact wired.holds j other found

/-- The ends of a stage that has not stopped. -/
theorem Wired.ends {size i : Nat} {m : Machine σ} {stage : Stage σ} (wired : Wired size m)
    (found : m.stages[i]? = some stage) (running : stage.result = none) :
    stage.input = inputEnd i ∧ stage.output = outputEnd size i := by
  have holds := wired.holds i stage found
  rwa [Holds, running] at holds

theorem holds_of_ends {size i : Nat} {stage : Stage σ} (running : stage.result = none)
    (input : stage.input = inputEnd i) (output : stage.output = outputEnd size i) :
    Holds size i stage := by
  rw [Holds, running]
  exact ⟨input, output⟩

/-- No move gives a stage an end that is not its own. -/
theorem step_wired {size : Nat} {m m' : Machine σ} {i n : Nat}
    (stepped : step next d capacity m i n = some m') (wired : Wired size m) : Wired size m' := by
  obtain ⟨stage, found, running, moved⟩ := step_cases stepped
  obtain ⟨input, output⟩ := wired.ends found running
  cases moved with
  | read asks some_bytes at_most got =>
    exact (wired.of_stages (read_stages got)).put (holds_of_ends running input output)
  | write asks got =>
    exact (wired.of_stages (write_stages got)).put (holds_of_ends running input output)
  | flush asks => exact wired.put (holds_of_ends running input output)
  | stop asks => exact wired.put ⟨rfl, rfl⟩

theorem run_wired {starts : List σ} {source : Source} {outlet : Outlet} {schedule : List (Nat × Nat)}
    {m : Machine σ} (ran : run next d capacity (wire starts source outlet) schedule = some m) :
    Wired starts.length m :=
  run_invariant (fun _ _ _ _ stepped wired => step_wired stepped wired)
    (wire_wired starts source outlet) ran

/-- A pipe has a reader while the stage after it is at work. -/
theorem hasReader_iff {size : Nat} {m : Machine σ} (wired : Wired size m) (id : Nat) :
    m.hasReader id = true ↔ m.Running (id + 1) := by
  rw [Machine.hasReader, List.any_eq_true]
  constructor
  · rintro ⟨stage, member, reads⟩
    obtain ⟨i, found⟩ := List.mem_iff_getElem?.mp member
    have holds := wired.holds i stage found
    have reads : stage.input = .pipe id := by simpa using reads
    rw [Holds] at holds
    split at holds
    · rename_i running
      rw [holds.1] at reads
      cases i with
      | zero => cases reads
      | succ i =>
        cases reads
        exact ⟨stage, found, running⟩
    · rw [holds.1] at reads
      cases reads
  · rintro ⟨stage, found, running⟩
    refine ⟨stage, List.mem_of_getElem? found, ?_⟩
    rw [(wired.ends found running).1]
    exact beq_self_eq_true _

/-- A pipe has a writer while the stage before it is at work. -/
theorem hasWriter_iff {size : Nat} {m : Machine σ} (wired : Wired size m) {id : Nat}
    (between : id + 1 < size) : m.hasWriter id = true ↔ m.Running id := by
  rw [Machine.hasWriter, List.any_eq_true]
  constructor
  · rintro ⟨stage, member, writes⟩
    obtain ⟨i, found⟩ := List.mem_iff_getElem?.mp member
    have holds := wired.holds i stage found
    have writes : stage.output = .pipe id := by simpa using writes
    rw [Holds] at holds
    split at holds
    · rename_i running
      rw [holds.2, outputEnd] at writes
      split at writes
      · cases writes
        exact ⟨stage, found, running⟩
      · cases writes
    · rw [holds.2] at writes
      cases writes
  · rintro ⟨stage, found, running⟩
    refine ⟨stage, List.mem_of_getElem? found, ?_⟩
    rw [(wired.ends found running).2, outputEnd, if_pos between]
    exact beq_self_eq_true _

/-! Waiting. -/

/-- The stage does not have to wait for input. -/
def Fed (m : Machine σ) : Nat → Prop
  | 0 => True
  | i + 1 => m.held i ≠ [] ∨ ¬ m.Running i

/-- A stage that is fed can read. -/
theorem read_isSome {size i : Nat} {m : Machine σ} (wired : Wired size m) (fed : Fed m i)
    (within : i < size) (n : Nat) : (m.read d n (inputEnd i)).isSome := by
  cases i with
  | zero => rfl
  | succ i =>
    simp only [inputEnd, Machine.read]
    by_cases empty : m.held i = []
    · have stopped : ¬ m.Running i := fed.resolve_left (fun some => some empty)
      have gone : ¬ m.hasWriter i = true := fun writer => stopped ((hasWriter_iff wired within).mp writer)
      rw [if_pos empty, if_neg gone]
      rfl
    · rw [if_neg empty]
      rfl

/-- A stage that has to wait for room has a reader, which is fed. -/
theorem write_blocked {size i : Nat} {m : Machine σ} (wired : Wired size m)
    (positive : ∀ id, 0 < capacity id) {b : UInt8}
    (blocked : m.write capacity b (outputEnd size i) = none) :
    m.Running (i + 1) ∧ Fed m (i + 1) := by
  rw [outputEnd] at blocked
  split at blocked
  · simp only [Machine.write] at blocked
    split at blocked
    · cases blocked
    · rename_i reader
      split at blocked
      · cases blocked
      · rename_i full
        refine ⟨(hasReader_iff wired i).mp (by simpa using reader), .inl ?_⟩
        intro empty
        have room := positive i
        rw [empty] at full
        exact full room
  · cases blocked

/-- The stage can move, for some number of bytes that it gets to read. -/
def CanMove (next : σ → Move σ) (d : Disk) (capacity : Nat → Nat) (m : Machine σ) (i : Nat) : Prop :=
  m.Running i ∧ ∃ n, (step next d capacity m i n).isSome

/-- A fed stage can move, or waits for room that the next one, which is fed, can make. -/
theorem canMove_or_next {size i : Nat} {m : Machine σ} (wired : Wired size m)
    (positive : ∀ id, 0 < capacity id) (running : m.Running i) (fed : Fed m i) :
    CanMove next d capacity m i ∨ m.Running (i + 1) ∧ Fed m (i + 1) := by
  obtain ⟨stage, found, unfinished⟩ := running
  obtain ⟨input, output⟩ := wired.ends found unfinished
  have within : i < size := by
    rw [← wired.length]
    exact (List.getElem?_eq_some_iff.mp found).1
  have moves {n : Nat} (steps : (step next d capacity m i n).isSome) : CanMove next d capacity m i :=
    ⟨⟨stage, found, unfinished⟩, n, steps⟩
  cases asks : next stage.state with
  | read most most_positive f =>
    have got := read_isSome (d := d) wired fed within most
    refine .inl (moves (n := most) ?_)
    simp [step, found, unfinished, asks, most_positive, input, got]
  | write b f =>
    cases got : m.write capacity b (outputEnd size i) with
    | none => exact .inr (write_blocked wired positive got)
    | some taken =>
      refine .inl (moves (n := 0) ?_)
      simp [step, found, unfinished, asks, output, got]
  | flush f =>
    refine .inl (moves (n := 0) ?_)
    simp [step, found, unfinished, asks]
  | stop result =>
    refine .inl (moves (n := 0) ?_)
    simp [step, found, unfinished, asks]

/-- From a fed stage on, one of the stages can move. The induction is on a bound for the
number of stages after it. -/
theorem canMove_of_fed {size : Nat} {m : Machine σ} (wired : Wired size m)
    (positive : ∀ id, 0 < capacity id) (after i : Nat) (bound : size ≤ i + after)
    (running : m.Running i) (fed : Fed m i) : ∃ j, CanMove next d capacity m j := by
  induction after generalizing i with
  | zero =>
    obtain ⟨stage, found, -⟩ := running
    have within := (List.getElem?_eq_some_iff.mp found).1
    rw [wired.length] at within
    omega
  | succ after ih =>
    have here : CanMove next d capacity m i ∨ m.Running (i + 1) ∧ Fed m (i + 1) :=
      canMove_or_next wired positive running fed
    rcases here with moves | ⟨later, fed⟩
    · exact ⟨i, moves⟩
    · exact ih (i + 1) (by omega) later fed

/-- The first stage that is still at work is fed. -/
theorem exists_fed {m : Machine σ} (unfinished : ∃ i, m.Running i) : ∃ i, m.Running i ∧ Fed m i := by
  classical
  refine ⟨Nat.find unfinished, Nat.find_spec unfinished, ?_⟩
  have first : ∀ j, j < Nat.find unfinished → ¬ m.Running j :=
    fun j before => Nat.find_min unfinished before
  cases place : Nat.find unfinished with
  | zero => trivial
  | succ i => exact .inr (first i (by omega))

/-- However the stages were scheduled and whatever became of them: those that have not
stopped hold the ends of their places, those that have stopped hold none, and as long as
one has not stopped one of them can move. -/
theorem some_stage_can_move (next : σ → Move σ) (d : Disk) (capacity : Nat → Nat)
    (positive : ∀ id, 0 < capacity id) (starts : List σ) (source : Source) (outlet : Outlet)
    (schedule : List (Nat × Nat)) (m : Machine σ)
    (ran : run next d capacity (wire starts source outlet) schedule = some m) :
    Wired starts.length m ∧
      ((∃ i, m.Running i) → ∃ i, m.Running i ∧ ∃ n, (step next d capacity m i n).isSome) := by
  have wired := run_wired ran
  refine ⟨wired, fun unfinished => ?_⟩
  obtain ⟨i, running, fed⟩ := exists_fed unfinished
  exact canMove_of_fed wired positive starts.length i (by omega) running fed

/-- A process that writes what it has pending; one that relays goes on with what it
reads then. -/
inductive Relay where
  | sending (pending : Bytes) (relays : Bool)
  | done (result : Except Failure Outcome)

namespace Relay

/-- After a read: nothing is left to do where the input has ended. -/
def received : Except IoError Bytes → Relay
  | .ok [] => .done (.ok .proceed)
  | .ok (b :: bs) => .sending (b :: bs) true
  | .error e => .done (.error (.io e))

/-- After a write: a failure is the end. -/
def wrote (rest : Bytes) (relays : Bool) : Option IoError → Relay
  | none => .sending rest relays
  | some e => .done (.error (.io e))

/-- It reads two bytes at most. -/
def move : Relay → Move Relay
  | .sending [] false => .stop (.ok .proceed)
  | .sending [] true => .read 2 (by decide) received
  | .sending (b :: bs) relays => .write b (wrote bs relays)
  | .done result => .stop result

end Relay

/-- A stage with two bytes to write, one that fails at once, and one that relays. -/
def failingMiddle : List Relay :=
  [.sending [97, 98] false, .done (.error (.commandNotFound "nosuch")), .sending [] true]

/-- Between a stage that waits for room and one that waits for input, a stage that
fails before it reads anything can move. -/
theorem failing_stage_can_move :
    ∃ m, run Relay.move {} (fun _ => 1) (wire failingMiddle .empty {}) [(0, 0)] = some m ∧
      (∀ n, step Relay.move {} (fun _ => 1) m 0 n = none) ∧
      (∀ n, step Relay.move {} (fun _ => 1) m 2 n = none) ∧
      ∃ i, m.Running i ∧ ∃ n, (step Relay.move {} (fun _ => 1) m i n).isSome := by
  refine ⟨_, rfl, fun n => rfl, fun n => ?_, ?_⟩
  · simp [step, Machine.put, wire, wireFrom, failingMiddle, Relay.move, Machine.read,
      Machine.hasWriter]
  · have free := some_stage_can_move Relay.move {} (fun _ => 1) (fun _ => by decide) failingMiddle
      .empty {} [(0, 0)] _ rfl
    exact free.2 ⟨0, _, rfl, rfl⟩

end LineShell.PipeMachine
