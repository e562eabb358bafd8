import LineShell.Proofs.EvaluationAgreement

/-! Runs that only read, in turn. Where no application writes files and no token has
the sign for an output, nothing that a command does can reach the disk or the
current directory: whatever substitutions give and wildcards find are words by
then, and signs are looked for in tokens only. So the command ends, and from
sessions that look the same it has the same effect. -/
namespace LineShell.ReadOnlyRuns
open StepAgreement SessionBonds ApplicationAgreement EvaluationAgreement TokenRegions

/-- A token that no sign for an output can stand in. -/
def Unsigned (token : String) : Prop := '>' ∉ token.toList

/-- Outlets that take and refuse the same, whatever they took before. -/
structure SameKind (p q : Outlet) : Prop where
  room : p.room = q.room
  flushFails : p.flushFails = q.flushFails
  broken : p.broken = q.broken

/-- An outlet that has taken some bytes more. -/
def grown (p : Outlet) (bs : Bytes) : Outlet :=
  { p with taken := p.taken ++ bs, room := p.room.map (· - bs.length) }

/-- The sessions of two runs from sessions `left` and `right`: on the disk and in
the directory of `left`, with the same written and reported since. -/
structure Parallel (left right s t : Session) : Prop where
  disks : s.disk = left.disk ∧ t.disk = left.disk
  cwds : s.cwd = left.cwd ∧ t.cwd = left.cwd
  input : s.input = t.input
  outputs : ∃ p q written, left.output = .outlet p ∧ right.output = .outlet q ∧ SameKind p q ∧
    s.output = .outlet (grown p written) ∧ t.output = .outlet (grown q written)
  reports : ∃ new, s.reports = left.reports ++ new ∧ t.reports = right.reports ++ new

/-- The bond of such sessions. Both runs end. -/
def parallel (left right : Session) : Bond :=
  ⟨Parallel left right, fun trouble => trouble ≠ .endless⟩

/-- The session on an output of its own. -/
def apart (s : Session) : Session := { s with output := .unlimited }

variable {left right : Session}

/-! Outlets of one kind. -/

@[simp] theorem grown_nil (p : Outlet) : grown p [] = p := by
  obtain ⟨taken, _ | room, _, _⟩ := p <;> simp [grown]

@[simp] theorem grown_grown (p : Outlet) (bs more : Bytes) :
    grown (grown p bs) more = grown p (bs ++ more) := by
  obtain ⟨taken, _ | room, _, _⟩ := p
  · simp [grown]
  · simp [grown, Nat.sub_sub]

theorem SameKind.grown {p q : Outlet} (kind : SameKind p q) (bs : Bytes) :
    SameKind (grown p bs) (grown q bs) where
  room := congrArg (Option.map (· - bs.length)) kind.room
  flushFails := kind.flushFails
  broken := kind.broken

/-- Outlets of one kind take the same bytes and refuse the same. -/
theorem SameKind.write {p q : Outlet} (kind : SameKind p q) (bs : Bytes) :
    ∃ fits, (p.write bs).1 = ReadOnlyRuns.grown p fits ∧
      (q.write bs).1 = ReadOnlyRuns.grown q fits ∧ (p.write bs).2 = (q.write bs).2 := by
  obtain ⟨taken, room, flushFails, broken⟩ := p
  obtain ⟨taken', room', flushFails', broken'⟩ := q
  obtain ⟨rfl, rfl, rfl⟩ : room = room' ∧ flushFails = flushFails' ∧ broken = broken' :=
    ⟨kind.room, kind.flushFails, kind.broken⟩
  cases room with
  | none => exact ⟨bs, rfl, rfl, rfl⟩
  | some n => exact ⟨bs.take n, rfl, rfl, rfl⟩

theorem SameKind.flush {p q : Outlet} (kind : SameKind p q) : p.flush = q.flush := by
  simp only [Outlet.flush, kind.flushFails, kind.broken]

theorem write_agrees (bs : Bytes) :
    (parallel left right).Agrees (Act.write bs) (Act.write bs) := by
  intro s t rel
  obtain ⟨p, q, written, outL, outR, kind, outS, outT⟩ := rel.outputs
  obtain ⟨fits, fitsS, fitsT, same⟩ := (kind.grown written).write bs
  rw [grown_grown] at fitsS fitsT
  have rel' : Parallel left right { s with output := .outlet ((grown p written).write bs).1 }
      { t with output := .outlet ((grown q written).write bs).1 } :=
    { rel with outputs := ⟨p, q, written ++ fits, outL, outR, kind, congrArg Sink.outlet fitsS,
        congrArg Sink.outlet fitsT⟩ }
  simp only [Act.start, Act.write, ExceptT.run, outS, outT, Sink.write]
  rw [← same]
  cases ((grown p written).write bs).2 with
  | none => exact .both (admits_ok ()) rel'
  | some e => exact .both (admits_error (bears_io fun _ => Trouble.noConfusion)) rel'

theorem flush_agrees : (parallel left right).Agrees Act.flush Act.flush := by
  intro s t rel
  obtain ⟨p, q, written, -, -, kind, outS, outT⟩ := rel.outputs
  simp only [Act.start, Act.flush, ExceptT.run, outS, outT, Sink.flush, ← (kind.grown written).flush]
  cases (grown p written).flush with
  | none => exact .both (admits_ok ()) rel
  | some e => exact .both (admits_error (bears_io fun _ => Trouble.noConfusion)) rel

/-! The setting of such runs. -/

theorem parallel_like : (parallel left right).Like where
  disk := fun _ _ rel => rel.disks.1.trans rel.disks.2.symm
  cwd := fun _ _ rel => rel.cwds.1.trans rel.cwds.2.symm
  input := fun _ _ rel => rel.input
  fault := fun _ _ _ _ _ => bears_io fun _ => Trouble.noConfusion
  setInput := fun _ _ rel _ _ => { rel with input := rfl }
  write := write_agrees
  flush := flush_agrees
  unfed := .inr fun _ _ rel => by
    obtain ⟨p, -, written, -, -, -, output, -⟩ := rel.outputs
    exact ⟨grown p written, output⟩

theorem parallel_journal : JournalFree (parallel left right).Rel := fun _ _ rel _ => { rel with }

theorem Parallel.report {s t : Session} (rel : Parallel left right s t) (failure : Failure) :
    Parallel left right { s with reports := s.reports ++ [failure] }
      { t with reports := t.reports ++ [failure] } := by
  obtain ⟨new, inS, inT⟩ := rel.reports
  exact { rel with reports := ⟨new ++ [failure], by simp [inS], by simp [inT]⟩ }

theorem parallel_reports : (parallel left right).Reports :=
  fun _ _ rel failure _ => Parallel.report rel failure

/-- A sign for an output cannot be missed. -/
theorem not_opens_of_unsigned {token : String} (unsigned : Unsigned token) : ¬ Opens token := by
  have outputs (text : String) (signed : '>' ∈ text.toList) : token ≠ text := by
    rintro rfl
    exact unsigned signed
  simp [Opens, Token.redirect?, outputs ">" (by decide), outputs ">>" (by decide)]

theorem parallel_setting {sh : Shell} (onlyReaders : ∀ app ∈ sh.applications, app ∈ readers) :
    Setting sh Unsigned (parallel left right) (parallel (apart left) (apart right)) where
  like := parallel_like
  journal := parallel_journal
  around := {
    collect := fun _ _ rel => { rel with
      outputs := ⟨{}, {}, [], rfl, rfl, ⟨rfl, rfl, rfl⟩, by rw [grown_nil]; rfl,
        by rw [grown_nil]; rfl⟩ }
    leave := fun _ _ _ _ rel rel' => { rel' with outputs := rel.outputs }
    taken := fun s t rel => by
      obtain ⟨p, q, written, outL, outR, -, outS, outT⟩ := rel.outputs
      cases outL
      cases outR
      rw [outS, outT]
    may := fun _ may => may }
  apps := fun app member args => reader_agrees parallel_like (onlyReaders app member) args
  writes := fun _ unsigned opens => absurd opens (not_opens_of_unsigned unsigned)

/-- The commands in the back quotes of a token without the sign are without it,
too. -/
theorem unsigned_closed (token : String) (unsigned : Unsigned token) (text : String)
    (member : text ∈ regions token) (command : Command) (read : Command.parse text = .ok command) :
    ∀ token ∈ tokensOf command, Unsigned token :=
  fun _ held signed => unsigned (mem_of_mem_region member (mem_line_of_mem_token read held signed))

theorem evaluateTop_parallel {sh : Shell} (onlyReaders : ∀ app ∈ sh.applications, app ∈ readers)
    {command : Command} (unsigned : ∀ token ∈ tokensOf command, Unsigned token) :
    (parallel left right).Agrees (sh.evaluateTop command) (sh.evaluateTop command) := by
  have outside : Setting sh Unsigned (parallel left right) _ := parallel_setting onlyReaders
  have inside : Setting sh Unsigned (parallel (apart left) (apart right)) _ :=
    parallel_setting onlyReaders
  have runs := substitute_agrees outside inside parallel_reports Trouble.noConfusion unsigned_closed
  have innerRuns := substitute_agrees inside inside parallel_reports Trouble.noConfusion
    unsigned_closed
  exact evaluate_agrees outside inside parallel_reports (runs _) (innerRuns _) command unsigned

/-- A session looks like itself and like others on its disk, in its directory, with its input
and an outlet of the same kind. -/
theorem parallel_start {s t : Session} {p q : Outlet} (disk : t.disk = s.disk) (cwd : t.cwd = s.cwd)
    (input : t.input = s.input) (outputS : s.output = .outlet p) (outputT : t.output = .outlet q)
    (kind : SameKind p q) : Parallel s t s t where
  disks := ⟨rfl, disk⟩
  cwds := ⟨rfl, cwd⟩
  input := input.symm
  outputs := ⟨p, q, [], outputS, outputT, kind, by rw [grown_nil, outputS],
    by rw [grown_nil, outputT]⟩
  reports := ⟨[], by simp⟩

end LineShell.ReadOnlyRuns
