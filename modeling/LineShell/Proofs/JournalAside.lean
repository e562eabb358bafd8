import LineShell.Proofs.EvaluationAgreement

/-! Runs that differ in the journal only. No command reads the journal, so two
commands can be told to do the same even if they write different records. On
outputs that can always be flushed a flush is such a difference, too. -/
namespace LineShell.JournalAside
open StepAgreement SessionBonds ApplicationAgreement EvaluationAgreement

variable {ε α β : Type}

/-- The sessions are the same, the journal aside. -/
def EqualButJournal (s t : Session) : Prop := ∃ journal, s = { t with journal }

/-- Neither run ends, or both do with the same result in the same session, the
journal aside. -/
def EndAlike (left right : Option (Except ε α × Session)) : Prop :=
  Option.Rel (fun left right => left.1 = right.1 ∧ EqualButJournal left.2 right.2) left right

/-- An output that can be flushed. It takes everything, unless a reader that goes
away is allowed for, and may be a file only where files are allowed for. -/
def Smooth (May : Trouble → Prop) (Files : Prop) : Sink → Prop
  | .outlet p => p.flushFails = false ∧ (May .gone ∨ p.room = none)
  | .file _ _ => Files

/-- The same sessions, the journal aside, on streams without trouble. -/
structure Alike (May : Trouble → Prop) (Files : Prop) (s t : Session) : Prop where
  same : EqualButJournal s t
  smooth : Smooth May Files t.output
  sound : ∀ e, t.input.fault = some e → e.isBrokenPipe = true → May .gone

/-- The bond of such sessions. -/
def alike (May : Trouble → Prop) (Files : Prop) : Bond := ⟨Alike May Files, May⟩

variable {May : Trouble → Prop} {Files : Prop}

theorem smooth_flush {sink : Sink} (smooth : Smooth May Files sink) : sink.flush = none := by
  cases sink with
  | outlet p => simp [Sink.flush, Outlet.flush, smooth.1]
  | file id pos => rfl

theorem smooth_of_flush {sink : Sink} (flushes : sink.flush = none) :
    Smooth (fun _ => True) True sink := by
  cases sink with
  | outlet p => exact ⟨by simpa [Sink.flush, Outlet.flush] using flushes, .inl trivial⟩
  | file id pos => trivial

/-- A smooth output stays smooth when it is written to, and refuses nothing but
where its reader may have gone away. -/
theorem smooth_write {sink : Sink} (smooth : Smooth May Files sink) (d : Disk) (bs : Bytes) :
    Smooth May Files (sink.write d bs).2.1 ∧ ((sink.write d bs).2.2 = none ∨ May .gone) := by
  cases sink with
  | file id pos => cases pos <;> exact ⟨smooth, .inl rfl⟩
  | outlet p =>
    obtain ⟨flushes, takes⟩ := smooth
    simp only [Sink.write, Outlet.write]
    cases room : p.room with
    | none => exact ⟨⟨flushes, .inr rfl⟩, .inl rfl⟩
    | some n =>
      have may : May .gone := takes.resolve_right (by simp [room])
      exact ⟨⟨flushes, .inl may⟩, .inr may⟩

theorem alike_like (endless : May .endless) : (alike May Files).Like where
  disk := by rintro s t ⟨⟨journal, rfl⟩, -, -⟩; rfl
  cwd := by rintro s t ⟨⟨journal, rfl⟩, -, -⟩; rfl
  input := by rintro s t ⟨⟨journal, rfl⟩, -, -⟩; rfl
  fault := by
    rintro s t ⟨⟨journal, rfl⟩, -, sound⟩ e failed
    exact bears_io (sound e failed)
  setInput := by
    rintro s t ⟨⟨journal, rfl⟩, smooth, -⟩ input borne
    refine ⟨⟨journal, rfl⟩, smooth, fun e failed broken => borne e failed _ ?_⟩
    simp only [Fault.trouble?, broken, if_true]
  write := by
    rintro bs s t ⟨⟨journal, rfl⟩, smooth, sound⟩
    obtain ⟨still, refused⟩ := smooth_write smooth t.disk bs
    simp only [Act.start, Act.write, ExceptT.run]
    split
    · rename_i disk output written
      rw [written] at still
      exact .both (admits_ok ()) ⟨⟨journal, rfl⟩, still, sound⟩
    · rename_i disk output e written
      rw [written] at still refused
      have may : May .gone := refused.resolve_left (Option.some_ne_none e)
      exact .both (admits_error (bears_io fun _ => may)) ⟨⟨journal, rfl⟩, still, sound⟩
  flush := by
    rintro s t ⟨⟨journal, rfl⟩, smooth, sound⟩
    simp only [Act.start, Act.flush, ExceptT.run, smooth_flush smooth]
    exact .both (admits_ok ()) ⟨⟨journal, rfl⟩, smooth, sound⟩
  unfed := .inl endless

theorem alike_disks : DiskFree (alike May Files).Rel := by
  rintro s t ⟨⟨journal, rfl⟩, smooth, sound⟩ disk
  exact ⟨⟨journal, rfl⟩, smooth, sound⟩

theorem alike_cwds : CwdFree (alike May Files).Rel := by
  rintro s t ⟨⟨journal, rfl⟩, smooth, sound⟩ cwd
  exact ⟨⟨journal, rfl⟩, smooth, sound⟩

theorem alike_journal : JournalFree (alike May Files).Rel := by
  rintro s t ⟨⟨journal, rfl⟩, smooth, sound⟩ record
  exact ⟨⟨journal ++ [record], rfl⟩, smooth, sound⟩

theorem alike_reports : (alike May Files).Reports := by
  rintro s t ⟨⟨journal, rfl⟩, smooth, sound⟩ failure -
  exact ⟨⟨journal, rfl⟩, smooth, sound⟩

theorem smooth_unlimited : Smooth May Files .unlimited := ⟨rfl, .inr rfl⟩

theorem alike_setting (endless : May .endless) (sh : Shell) (Fit : String → Prop) :
    Setting sh Fit (alike May Files) (alike May True) where
  like := alike_like endless
  journal := alike_journal
  around := {
    collect := by
      rintro s t ⟨⟨journal, rfl⟩, -, sound⟩
      exact ⟨⟨journal, rfl⟩, smooth_unlimited, sound⟩
    leave := by
      rintro s t s' t' ⟨⟨journal, rfl⟩, smooth, -⟩ ⟨⟨journal', rfl⟩, -, sound⟩
      exact ⟨⟨journal', rfl⟩, smooth, sound⟩
    taken := by rintro s t ⟨⟨journal, rfl⟩, -, -⟩; rfl
    may := fun _ may => may }
  apps := fun app _ args =>
    run_agrees (alike_like endless) alike_disks alike_cwds alike_journal endless app args
  writes := fun _ _ _ => {
    disks := alike_disks
    redirect := by
      rintro s t ⟨⟨journal, rfl⟩, -, sound⟩ id pos
      exact ⟨⟨journal, rfl⟩, trivial, sound⟩ }

section Commands

variable (endless : May .endless) (deep : May .deep) (sh : Shell)

include endless deep

theorem alike_runs (left : Nat) :
    Runs (fun _ => True) (alike May Files) (sh.substitute left) (sh.substitute left) :=
  substitute_agrees (alike_setting endless sh _) (alike_setting endless sh _) alike_reports deep
    (fun _ _ _ _ _ _ _ _ => trivial) left

/-- No command can tell such sessions apart. -/
theorem alike_evaluateTop (command : Command) :
    (alike May Files).Agrees (sh.evaluateTop command) (sh.evaluateTop command) :=
  evaluate_agrees (alike_setting endless sh fun _ => True) (alike_setting endless sh _)
    alike_reports (alike_runs endless deep sh _) (alike_runs endless deep sh _) command fun _ _ => trivial

end Commands

/-! Steps that agree can be put for one another. -/

theorem Alike.symm {s t : Session} (rel : Alike May Files s t) : Alike May Files t s := by
  obtain ⟨⟨journal, rfl⟩, smooth, sound⟩ := rel
  exact ⟨⟨t.journal, rfl⟩, smooth, sound⟩

theorem Alike.trans {s t u : Session} (first : Alike May Files s t) (second : Alike May Files t u) :
    Alike May Files s u := by
  obtain ⟨⟨journal, rfl⟩, -, -⟩ := first
  obtain ⟨⟨journal', rfl⟩, smooth, sound⟩ := second
  exact ⟨⟨journal, rfl⟩, smooth, sound⟩

section Steps

variable [Fault ε] {act act' act'' : Act ε α}

theorem agrees_symm (agrees : (alike May Files).Agrees act act') :
    (alike May Files).Agrees act' act := by
  intro s t rel
  have ends := agrees (Alike.symm rel)
  generalize act.start t = left at ends
  generalize act'.start s = right at ends
  cases ends with
  | never may => exact .never may
  | both admitted rel' => exact .both admitted (Alike.symm rel')

theorem agrees_trans (first : (alike May Files).Agrees act act')
    (second : (alike May Files).Agrees act' act'') : (alike May Files).Agrees act act'' := by
  intro s t rel
  have here := first rel
  have there := second (Alike.trans (Alike.symm rel) rel)
  generalize act.start s = left at here
  generalize act'.start t = middle at here there
  generalize act''.start t = right at there
  cases here with
  | never may => cases there; exact .never may
  | both admitted rel' => cases there with
    | both _ rel'' => exact .both admitted (Alike.trans rel' rel'')

/-- From one session, steps that agree end alike. -/
theorem endAlike_of_agrees (agrees : (alike May Files).Agrees act act') {s : Session}
    (smooth : Smooth May Files s.output)
    (sound : ∀ e, s.input.fault = some e → e.isBrokenPipe = true → May .gone) :
    EndAlike (act.start s) (act'.start s) := by
  have ends := agrees (⟨⟨s.journal, rfl⟩, smooth, sound⟩ : Alike May Files s s)
  generalize act.start s = left at ends ⊢
  generalize act'.start s = right at ends ⊢
  cases ends with
  | never => exact .none
  | both _ rel => exact .some ⟨rfl, rel.same⟩

theorem parse_skips {line : String} {command : Command} {next : Command → Act Failure α}
    {act' : Act Failure α} (read : Command.parse line = .ok command)
    (rest : (alike May Files).Agrees (next command) act') :
    (alike May Files).Agrees (Shell.parse line >>= next) act' := by
  refine .skip (fun s t rel => ?_) rest
  obtain ⟨⟨journal, rfl⟩, smooth, sound⟩ := rel
  obtain ⟨journal', parsed⟩ := start_parse read { t with journal }
  exact ⟨_, parsed, ⟨journal', rfl⟩, smooth, sound⟩

/-- A flush changes nothing. -/
theorem Alike.start_flush {s t : Session} (rel : Alike May Files s t) :
    Act.flush.start s = some (.ok (), s) := by
  obtain ⟨⟨journal, rfl⟩, smooth, -⟩ := rel
  simp only [Act.start, Act.flush, ExceptT.run, smooth_flush smooth]

end Steps

end LineShell.JournalAside
