import LineShell.Session.Basic

/-! Steps that cannot tell two sessions apart. A relation between sessions is a
likeness when related sessions show a command the same files, directory, input
and stream failures; what else they hold may differ. A step agrees with another
when from related sessions both end with the same result in related sessions, or
neither ends. A frame is a likeness that also stands every change that a command
can make. -/
namespace LineShell.StepAgreement

variable {ε ε' α β : Type}

/-! How each way of building a step runs. -/

@[simp] theorem start_pure (a : α) (s : Session) :
    Act.start (pure a : Act ε α) s = some (.ok a, s) := rfl

@[simp] theorem start_throw (e : ε) (s : Session) :
    Act.start (throw e : Act ε α) s = some (.error e, s) := rfl

theorem start_bind (act : Act ε α) (next : α → Act ε β) (s : Session) :
    Act.start (act >>= next) s =
      match act.start s with
      | none => none
      | some (.error e, s') => some (.error e, s')
      | some (.ok a, s') => (next a).start s' := by
  change Option.bind (act.start s) (fun end' => ExceptT.bindCont next end'.1 end'.2) = _
  rcases act.start s with _ | ⟨_ | _, _⟩ <;> rfl

/-- A step and the next one end: the first fails, or both are done. -/
theorem start_bind_eq_some_iff {act : Act ε α} {next : α → Act ε β} {s s' : Session}
    {result : Except ε β} :
    Act.start (act >>= next) s = some (result, s') ↔
      (∃ e, act.start s = some (.error e, s') ∧ result = .error e) ∨
        ∃ a s₁, act.start s = some (.ok a, s₁) ∧ (next a).start s₁ = some (result, s') := by
  rw [start_bind]
  generalize act.start s = first
  constructor
  · intro ran
    rcases first with _ | ⟨e | a, s₁⟩
    · cases ran
    · cases ran
      exact .inl ⟨e, rfl, rfl⟩
    · exact .inr ⟨a, s₁, rfl, ran⟩
  · rintro (⟨e, first, rfl⟩ | ⟨a, s₁, first, later⟩)
    · rw [first]
    · rw [first]
      exact later

theorem start_map (f : α → β) (act : Act ε α) (s : Session) :
    Act.start (f <$> act) s = (act.start s).map fun end' => (end'.1.map f, end'.2) := by
  rw [← bind_pure_comp, start_bind]
  rcases act.start s with _ | ⟨_ | _, _⟩ <;> rfl

@[simp] theorem start_ofExcept (result : Except ε α) (s : Session) :
    (Act.ofExcept result).start s = some (result, s) := rfl

@[simp] theorem start_view (f : Session → α) (s : Session) :
    (Act.view f : Act ε α).start s = some (.ok (f s), s) := rfl

@[simp] theorem start_resolve (path : String) (s : Session) :
    (Act.resolve path : Act ε Place).start s = some (.ok (Path.resolve s.cwd path), s) := rfl

@[simp] theorem start_change (f : Session → Session) (s : Session) :
    (Act.change f : Act ε Unit).start s = some (.ok (), f s) := rfl

@[simp] theorem start_note (level : Level) (text : String) (s : Session) :
    (Act.note level text : Act ε Unit).start s =
      some (.ok (), { s with journal := s.journal ++ [⟨level, text⟩] }) := rfl

@[simp] theorem start_report (f : Failure) (s : Session) :
    (Act.report f : Act ε Unit).start s =
      some (.ok (), { s with
        journal := s.journal ++ [⟨.warn, f.message⟩], reports := s.reports ++ [f] }) := rfl

theorem start_attempt (act : Act ε α) (s : Session) :
    (Act.attempt act : Act ε' (Except ε α)).start s =
      (act.start s).map fun end' => (.ok end'.1, end'.2) := rfl

theorem start_mapError (f : ε → ε') (act : Act ε α) (s : Session) :
    (Act.mapError f act).start s = (act.start s).map fun end' => (end'.1.mapError f, end'.2) := by
  change Option.bind (act.start s) (fun end' => some (end'.1.mapError f, end'.2)) = _
  rcases act.start s with _ | _ <;> rfl

theorem start_withInput (input : Source) (act : Act ε α) (s : Session) :
    (Act.withInput input act).start s =
      (act.start { s with input }).map fun end' => (end'.1, { end'.2 with input := s.input }) := rfl

theorem start_withOutput (output : Sink) (act : Act ε α) (s : Session) :
    (Act.withOutput output act).start s =
      (act.start { s with output }).map fun end' =>
        (end'.1, { end'.2 with output := s.output }) := rfl

theorem start_collect (act : Act ε α) (s : Session) :
    (Act.collect act : Act ε' (Except ε α × Bytes)).start s =
      (act.start { s with output := .unlimited }).map fun end' =>
        (.ok (end'.1, end'.2.output.taken), { end'.2 with output := s.output }) := rfl

theorem start_onDisk (wrap : IoError → ε) (f : Disk → Except IoError Disk) (s : Session) :
    (Act.onDisk wrap f).start s =
      match f s.disk with
      | .ok d => some (.ok (), { s with disk := d })
      | .error e => some (.error (wrap e), s) := rfl

theorem start_read (n : Nat) (s : Session) :
    (Act.read n).start s =
      some ((s.input.read s.disk n).1, { s with input := (s.input.read s.disk n).2 }) := rfl

theorem start_readAll (s : Session) :
    Act.readAll.start s =
      some ((s.input.drain s.disk).1, { s with input := (s.input.drain s.disk).2 }) := rfl

/-- From related sessions both steps end with the same result in related
sessions, or neither ends. -/
def Agrees (R : Session → Session → Prop) (act act' : Act ε α) : Prop :=
  ∀ ⦃s t⦄, R s t →
    Option.Rel (fun left right => left.1 = right.1 ∧ R left.2 right.2) (act.start s) (act'.start t)

/-- Related sessions show commands the same, and stay related when both read the
same, get the same input, or write or flush. -/
structure Likeness (R : Session → Session → Prop) : Prop where
  disk : ∀ ⦃s t⦄, R s t → s.disk = t.disk
  cwd : ∀ ⦃s t⦄, R s t → s.cwd = t.cwd
  input : ∀ ⦃s t⦄, R s t → s.input = t.input
  setInput : ∀ ⦃s t⦄, R s t → ∀ input, R { s with input } { t with input }
  write : ∀ bs, Agrees R (Act.write bs) (Act.write bs)
  flush : Agrees R Act.flush Act.flush

/-- Related sessions stay related on any other disk that both get. -/
def DiskFree (R : Session → Session → Prop) : Prop :=
  ∀ ⦃s t⦄, R s t → ∀ disk, R { s with disk } { t with disk }

/-- Related sessions stay related in any other directory that both enter. -/
def CwdFree (R : Session → Session → Prop) : Prop :=
  ∀ ⦃s t⦄, R s t → ∀ cwd, R { s with cwd } { t with cwd }

/-- Related sessions stay related when both add a record to the journal. -/
def JournalFree (R : Session → Session → Prop) : Prop :=
  ∀ ⦃s t⦄, R s t → ∀ record,
    R { s with journal := s.journal ++ [record] } { t with journal := t.journal ++ [record] }

/-- Related sessions stay related when both report a failure. -/
def ReportFree (R : Session → Session → Prop) : Prop :=
  ∀ ⦃s t⦄, R s t → ∀ failure,
    R { s with reports := s.reports ++ [failure] } { t with reports := t.reports ++ [failure] }

/-- Related sessions have the same written, and stay related on any other output
that both get, and when each gets its own one back. -/
structure OutputFree (R : Session → Session → Prop) : Prop where
  taken : ∀ ⦃s t⦄, R s t → s.output.taken = t.output.taken
  replace : ∀ ⦃s t⦄, R s t → ∀ output, R { s with output } { t with output }
  restore : ∀ ⦃s t s' t'⦄, R s t → R s' t' →
    R { s' with output := s.output } { t' with output := t.output }

/-- A relation that no command can see through or break, reports apart. -/
structure Frame (R : Session → Session → Prop) : Prop where
  like : Likeness R
  disks : DiskFree R
  cwds : CwdFree R
  journal : JournalFree R
  outputs : OutputFree R

/-- What two agreeing steps come to, taken up by steps of any kind. -/
theorem Agrees.attempt_bind {R : Session → Session → Prop} {act act' : Act ε α} {ε₁ ε₂ γ δ : Type}
    {S : Except ε₁ γ × Session → Except ε₂ δ × Session → Prop}
    {k : Except ε α → Act ε₁ γ} {k' : Except ε α → Act ε₂ δ} {s t : Session}
    (agrees : Agrees R act act') (rel : R s t)
    (rest : ∀ result s' t', act.start s = some (result, s') → R s' t' →
      Option.Rel S ((k result).start s') ((k' result).start t')) :
    Option.Rel S ((Act.attempt act >>= k).start s) ((Act.attempt act' >>= k').start t) := by
  rw [start_bind, start_bind, start_attempt, start_attempt]
  have ends := agrees rel
  generalize act.start s = left at ends rest
  generalize act'.start t = right at ends
  cases ends with
  | none => exact .none
  | @some left right related =>
    obtain ⟨result, s'⟩ := left
    obtain ⟨result', t'⟩ := right
    obtain ⟨rfl, rel'⟩ := related
    exact rest result s' t' rfl rel'

end LineShell.StepAgreement
