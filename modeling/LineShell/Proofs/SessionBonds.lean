import LineShell.Proofs.StepAgreement

/-! Bonds between the sessions of two runs. A bond says how the sessions are
related and which troubles may be met; two steps agree in a bond when from
related sessions both end with the same result in related sessions, and neither
meets a trouble that the bond rules out. Everything that commands are built from
keeps agreement, so what a bond promises holds of whole commands. A bond of
sessions with themselves is an invariant of a single run. -/
namespace LineShell.SessionBonds
open StepAgreement

/-- What a run may be promised never to meet. -/
inductive Trouble where
  /-- The reader of a stream has gone away. -/
  | gone
  /-- A substitution stands inside as many others as are allowed. -/
  | deep
  /-- The run does not end. -/
  | endless
  deriving DecidableEq

/-- Errors, with the trouble that an error tells of. -/
class Fault (ε : Type) where
  trouble? : ε → Option Trouble

instance : Fault IoError := ⟨fun e => if e.isBrokenPipe then some .gone else none⟩

instance : Fault Complaint := ⟨fun c => if c.isBrokenPipe then some .gone else none⟩

instance : Fault Failure where
  trouble?
    | .tooDeep _ => some .deep
    | f => if f.isBrokenPipe then some .gone else none

/-- How the sessions of two runs are related, and what the runs may meet. -/
structure Bond where
  Rel : Session → Session → Prop
  May : Trouble → Prop

variable {ε ε' α β : Type} [Fault ε] [Fault ε']

namespace Bond

/-- The error tells of no trouble that the bond rules out. -/
def Bears (K : Bond) (e : ε) : Prop := ∀ trouble, Fault.trouble? e = some trouble → K.May trouble

/-- The result is no error that the bond rules out. -/
def Admits (K : Bond) (result : Except ε α) : Prop := ∀ e, result = .error e → K.Bears e

/-- How two runs may end together. -/
inductive Ends (K : Bond) :
    Option (Except ε α × Session) → Option (Except ε α × Session) → Prop where
  | never (may : K.May .endless) : Ends K none none
  | both {result s t} (admitted : K.Admits result) (rel : K.Rel s t) :
      Ends K (some (result, s)) (some (result, t))

/-- From related sessions both steps end with the same result in related
sessions, or neither ends; what they meet is what the bond allows. -/
def Agrees (K : Bond) (act act' : Act ε α) : Prop :=
  ∀ ⦃s t⦄, K.Rel s t → K.Ends (act.start s) (act'.start t)

/-- Related sessions show commands the same, and stay related when both read on
or get the same input. -/
structure Look (K : Bond) : Prop where
  disk : ∀ ⦃s t⦄, K.Rel s t → s.disk = t.disk
  cwd : ∀ ⦃s t⦄, K.Rel s t → s.cwd = t.cwd
  input : ∀ ⦃s t⦄, K.Rel s t → s.input = t.input
  fault : ∀ ⦃s t⦄, K.Rel s t → ∀ e, s.input.fault = some e → K.Bears e
  setInput : ∀ ⦃s t⦄, K.Rel s t → ∀ input : Source, (∀ e, input.fault = some e → K.Bears e) →
    K.Rel { s with input } { t with input }

/-- Related sessions have the same to read from their inputs, whatever else their
disks show, and stay related when both read on or get the same input, if it is
safe for them. -/
structure Feeds (K : Bond) (Safe : Source → Prop) : Prop where
  input : ∀ ⦃s t⦄, K.Rel s t → s.input = t.input
  held : ∀ ⦃s t⦄, K.Rel s t → s.input.held s.disk = t.input.held t.disk
  fault : ∀ ⦃s t⦄, K.Rel s t → ∀ e, s.input.fault = some e → K.Bears e
  safe : ∀ ⦃s t⦄, K.Rel s t → Safe s.input
  skip : ∀ source, Safe source → ∀ n, Safe (source.skip n)
  setInput : ∀ ⦃s t⦄, K.Rel s t → ∀ input : Source, Safe input →
    (∀ e, input.fault = some e → K.Bears e) → K.Rel { s with input } { t with input }

theorem Look.feeds {K : Bond} (look : K.Look) : K.Feeds fun _ => True where
  input := look.input
  held := fun _ _ rel => by rw [look.disk rel, look.input rel]
  fault := look.fault
  safe := fun _ _ _ => trivial
  skip := fun _ _ _ => trivial
  setInput := fun _ _ rel input _ borne => look.setInput rel input borne

/-- Sessions that look the same stay related when both write or flush, too. Where
every run has to end, no command writes to a file that it may be reading. -/
structure Like (K : Bond) : Prop extends K.Look where
  write : ∀ bs, K.Agrees (Act.write bs) (Act.write bs)
  flush : K.Agrees Act.flush Act.flush
  unfed : K.May .endless ∨ ∀ ⦃s t⦄, K.Rel s t → ∃ p, s.output = .outlet p

/-- What runs on an output of its own is bound by `inner`, and the sessions are
related again when they have their own outputs back. -/
structure Around (K inner : Bond) : Prop where
  collect : ∀ ⦃s t⦄, K.Rel s t →
    inner.Rel { s with output := .unlimited } { t with output := .unlimited }
  leave : ∀ ⦃s t s' t'⦄, K.Rel s t → inner.Rel s' t' →
    K.Rel { s' with output := s.output } { t' with output := t.output }
  taken : ∀ ⦃s t⦄, inner.Rel s t → s.output.taken = t.output.taken
  may : ∀ trouble, inner.May trouble → K.May trouble

/-- Commands may change files, and then also write to one in place of their
output. -/
structure Writes (K inner : Bond) : Prop where
  disks : DiskFree K.Rel
  redirect : ∀ ⦃s t⦄, K.Rel s t → ∀ id pos,
    inner.Rel { s with output := .file id pos } { t with output := .file id pos }

/-- Related sessions stay related when both report a failure that the bond
allows. -/
def Reports (K : Bond) : Prop :=
  ∀ ⦃s t⦄, K.Rel s t → ∀ failure : Failure, K.Bears failure →
    K.Rel { s with reports := s.reports ++ [failure] } { t with reports := t.reports ++ [failure] }

/-- The bond of a relation that rules out nothing. -/
def free (R : Session → Session → Prop) : Bond := ⟨R, fun _ => True⟩

end Bond

variable {K inner : Bond} {act act' : Act ε α} {next next' : α → Act ε β}

theorem bears_of_calm {e : ε} (calm : Fault.trouble? e = none) : K.Bears e := by
  intro trouble told
  rw [calm] at told
  cases told

theorem admits_ok (a : α) : K.Admits (.ok a : Except ε α) := nofun

theorem admits_error {e : ε} (borne : K.Bears e) : K.Admits (.error e : Except ε α) := by
  rintro _ ⟨⟩
  exact borne

/-- A stream fails because its reader has gone away, or for no reason of ours. -/
theorem bears_io {e : IoError} (gone : e.isBrokenPipe = true → K.May .gone) : K.Bears e := by
  intro trouble told
  simp only [Fault.trouble?] at told
  split at told <;> cases told
  exact gone (by assumption)

/-- A value that a step can end with, whatever session it starts from. -/
def Gives {ε α : Type} (act : Act ε α) (a : α) : Prop :=
  ∃ s s', act.start s = some (.ok a, s')

omit [Fault ε] in
theorem gives_pure {a b : α} (given : Gives (pure a : Act ε α) b) : b = a := by
  obtain ⟨s, s', ran⟩ := given
  cases ran
  rfl

omit [Fault ε] in
theorem not_gives_throw {e : ε} {a : α} : ¬ Gives (throw e : Act ε α) a := by
  rintro ⟨s, s', ran⟩
  cases ran

omit [Fault ε] in
theorem gives_bind {b : β} (given : Gives (act >>= next) b) :
    ∃ a, Gives act a ∧ Gives (next a) b := by
  obtain ⟨s, s', ran⟩ := given
  rcases start_bind_eq_some_iff.mp ran with ⟨e, -, failed⟩ | ⟨a, s₁, first, later⟩
  · cases failed
  · exact ⟨a, ⟨s, s₁, first⟩, s₁, s', later⟩

omit [Fault ε] [Fault ε'] in
theorem attempt_given {a : α} (given : Gives (Act.attempt act : Act ε' (Except ε α)) (.ok a)) :
    Gives act a := by
  obtain ⟨s, s', ran⟩ := given
  rw [start_attempt, Option.map_eq_some_iff] at ran
  obtain ⟨⟨result, t⟩, ran, same⟩ := ran
  cases same
  exact ⟨s, t, ran⟩

/-- From related sessions a step ends with values of one kind only. -/
def Bond.Yields {ε α : Type} (K : Bond) (Kind : α → Prop) (act : Act ε α) : Prop :=
  ∀ ⦃s t⦄, K.Rel s t → ∀ a s', act.start s = some (.ok a, s') → Kind a

namespace Bond.Agrees

theorem pure (a : α) : K.Agrees (Pure.pure a : Act ε α) (Pure.pure a) :=
  fun _ _ rel => .both (admits_ok a) rel

theorem ofExcept {result : Except ε α} (admitted : K.Admits result) :
    K.Agrees (Act.ofExcept result) (Act.ofExcept result) :=
  fun _ _ rel => .both admitted rel

theorem throw_borne {e : ε} (borne : K.Bears e) :
    K.Agrees (MonadExcept.throw e : Act ε α) (MonadExcept.throw e) :=
  fun _ _ rel => .both (admits_error borne) rel

theorem throw {e : ε} (calm : Fault.trouble? e = none) :
    K.Agrees (MonadExcept.throw e : Act ε α) (MonadExcept.throw e) :=
  throw_borne (bears_of_calm calm)

/-- What comes next has to agree for the values only that come up. -/
theorem bind_yields {Kind : α → Prop} (first : K.Agrees act act') (yields : K.Yields Kind act)
    (rest : ∀ a, Kind a → K.Agrees (next a) (next' a)) :
    K.Agrees (act >>= next) (act' >>= next') := by
  intro s t rel
  rw [start_bind, start_bind]
  have ends := first rel
  generalize ran : act.start s = left at ends
  generalize act'.start t = right at ends
  cases ends with
  | never may => exact .never may
  | @both result s' t' admitted rel' =>
    cases result with
    | error e => exact .both (admits_error (admitted e rfl)) rel'
    | ok a => exact rest a (yields rel a s' ran) rel'

theorem bind_given (first : K.Agrees act act')
    (rest : ∀ a, Gives act a → K.Agrees (next a) (next' a)) :
    K.Agrees (act >>= next) (act' >>= next') :=
  bind_yields first (fun s _ _ _ s' ran => ⟨s, s', ran⟩) rest

theorem bind (first : K.Agrees act act') (rest : ∀ a, K.Agrees (next a) (next' a)) :
    K.Agrees (act >>= next) (act' >>= next') :=
  bind_given first fun a _ => rest a

/-- A step that one run alone takes, and that changes nothing for the bond. -/
theorem skip {first : Act ε β} {next : β → Act ε α} {b : β}
    (steps : ∀ ⦃s t⦄, K.Rel s t → ∃ s', first.start s = some (.ok b, s') ∧ K.Rel s' t)
    (rest : K.Agrees (next b) act') : K.Agrees (first >>= next) act' := by
  intro s t rel
  obtain ⟨s', stepped, rel'⟩ := steps rel
  rw [start_bind, stepped]
  exact rest rel'

/-- After an error it does not matter what would come next. -/
theorem throw_bind {e : ε} (borne : K.Bears e) :
    K.Agrees ((MonadExcept.throw e : Act ε α) >>= next)
      ((MonadExcept.throw e : Act ε α) >>= next') :=
  fun _ _ rel => .both (admits_error borne) rel

/-- A step that may stop with an error before it goes on. -/
theorem guard {γ : Type} {c : Prop} [Decidable c] {e : ε} {k k' : γ → Act ε α}
    (calm : Fault.trouble? e = none) (goesOn : K.Agrees act act') :
    K.Agrees (if c then (MonadExcept.throw e : Act ε γ) >>= k else act)
      (if c then (MonadExcept.throw e : Act ε γ) >>= k' else act') := by
  split
  · exact throw_bind (bears_of_calm calm)
  · exact goesOn

theorem ite {c : Prop} [Decidable c] {other other' : Act ε α} (yes : K.Agrees act act')
    (no : K.Agrees other other') :
    K.Agrees (if c then act else other) (if c then act' else other') := by
  split
  · exact yes
  · exact no

/-- The ends of two agreeing steps, passed through functions that keep what is
related. The steps may be bound otherwise than their ends. -/
theorem map_ends {f g : Except ε α × Session → Except ε' β × Session}
    (agrees : inner.Agrees act act') {s t : Session} (rel : inner.Rel s t)
    (may : inner.May .endless → K.May .endless)
    (keeps : ∀ result s' t', inner.Admits result → inner.Rel s' t' →
      ∃ result', K.Admits result' ∧ (f (result, s')).1 = result' ∧ (g (result, t')).1 = result' ∧
        K.Rel (f (result, s')).2 (g (result, t')).2) :
    K.Ends ((act.start s).map f) ((act'.start t).map g) := by
  have ends := agrees rel
  generalize act.start s = left at ends
  generalize act'.start t = right at ends
  cases ends with
  | never endless => exact .never (may endless)
  | @both result s' t' admitted rel' =>
    obtain ⟨result', admitted', first, second, rel''⟩ := keeps result s' t' admitted rel'
    simp only [Option.map]
    generalize f (result, s') = left at first rel''
    generalize g (result, t') = right at second rel''
    obtain ⟨_, s''⟩ := left
    obtain ⟨_, t''⟩ := right
    cases first
    cases second
    exact .both admitted' rel''

theorem attempt (agrees : K.Agrees act act') :
    K.Agrees (Act.attempt act : Act ε' (Except ε α)) (Act.attempt act') := by
  intro s t rel
  rw [start_attempt, start_attempt]
  exact map_ends agrees rel id fun result _ _ _ rel' => ⟨_, admits_ok result, rfl, rfl, rel'⟩

/-- What a step came to is a value: an error that the bond allows, or something
that the step can give. -/
theorem attempt_bind_given {k k' : Except ε α → Act ε' β} (agrees : K.Agrees act act')
    (rest : ∀ result, K.Admits result → (∀ a, result = .ok a → Gives act a) →
      K.Agrees (k result) (k' result)) :
    K.Agrees (Act.attempt act >>= k) (Act.attempt act' >>= k') := by
  intro s t rel
  rw [start_bind, start_bind, start_attempt, start_attempt]
  have ends := agrees rel
  generalize ran : act.start s = left at ends
  generalize act'.start t = right at ends
  cases ends with
  | never may => exact .never may
  | @both result s' t' admitted rel' =>
    exact rest result admitted (fun a same => ⟨s, s', by rw [ran, same]⟩) rel'

theorem attempt_bind {k k' : Except ε α → Act ε' β} (agrees : K.Agrees act act')
    (rest : ∀ result, K.Admits result → K.Agrees (k result) (k' result)) :
    K.Agrees (Act.attempt act >>= k) (Act.attempt act' >>= k') :=
  attempt_bind_given agrees fun result admitted _ => rest result admitted

theorem mapError {f : ε → ε'} (told : ∀ e, Fault.trouble? (f e) = Fault.trouble? e)
    (agrees : K.Agrees act act') :
    K.Agrees (Act.mapError f act) (Act.mapError f act') := by
  intro s t rel
  rw [start_mapError, start_mapError]
  refine map_ends agrees rel id fun result _ _ admitted rel' => ⟨_, ?_, rfl, rfl, rel'⟩
  cases result with
  | ok a => exact admits_ok a
  | error e =>
    refine admits_error fun trouble known => admitted e rfl trouble ?_
    rw [← told e]
    exact known

/-- A look at the session agrees where both sessions show the same. -/
theorem view {f : Session → α} (same : ∀ ⦃s t⦄, K.Rel s t → f s = f t) :
    K.Agrees (Act.view f : Act ε α) (Act.view f) := by
  intro s t rel
  rw [start_view, start_view, same rel]
  exact .both (admits_ok _) rel

/-- A look at the whole session is allowed to a step that goes by the disk and
the directory alone. -/
theorem view_session (look : K.Look) {k : Session → Act ε β}
    (blind : ∀ s, k s = k { disk := s.disk, cwd := s.cwd }) (rest : ∀ s, K.Agrees (k s) (k s)) :
    K.Agrees (Act.view (fun s => s) >>= k) (Act.view (fun s => s) >>= k) := by
  intro s t rel
  simp only [start_bind, start_view]
  rw [blind s, blind t, look.disk rel, look.cwd rel]
  exact rest _ rel

theorem change {f : Session → Session} (keeps : ∀ ⦃s t⦄, K.Rel s t → K.Rel (f s) (f t)) :
    K.Agrees (Act.change f : Act ε Unit) (Act.change f) :=
  fun _ _ rel => .both (admits_ok ()) (keeps rel)

theorem note (journal : JournalFree K.Rel) (level : Level) (text : String) :
    K.Agrees (Act.note level text : Act ε Unit) (Act.note level text) :=
  change fun _ _ rel => journal rel _

theorem report (journal : JournalFree K.Rel) (reports : K.Reports) {failure : Failure}
    (borne : K.Bears failure) :
    K.Agrees (Act.report failure : Act ε Unit) (Act.report failure) :=
  bind (note journal _ _) fun _ => change fun _ _ rel => reports rel failure borne

theorem onDisk (look : K.Look) (disks : DiskFree K.Rel) {wrap : IoError → ε}
    {f : Disk → Except IoError Disk} (borne : ∀ d e, f d = .error e → K.Bears (wrap e)) :
    K.Agrees (Act.onDisk wrap f) (Act.onDisk wrap f) := by
  intro s t rel
  simp only [Act.start, ExceptT.run, Act.onDisk, look.disk rel]
  cases tried : f t.disk with
  | ok d => exact .both (admits_ok ()) (disks rel d)
  | error e => exact .both (admits_error (borne _ e tried)) rel

theorem resolve (look : K.Look) (path : String) :
    K.Agrees (Act.resolve path : Act ε Place) (Act.resolve path) :=
  view fun _ _ rel => by rw [look.cwd rel]

end Bond.Agrees

/-- Reading on leaves the failure at the end as it is. -/
theorem fault_skip (n : Nat) (source : Source) : (source.skip n).fault = source.fault := by
  cases source <;> rfl

namespace Bond.Agrees

variable {Safe : Source → Prop}

theorem read (feeds : K.Feeds Safe) (n : Nat) : K.Agrees (Act.read n) (Act.read n) := by
  intro s t rel
  have same : s.input.read s.disk n = t.input.read t.disk n := by
    rw [← feeds.input rel]
    simp only [Source.read, feeds.held rel, ← feeds.input rel]
  have fault := feeds.fault rel
  rw [start_read, start_read, ← same]
  unfold Source.read
  dsimp only
  split
  · have kept := feeds.setInput rel _ (feeds.safe rel) fault
    split
    · exact .both (admits_error (fault _ (by assumption))) kept
    · exact .both (admits_ok _) kept
  · refine .both (admits_ok _) (feeds.setInput rel _ (feeds.skip _ (feeds.safe rel) _) ?_)
    rw [fault_skip]
    exact fault

theorem readAll (feeds : K.Feeds Safe) : K.Agrees Act.readAll Act.readAll := by
  intro s t rel
  have same : s.input.drain s.disk = t.input.drain t.disk := by
    rw [← feeds.input rel]
    simp only [Source.drain, feeds.held rel, ← feeds.input rel]
  have fault := feeds.fault rel
  have later (n : Nat) :
      K.Rel { s with input := s.input.skip n } { t with input := s.input.skip n } := by
    refine feeds.setInput rel _ (feeds.skip _ (feeds.safe rel) n) ?_
    rw [fault_skip]
    exact fault
  rw [start_readAll, start_readAll, ← same]
  unfold Source.drain
  dsimp only
  split
  · exact .both (admits_error (fault _ (by assumption))) (later _)
  · exact .both (admits_ok _) (later _)

theorem withInput_safe (feeds : K.Feeds Safe) {input : Source} (safe : Safe input)
    (sound : input.fault = none) (agrees : K.Agrees act act') :
    K.Agrees (Act.withInput input act) (Act.withInput input act') := by
  intro s t rel
  rw [start_withInput, start_withInput]
  have entered : K.Rel { s with input } { t with input } :=
    feeds.setInput rel input safe fun e met => by rw [sound] at met; cases met
  refine map_ends agrees entered id fun result s' t' admitted rel' => ⟨_, admitted, rfl, rfl, ?_⟩
  rw [← feeds.input rel]
  exact feeds.setInput rel' _ (feeds.safe rel) (feeds.fault rel)

theorem withInput (look : K.Look) {input : Source} (sound : input.fault = none)
    (agrees : K.Agrees act act') :
    K.Agrees (Act.withInput input act) (Act.withInput input act') :=
  withInput_safe look.feeds trivial sound agrees

theorem admits_around (around : K.Around inner) {result : Except ε α}
    (admitted : inner.Admits result) : K.Admits result :=
  fun e failed trouble told => around.may _ (admitted e failed trouble told)

theorem withOutput (around : K.Around inner) (writes : K.Writes inner) (id : FileId)
    (pos : Option Nat) (agrees : inner.Agrees act act') :
    K.Agrees (Act.withOutput (.file id pos) act) (Act.withOutput (.file id pos) act') := by
  intro s t rel
  rw [start_withOutput, start_withOutput]
  exact map_ends agrees (writes.redirect rel id pos) (around.may _) fun _ _ _ admitted rel' =>
    ⟨_, admits_around around admitted, rfl, rfl, around.leave rel rel'⟩

theorem collect (around : K.Around inner) (agrees : inner.Agrees act act') :
    K.Agrees (Act.collect act : Act ε' (Except ε α × Bytes)) (Act.collect act') := by
  intro s t rel
  rw [start_collect, start_collect]
  refine map_ends agrees (around.collect rel) (around.may _) fun result s' t' _ rel' =>
    ⟨_, admits_ok (result, t'.output.taken), ?_, rfl, around.leave rel rel'⟩
  rw [around.taken rel']

theorem enterDir (look : K.Look) (journal : JournalFree K.Rel) (cwds : CwdFree K.Rel)
    (path : String) : K.Agrees (Act.enterDir path) (Act.enterDir path) := by
  refine bind (resolve look path) fun p =>
    bind (view fun _ _ rel => by rw [look.disk rel]) fun isDir => ?_
  split
  · exact bind (note journal _ _) fun _ => bind (change fun _ _ rel => cwds rel p) fun _ => pure p
  · exact throw rfl

end Bond.Agrees

/-! Kinds of values. -/

namespace Bond.Yields

variable {Kind : α → Prop} {Later : β → Prop}

omit [Fault ε] in
theorem pure {a : α} (kind : Kind a) : K.Yields Kind (Pure.pure a : Act ε α) := by
  rintro s t - _ _ ⟨⟩
  exact kind

omit [Fault ε'] in
/-- What a step came to holds no error that the bond rules out. -/
theorem attempt (agrees : K.Agrees act act') :
    K.Yields K.Admits (Act.attempt act : Act ε' (Except ε α)) := by
  intro s t rel result s' ran
  have ends := agrees rel
  rw [start_attempt] at ran
  generalize act.start s = left at ends ran
  generalize act'.start t = right at ends
  cases ends with
  | never => cases ran
  | both admitted =>
    cases ran
    exact admitted

omit [Fault ε'] in
theorem collect (around : K.Around inner) (agrees : inner.Agrees act act') :
    K.Yields (fun collected => K.Admits collected.1)
      (Act.collect act : Act ε' (Except ε α × Bytes)) := by
  intro s t rel collected s' ran
  have ends := agrees (around.collect rel)
  rw [start_collect] at ran
  generalize act.start { s with output := .unlimited } = left at ends ran
  generalize act'.start { t with output := .unlimited } = right at ends
  cases ends with
  | never => cases ran
  | both admitted =>
    cases ran
    exact Agrees.admits_around around admitted

theorem bind (first : K.Agrees act act') (yields : K.Yields Kind act)
    (rest : ∀ a, Kind a → K.Yields Later (next a)) : K.Yields Later (act >>= next) := by
  intro s t rel b s' ran
  rcases start_bind_eq_some_iff.mp ran with ⟨e, -, failed⟩ | ⟨a, s₁, ran, later⟩
  · cases failed
  · have ends := first rel
    have kind := yields rel a s₁ ran
    rw [ran] at ends
    generalize act'.start t = right at ends
    cases ends with
    | both _ rel' => exact rest a kind rel' b s' later

omit [Fault ε] in
theorem withInput (look : K.Look) {input : Source} (sound : input.fault = none)
    (yields : K.Yields Kind act) : K.Yields Kind (Act.withInput input act) := by
  intro s t rel a s' ran
  have entered : K.Rel { s with input } { t with input } :=
    look.setInput rel input fun e met => by rw [sound] at met; cases met
  rw [start_withInput, Option.map_eq_some_iff] at ran
  obtain ⟨⟨result, s₁⟩, ran, same⟩ := ran
  cases same
  exact yields entered a s₁ ran

end Bond.Yields

/-- What a step that was collected came to, and the same bytes of both runs. -/
theorem Bond.Agrees.collect_bind {k k' : Except ε α × Bytes → Act ε' β} (around : K.Around inner)
    (agrees : inner.Agrees act act')
    (rest : ∀ result bytes, K.Admits result → K.Agrees (k (result, bytes)) (k' (result, bytes))) :
    K.Agrees (Act.collect act >>= k) (Act.collect act' >>= k') :=
  .bind_yields (.collect around agrees) (.collect around agrees) fun (result, bytes) admitted =>
    rest result bytes admitted

/-! Bonds that rule out nothing that matters. -/

/-- Where no error and no run is ruled out, to agree in the bond is to agree in
its relation. -/
theorem agrees_iff (borne : ∀ e : ε, K.Bears e) (endless : K.May .endless) :
    K.Agrees act act' ↔ StepAgreement.Agrees K.Rel act act' := by
  constructor
  · intro agrees s t rel
    have ends := agrees rel
    generalize act.start s = left at ends ⊢
    generalize act'.start t = right at ends ⊢
    cases ends with
    | never => exact .none
    | both _ rel' => exact .some ⟨rfl, rel'⟩
  · intro agrees s t rel
    have ends := agrees rel
    generalize act.start s = left at ends ⊢
    generalize act'.start t = right at ends ⊢
    cases ends with
    | none => exact .never endless
    | @some left right related =>
      obtain ⟨_, s'⟩ := left
      obtain ⟨result, t'⟩ := right
      obtain ⟨rfl, rel'⟩ := related
      exact .both (fun e _ => borne e) rel'

theorem agrees_free_iff {R : Session → Session → Prop} :
    (Bond.free R).Agrees act act' ↔ StepAgreement.Agrees R act act' :=
  agrees_iff (fun _ _ _ => trivial) trivial

end LineShell.SessionBonds
