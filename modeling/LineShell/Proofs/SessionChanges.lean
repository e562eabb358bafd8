import LineShell.Proofs.ApplicationAgreement

/-! What steps do to their sessions. A change is a relation between the session
that a step starts from and the one that it ends in. Steps are built from a few
that touch the session, so a change that allows for these, and that can be made
twice, is all that an application makes. -/
namespace LineShell.SessionChanges
open StepAgreement SessionBonds ApplicationAgreement

/-- Wherever the step ends, this is how it has changed its session. -/
def Makes {ε α : Type} (P : Session → Session → Prop) (act : Act ε α) : Prop :=
  ∀ ⦃s result s'⦄, act.start s = some (result, s') → P s s'

/-- A change that leaves room for everything but the streams and the reports. -/
structure Quiet (P : Session → Session → Prop) : Prop where
  refl : ∀ s, P s s
  trans : ∀ ⦃s t u⦄, P s t → P t u → P s u
  disk : ∀ s disk, P s { s with disk }
  cwd : ∀ s cwd, P s { s with cwd }
  journal : ∀ s record, P s { s with journal := s.journal ++ [record] }

/-- A change that leaves room for reading and writing, too. -/
structure Streaming (P : Session → Session → Prop) : Prop extends Quiet P where
  read : ∀ s n, P s { s with input := s.input.skip n }
  write : ∀ s bs, P s { s with output := (s.output.write s.disk bs).2.1 }
  withInput : ∀ s t input, P { s with input } t → P s { t with input := s.input }

/-- A change that leaves room for what applications do with their streams as a
whole: to read all that is left of the input, to copy it, and to write. -/
structure Serving (P : Session → Session → Prop) : Prop extends Quiet P where
  readAll : Makes P Act.readAll
  write : ∀ bs, Makes P (Act.write bs)
  copy : Makes P (Job.pumpAll (fun () bs => Act.write bs) ())
  spread : ∀ sinks, (∀ sink ∈ sinks, IsFile sink) → Makes P (Job.pumpAll Tee.spread sinks)
  withInput : ∀ s t input, P { s with input } t → P s { t with input := s.input }

variable {ε ε' α β : Type} {P : Session → Session → Prop}

/-! Steps that touch no stream. -/

namespace Makes

variable {act : Act ε α} {next : α → Act ε β}

theorem ofExcept (quiet : Quiet P) (result : Except ε α) : Makes P (Act.ofExcept result) := by
  rintro s _ _ ⟨⟩
  exact quiet.refl s

theorem pure (quiet : Quiet P) (a : α) : Makes P (Pure.pure a : Act ε α) := ofExcept quiet (.ok a)

theorem throw (quiet : Quiet P) (e : ε) : Makes P (MonadExcept.throw e : Act ε α) :=
  ofExcept quiet (.error e)

theorem view (quiet : Quiet P) (f : Session → α) : Makes P (Act.view f : Act ε α) := by
  rintro s _ _ ⟨⟩
  exact quiet.refl s

theorem resolve (quiet : Quiet P) (path : String) : Makes P (Act.resolve path : Act ε Place) :=
  view quiet _

theorem bind_given (quiet : Quiet P) (first : Makes P act)
    (rest : ∀ a, Gives act a → Makes P (next a)) : Makes P (act >>= next) := by
  intro s result s' ran
  rcases start_bind_eq_some_iff.mp ran with ⟨e, failed, -⟩ | ⟨a, s₁, ran₁, ran₂⟩
  · exact first failed
  · exact quiet.trans (first ran₁) (rest a ⟨s, s₁, ran₁⟩ ran₂)

theorem bind (quiet : Quiet P) (first : Makes P act) (rest : ∀ a, Makes P (next a)) :
    Makes P (act >>= next) :=
  bind_given quiet first fun a _ => rest a

/-- A step that enters another session, runs a step there and comes back. -/
theorem of_map {act' : Act ε' β} {enter : Session → Session}
    {leave : Session → Except ε α × Session → Except ε' β × Session}
    (runs : ∀ s, act'.start s = (act.start (enter s)).map (leave s))
    (makes : ∀ s result t, act.start (enter s) = some (result, t) → P s (leave s (result, t)).2) :
    Makes P act' := by
  intro s result s' ran
  rw [runs, Option.map_eq_some_iff] at ran
  obtain ⟨⟨result₁, t⟩, ran, left⟩ := ran
  have made := makes s result₁ t ran
  rw [left] at made
  exact made

theorem attempt (made : Makes P act) : Makes P (Act.attempt act : Act ε' (Except ε α)) :=
  of_map (start_attempt act) fun _ _ _ ran => made ran

theorem mapError {f : ε → ε'} (made : Makes P act) : Makes P (Act.mapError f act) :=
  of_map (start_mapError f act) fun _ _ _ ran => made ran

theorem setDisk (quiet : Quiet P) (disk : Disk) :
    Makes P (Act.change fun s => { s with disk } : Act ε Unit) := by
  rintro s _ _ ⟨⟩
  exact quiet.disk s disk

theorem note (quiet : Quiet P) (level : Level) (text : String) :
    Makes P (Act.note level text : Act ε Unit) := by
  rintro s _ _ ⟨⟩
  exact quiet.journal s _

theorem onDisk (quiet : Quiet P) (wrap : IoError → ε) (f : Disk → Except IoError Disk) :
    Makes P (Act.onDisk wrap f) := by
  intro s result s' ran
  simp only [Act.start, ExceptT.run, Act.onDisk] at ran
  split at ran
  · cases ran
    exact quiet.disk s _
  · cases ran
    exact quiet.refl s

theorem ite {c : Prop} [Decidable c] {other : Act ε α} (yes : Makes P act) (no : Makes P other) :
    Makes P (if c then act else other) := by
  split
  · exact yes
  · exact no

/-- A step that may stop with an error before it goes on. -/
theorem guard (quiet : Quiet P) {γ : Type} {c : Prop} [Decidable c] {e : ε} {k : γ → Act ε α}
    (goesOn : Makes P act) : Makes P (if c then (MonadExcept.throw e : Act ε γ) >>= k else act) := by
  refine ite ?_ goesOn
  rintro s _ _ ⟨⟩
  exact quiet.refl s

theorem enterDir (quiet : Quiet P) (path : String) : Makes P (Act.enterDir path) := by
  refine bind quiet (resolve quiet path) fun p => bind quiet (view quiet _) fun isDir => ite ?_ ?_
  · refine bind quiet (note quiet _ _) fun _ => bind quiet ?_ fun _ => pure quiet p
    rintro s _ _ ⟨⟩
    exact quiet.cwd s p
  · exact throw quiet _

/-! Steps on the streams. -/

theorem read (streams : Streaming P) (n : Nat) : Makes P (Act.read n) := by
  intro s result s' ran
  rw [start_read] at ran
  cases ran
  unfold Source.read
  dsimp only
  split
  · split <;> exact streams.refl s
  · exact streams.read s _

theorem readAll (streams : Streaming P) : Makes P Act.readAll := by
  intro s result s' ran
  rw [start_readAll] at ran
  cases ran
  unfold Source.drain
  dsimp only
  split <;> exact streams.read s _

theorem write (streams : Streaming P) (bs : Bytes) : Makes P (Act.write bs) := by
  intro s result s' ran
  have wrote := streams.write s bs
  simp only [Act.start, ExceptT.run, Act.write] at ran
  split at ran
  · rename_i written
    rw [written] at wrote
    cases ran
    exact streams.trans wrote (streams.disk _ _)
  · rename_i written
    rw [written] at wrote
    cases ran
    exact streams.trans wrote (streams.disk _ _)

theorem flush (quiet : Quiet P) : Makes P Act.flush := by
  intro s result s' ran
  simp only [Act.start, ExceptT.run, Act.flush] at ran
  split at ran <;> cases ran <;> exact quiet.refl s

theorem withInput (serves : Serving P) (input : Source) (made : Makes P act) :
    Makes P (Act.withInput input act) :=
  of_map (start_withInput input act) fun s _ t ran => serves.withInput s t input (made ran)

end Makes

/-! What is done step by step is done as a whole. -/

theorem writeEach_makes (quiet : Quiet P) (bs : Bytes) (sinks : List Sink) :
    Makes P (Tee.writeEach bs sinks) := by
  induction sinks with
  | nil => exact .pure quiet _
  | cons sink rest ih =>
    refine .bind quiet (.view quiet _) fun d => ?_
    dsimp only
    generalize sink.write d bs = written
    obtain ⟨d', sink', failed⟩ := written
    refine .bind quiet (.setDisk quiet d') fun _ => ?_
    cases failed with
    | some e => exact .bind quiet (.throw quiet e) fun _ => .bind quiet ih fun _ => .pure quiet _
    | none => exact .bind quiet ih fun _ => .pure quiet _

section Streams

variable (streams : Streaming P)

include streams

theorem pump_makes {step : α → Bytes → Act IoError α} (each : ∀ state bs, Makes P (step state bs))
    (rounds : Nat) (state : α) : Makes P (Job.pump step rounds state) := by
  induction rounds generalizing state with
  | zero =>
    intro s result s' ran
    change none = some _ at ran
    cases ran
  | succ rounds ih =>
    refine .bind streams.toQuiet (.read streams _) fun bs => .ite (.pure streams.toQuiet _) ?_
    exact .bind streams.toQuiet (each state bs) ih

theorem pumpAll_makes {step : α → Bytes → Act IoError α}
    (each : ∀ state bs, Makes P (step state bs)) (state : α) : Makes P (Job.pumpAll step state) :=
  .bind streams.toQuiet (.view streams.toQuiet _) fun _ =>
    .bind streams.toQuiet (.view streams.toQuiet _) fun _ => pump_makes streams each _ state

theorem spread_makes (sinks : List Sink) (bs : Bytes) : Makes P (Tee.spread sinks bs) :=
  .bind streams.toQuiet (.write streams bs) fun _ => writeEach_makes streams.toQuiet bs sinks

theorem Streaming.serving : Serving P where
  toQuiet := streams.toQuiet
  readAll := .readAll streams
  write := .write streams
  copy := pumpAll_makes streams (fun _ => .write streams) ()
  spread := fun sinks _ => pumpAll_makes streams (spread_makes streams) sinks
  withInput := streams.withInput

end Streams

/-! What applications share. -/

section Applications

variable (quiet : Quiet P) (serves : Serving P)

include quiet in
theorem options_makes (legal : String) (args : List String) : Makes P (Job.options legal args) :=
  .ofExcept quiet _

include quiet in
theorem openOperand_makes (name : String) : Makes P (Job.openOperand name) :=
  .bind quiet (.resolve quiet name) fun _ => .bind quiet (.view quiet _) fun _ =>
    .guard quiet (.guard quiet (.mapError (.ofExcept quiet _)))

include quiet in
theorem settle_makes (complaint : Option Complaint) : Makes P (Job.settle complaint) := by
  cases complaint with
  | none => exact .pure quiet _
  | some c => exact .throw quiet c

include quiet in
theorem forEach_makes {step : String → Job α} (each : ∀ name, Makes P (step name))
    (names : List String) : Makes P (Job.forEach step names) := by
  induction names with
  | nil => exact .pure quiet _
  | cons name names ih =>
    exact .bind quiet (.attempt (each name)) fun _ => .bind quiet ih fun _ => .pure quiet _

include serves

theorem readOperand_makes (name : String) : Makes P (Job.readOperand name) :=
  .ite (.mapError serves.readAll)
    (.bind serves.toQuiet (openOperand_makes serves.toQuiet name) fun _ => .view serves.toQuiet _)

theorem write_makes (bs : Bytes) : Makes P (Job.write bs) := .mapError (serves.write bs)

theorem writeLines_makes (ls : List String) : Makes P (Job.writeLines ls) :=
  .bind serves.toQuiet (write_makes serves _) fun _ => .mapError (.flush serves.toQuiet)

theorem readAllOperands_makes (names : List String) : Makes P (Job.readAllOperands names) := by
  induction names with
  | nil => exact .pure serves.toQuiet _
  | cons name names ih =>
    exact .bind serves.toQuiet (readOperand_makes serves name) fun _ =>
      .bind serves.toQuiet ih fun _ => .pure serves.toQuiet _

theorem tryOperands_makes (names : List String) : Makes P (Job.tryOperands names) := by
  induction names with
  | nil => exact .pure serves.toQuiet _
  | cons name names ih =>
    exact .bind serves.toQuiet (.attempt (readOperand_makes serves name)) fun _ =>
      .bind serves.toQuiet ih fun _ => .pure serves.toQuiet _

end Applications

/-! The applications, one by one. -/

section Applications

variable (serves : Serving P)

include serves

theorem copy_makes : Makes P Cat.copy := .mapError serves.copy

theorem emitAll_makes {step : Nat → String → Job Nat} (each : ∀ last name, Makes P (step last name))
    (last : Nat) (names : List String) : Makes P (Cat.emitAll step last names) := by
  have quiet := serves.toQuiet
  induction names generalizing last with
  | nil => exact .pure quiet _
  | cons name names ih =>
    refine .bind quiet (.attempt (each last name)) fun result => ?_
    cases result with
    | ok last => exact ih last
    | error e => exact .ite (.throw quiet e) (.bind quiet (ih last) fun _ => .pure quiet _)

theorem cat_makes (args : List String) : Makes P (Cat.run args) := by
  have quiet := serves.toQuiet
  refine .bind quiet (options_makes quiet _ _) fun o => .bind quiet
    (emitAll_makes serves (fun last name => ?_) 0 _) fun complaint =>
    .bind quiet (.mapError (.flush quiet)) fun _ => settle_makes quiet complaint
  split
  · exact .bind quiet (readOperand_makes serves name) fun _ =>
      .bind quiet (write_makes serves _) fun _ => .pure quiet _
  · refine .bind quiet (.ite (copy_makes serves) ?_) fun _ => .pure quiet last
    exact .bind quiet (openOperand_makes quiet name) fun _ =>
      .withInput serves _ (copy_makes serves)

theorem cd_makes (args : List String) : Makes P (Cd.run args) := by
  have quiet := serves.toQuiet
  unfold Cd.run
  split
  · exact .throw quiet _
  · refine .guard quiet (.bind quiet (.resolve quiet _) fun p => .bind quiet (.view quiet _) fun d => ?_)
    exact .guard quiet (.guard quiet
      (.bind quiet (.mapError (.enterDir quiet _)) fun _ => .pure quiet _))
  · exact .throw quiet _

theorem copyTree_makes (fuel : Nat) (source target : Place) :
    Makes P (Cp.copyTree fuel source target) := by
  have quiet := serves.toQuiet
  induction fuel generalizing source target with
  | zero => exact .throw quiet _
  | succ fuel ih =>
    have entries (kinds : List (String × Option Entry)) :
        Makes P (Cp.copyTree.copyEntries (Cp.copyTree fuel) source target kinds) := by
      induction kinds with
      | nil => exact .pure quiet _
      | cons entry rest later =>
        exact .ite (.bind quiet (ih _ _) fun _ => later)
          (.bind quiet (.onDisk quiet _ _) fun _ => later)
    refine .bind quiet (.view quiet _) fun d => ?_
    dsimp only
    generalize d.makeDirs target = made
    obtain ⟨d', failed⟩ := made
    refine .bind quiet (.setDisk quiet d') fun _ => ?_
    cases failed with
    | some e =>
      exact .bind quiet (.throw quiet e) fun _ => .bind quiet (.ofExcept quiet _) fun _ =>
        .guard quiet (entries _)
    | none => exact .bind quiet (.ofExcept quiet _) fun _ => .guard quiet (entries _)

theorem copyOne_makes (recursive : Bool) (dest : Place) (intoDir : Bool) (name : String) :
    Makes P (Cp.copyOne recursive dest intoDir name) := by
  have quiet := serves.toQuiet
  refine .bind quiet (.resolve quiet name) fun source => .bind quiet (.view quiet _) fun d =>
    .guard quiet ?_
  cases Cp.target? source dest intoDir with
  | none => exact .throw quiet _
  | some target =>
    refine .guard quiet (.ite ?_ (.onDisk quiet _ _))
    exact .guard quiet (.guard quiet (.mapError (copyTree_makes serves _ source target)))

theorem cp_makes (args : List String) : Makes P (Cp.run args) := by
  have quiet := serves.toQuiet
  refine .bind quiet (options_makes quiet _ _) fun o => ?_
  split
  · exact .throw quiet _
  · exact .throw quiet _
  · refine .bind quiet (.resolve quiet _) fun p => .bind quiet (.view quiet _) fun intoDir => ?_
    exact .guard quiet (.bind quiet (forEach_makes quiet (copyOne_makes serves _ p intoDir) _)
      fun _ => settle_makes quiet _)

theorem cut_makes (args : List String) : Makes P (Cut.run args) := by
  have quiet := serves.toQuiet
  refine .bind quiet (options_makes quiet _ _) fun o => .guard quiet (.guard quiet ?_)
  split
  · exact .throw quiet _
  · split
    · exact .throw quiet _
    · exact .bind quiet (readAllOperands_makes serves _) fun _ =>
        .bind quiet (writeLines_makes serves _) fun _ => .pure quiet _

theorem grep_makes (args : List String) : Makes P (Grep.run args) := by
  have quiet := serves.toQuiet
  refine .bind quiet (options_makes quiet _ _) fun o => ?_
  split
  · exact .throw quiet _
  · split
    · exact .bind quiet (tryOperands_makes serves _) fun _ =>
        .bind quiet (writeLines_makes serves _) fun _ => settle_makes quiet _
    · exact .throw quiet _

theorem ls_makes (args : List String) : Makes P (Ls.run args) := by
  have quiet := serves.toQuiet
  refine .bind quiet (options_makes quiet _ _) fun o => .bind quiet (.view quiet _) fun s => ?_
  dsimp only
  split
  · exact .throw quiet _
  · exact .bind quiet (write_makes serves _) fun _ => .pure quiet _

theorem mv_makes (args : List String) : Makes P (Mv.run args) := by
  have quiet := serves.toQuiet
  refine .bind quiet (options_makes quiet _ _) fun o => ?_
  split
  · exact .throw quiet _
  · exact .throw quiet _
  · refine .bind quiet (.resolve quiet _) fun p => .bind quiet (.view quiet _) fun intoDir =>
      .guard quiet (.bind quiet (forEach_makes quiet (fun name => ?_) _) fun _ =>
        settle_makes quiet _)
    refine .bind quiet (.resolve quiet name) fun source => .bind quiet (.view quiet _) fun d =>
      .guard quiet ?_
    cases Cp.target? source p intoDir with
    | none => exact .throw quiet _
    | some target =>
      exact .ite (.pure quiet _) (.guard quiet (.ite (.pure quiet _) (.onDisk quiet _ _)))

theorem rm_makes (args : List String) : Makes P (Rm.run args) := by
  have quiet := serves.toQuiet
  refine .bind quiet (options_makes quiet _ _) fun o => .guard quiet
    (.bind quiet (forEach_makes quiet (fun name => ?_) _) fun _ => settle_makes quiet _)
  refine .bind quiet (.resolve quiet name) fun p => .bind quiet (.view quiet _) fun s => ?_
  split
  · exact .throw quiet _
  · exact .guard quiet (.ite (.onDisk quiet _ _) (.ite (.onDisk quiet _ _) (.throw quiet _)))
  · exact .onDisk quiet _ _

omit serves in
theorem openTarget_makes (quiet : Quiet P) (keep : Bool) (name : String) :
    Makes P (Tee.openTarget keep name) := by
  refine .bind quiet (.resolve quiet name) fun p => .bind quiet (.view quiet _) fun d =>
    .guard quiet ?_
  split
  · exact .throw quiet _
  · exact .bind quiet (.setDisk quiet _) fun _ => .pure quiet _

theorem tee_makes (args : List String) : Makes P (Tee.run args) := by
  have quiet := serves.toQuiet
  exact .bind quiet (options_makes quiet _ _) fun o => .bind_given quiet
    (forEach_makes quiet (openTarget_makes quiet _) _) fun targets given => .bind quiet
    (.mapError (serves.spread _ (opened_isFile (forEach_given given)))) fun _ =>
    .bind quiet (.mapError (.flush quiet)) fun _ => settle_makes quiet _

theorem uniq_makes (args : List String) : Makes P (Uniq.run args) := by
  have quiet := serves.toQuiet
  refine .bind quiet (options_makes quiet _ _) fun o => ?_
  split
  · exact .throw quiet _
  · rename_i input output _
    refine .guard quiet (.bind quiet (readOperand_makes serves input) fun bs => ?_)
    cases output with
    | none => exact .bind quiet (writeLines_makes serves _) fun _ => .pure quiet _
    | some name =>
      refine .bind quiet (.bind quiet (.resolve quiet name) fun p =>
        .bind quiet (.view quiet _) fun d => .guard quiet ?_) fun _ => .pure quiet _
      split
      · exact .throw quiet _
      · exact .setDisk quiet _

theorem wc_makes (args : List String) : Makes P (Wc.run args) := by
  have quiet := serves.toQuiet
  refine .bind quiet (options_makes quiet _ _) fun o => .ite ?_ ?_
  · exact .bind quiet (readOperand_makes serves _) fun _ =>
      .bind quiet (writeLines_makes serves _) fun _ => .pure quiet _
  · exact .bind quiet (tryOperands_makes serves _) fun _ =>
      .bind quiet (writeLines_makes serves _) fun _ => settle_makes quiet _

/-- A change that allows for reading, writing, and changes of the disk, the
directory and the journal is all that an application makes. -/
theorem run_makes (app : Application) (args : List String) : Makes P (app.run args) := by
  have quiet := serves.toQuiet
  cases app with
  | cat => exact cat_makes serves args
  | cd => exact cd_makes serves args
  | cp => exact cp_makes serves args
  | cut => exact cut_makes serves args
  | echo => exact .bind quiet (writeLines_makes serves _) fun _ => .pure quiet _
  | exit => exact .pure quiet _
  | grep => exact grep_makes serves args
  | ls => exact ls_makes serves args
  | mv => exact mv_makes serves args
  | paste | sort =>
    exact .bind quiet (options_makes quiet _ _) fun _ => .bind quiet
      (readAllOperands_makes serves _) fun _ => .bind quiet (writeLines_makes serves _) fun _ =>
      .pure quiet _
  | rm => exact rm_makes serves args
  | tee => exact tee_makes serves args
  | uniq => exact uniq_makes serves args
  | wc => exact wc_makes serves args

end Applications

end LineShell.SessionChanges
