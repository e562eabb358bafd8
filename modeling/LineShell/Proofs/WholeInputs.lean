import LineShell.Proofs.ExitOutcome
import LineShell.Proofs.OutletRuns

/-! A line that reads the session's input reads all of it. Applications read their
input to its end, or would stop only where a write fails; on outputs that take
everything no write does. So what a line leaves of a stream is the whole stream or
nothing. -/
namespace LineShell.WholeInputs
open StepAgreement SessionBonds ApplicationAgreement SessionChanges CallDispatch AmbientStreams
  JournalAside ExitOutcome OutletRuns

variable {α ε ε' : Type} {Files : Prop}

/-- An output that takes everything: an outlet without a limit, or a file where
files are allowed for. -/
def Ample (Files : Prop) : Sink → Prop := Smooth (fun _ => False) Files

/-- A stream is as it was, or nothing is left of it. -/
def Emptied (source source' : Source) : Prop :=
  ∀ rest fault, source = .stream rest fault →
    source' = .stream rest fault ∨ source' = .stream [] fault

/-- On an ample output, the input is left as it was or is read to its end. -/
def Whole (Files : Prop) (s s' : Session) : Prop :=
  Ample Files s.output → Ample Files s'.output ∧ Emptied s.input s'.input

theorem emptied_refl (source : Source) : Emptied source source := fun _ _ same => .inl same

theorem emptied_trans {first second third : Source} (here : Emptied first second)
    (there : Emptied second third) : Emptied first third := by
  intro rest fault same
  rcases here rest fault same with kept | emptied
  · exact there rest fault kept
  · exact .inr ((there [] fault emptied).elim id id)

theorem whole_of_same {s s' : Session} (input : s'.input = s.input) (output : s'.output = s.output) :
    Whole Files s s' := by
  intro ample
  rw [input, output]
  exact ⟨ample, emptied_refl s.input⟩

theorem whole_reporting : Reporting (Whole Files) where
  refl _ := whole_of_same rfl rfl
  trans := by
    intro s t u first second ample
    obtain ⟨still, here⟩ := first ample
    obtain ⟨again, there⟩ := second still
    exact ⟨again, emptied_trans here there⟩
  disk _ _ := whole_of_same rfl rfl
  cwd _ _ := whole_of_same rfl rfl
  journal _ _ := whole_of_same rfl rfl
  report _ _ := whole_of_same rfl rfl

/-! Writing and copying. -/

/-- A write to an ample output does not fail. -/
theorem write_ample {s s' : Session} {bs : Bytes} {result : Except IoError Unit}
    (ample : Ample Files s.output) (ran : (Act.write bs).start s = some (result, s')) :
    result = .ok () ∧ s'.input = s.input ∧ Ample Files s'.output := by
  obtain ⟨still, taken⟩ := smooth_write ample s.disk bs
  have taken := taken.resolve_right id
  simp only [Act.start, Act.write, ExceptT.run] at ran
  split at ran
  · rename_i written
    rw [written] at still
    cases ran
    exact ⟨rfl, rfl, still⟩
  · rename_i written
    rw [written] at taken
    cases taken

/-- A write to files does not fail. -/
theorem writeEach_ok {bs : Bytes} {sinks : List Sink} {s s' : Session}
    {result : Except IoError (List Sink)} (files : ∀ sink ∈ sinks, IsFile sink)
    (ran : (Tee.writeEach bs sinks).start s = some (result, s')) : ∃ sinks', result = .ok sinks' := by
  induction sinks generalizing s result s' with
  | nil =>
    cases ran
    exact ⟨_, rfl⟩
  | cons sink rest ih =>
    obtain ⟨first, others⟩ := List.forall_mem_cons.mp files
    obtain ⟨d', sink', written, -⟩ := write_isFile first s.disk bs
    simp only [Tee.writeEach, start_bind, start_view, written, start_change] at ran
    split at ran
    · cases ran
    · rename_i wrote
      obtain ⟨_, failed⟩ := ih others wrote
      cases failed
    · cases ran
      exact ⟨_, rfl⟩

theorem spread_ample {bs : Bytes} {sinks : List Sink} {s s' : Session}
    {result : Except IoError (List Sink)} (files : ∀ sink ∈ sinks, IsFile sink)
    (ample : Ample Files s.output) (ran : (Tee.spread sinks bs).start s = some (result, s')) :
    (∃ sinks', result = .ok sinks') ∧ s'.input = s.input ∧ Ample Files s'.output := by
  rcases start_bind_eq_some_iff.mp ran with ⟨e, failed, -⟩ | ⟨_, s₁, wrote, spread⟩
  · obtain ⟨fine, -⟩ := write_ample ample failed
    cases fine
  · obtain ⟨-, input, ample₁⟩ := write_ample ample wrote
    obtain ⟨input', output'⟩ := writeEach_makes apart_quiet bs sinks spread
    rw [← output'] at ample₁
    exact ⟨writeEach_ok files spread, input'.trans input, ample₁⟩

section Pump

variable {step : α → Bytes → Act IoError α} (Fine : α → Prop)
  (each : ∀ state bs s result s', Fine state → Ample Files s.output →
    (step state bs).start s = some (result, s') →
    (∃ state', result = .ok state' ∧ Fine state') ∧ s'.input = s.input ∧ Ample Files s'.output)

include each

/-- A copy whose steps do not fail ends with its input. -/
theorem pump_empties (rounds : Nat) {state : α} {s s' : Session} {result : Except IoError α}
    (fine : Fine state) (ample : Ample Files s.output)
    (ran : (Job.pump step rounds state).start s = some (result, s')) :
    Ample Files s'.output ∧
      ∀ rest fault, s.input = .stream rest fault → s'.input = .stream [] fault := by
  induction rounds generalizing state s with
  | zero => cases ran
  | succ rounds ih =>
    rw [Job.pump, start_bind, start_read] at ran
    generalize read : s.input.read s.disk Job.chunk = reading at ran
    obtain ⟨answer, input⟩ := reading
    have kept (rest : Bytes) (fault : Option IoError) (stream : s.input = .stream rest fault) :
        ∃ rest', input = .stream rest' fault ∧
          ((∀ bs, answer = .ok bs → bs = []) → rest' = []) := by
      obtain ⟨_, rest', found, -, ended⟩ :=
        read_stream s.disk (show 0 < Job.chunk by decide) rest fault
      rw [stream, found] at read
      cases read
      exact ⟨rest', rfl, ended⟩
    cases answer with
    | error e =>
      cases ran
      refine ⟨ample, fun rest fault stream => ?_⟩
      obtain ⟨rest', left, ended⟩ := kept rest fault stream
      rw [ended (by intro _ same; cases same)] at left
      exact left
    | ok bs =>
      dsimp only at ran
      split at ran
      · rename_i empty
        cases ran
        refine ⟨ample, fun rest fault stream => ?_⟩
        obtain ⟨rest', left, ended⟩ := kept rest fault stream
        have nothing : bs = [] := List.isEmpty_iff.mp empty
        rw [ended (by rintro _ ⟨⟩; exact nothing)] at left
        exact left
      · rcases start_bind_eq_some_iff.mp ran with ⟨e, failed, -⟩ | ⟨state', s₁, stepped, later⟩
        · obtain ⟨⟨_, fine, -⟩, -⟩ := each _ _ _ _ _ fine (by exact ample) failed
          cases fine
        · obtain ⟨⟨state', same, fine'⟩, input', ample'⟩ := each _ _ _ _ _ fine (by exact ample) stepped
          cases same
          obtain ⟨still, ends⟩ := ih fine' ample' later
          refine ⟨still, fun rest fault stream => ?_⟩
          obtain ⟨rest', left, -⟩ := kept rest fault stream
          exact ends rest' fault (input'.trans left)

theorem pumpAll_whole {state : α} (fine : Fine state) :
    Makes (Whole Files) (Job.pumpAll step state) := by
  intro s result s' ran ample
  rw [start_pumpAll] at ran
  obtain ⟨still, ends⟩ := pump_empties Fine each _ fine ample ran
  exact ⟨still, fun rest fault stream => .inr (ends rest fault stream)⟩

end Pump

theorem whole_serving : Serving (Whole Files) where
  toQuiet := whole_reporting.toQuiet
  readAll := by
    intro s result s' ran ample
    rw [start_readAll] at ran
    cases ran
    refine ⟨ample, fun rest fault stream => .inr ?_⟩
    simp only [stream, Source.drain, Source.held, Source.fault]
    cases fault <;> simp [Source.skip]
  write := by
    intro bs s result s' ran ample
    obtain ⟨-, input, still⟩ := write_ample ample ran
    rw [input]
    exact ⟨still, emptied_refl _⟩
  copy := by
    refine pumpAll_whole (fun _ => True) (fun _ bs s result s' _ ample ran => ?_) trivial
    obtain ⟨fine, input, still⟩ := write_ample ample ran
    exact ⟨⟨(), fine, trivial⟩, input, still⟩
  spread := by
    intro sinks files
    refine pumpAll_whole (fun sinks => ∀ sink ∈ sinks, IsFile sink)
      (fun sinks bs s result s' files ample ran => ?_) files
    obtain ⟨⟨sinks', rfl⟩, input, still⟩ := spread_ample files ample ran
    exact ⟨⟨sinks', rfl, spread_isFile files ⟨s, s', ran⟩⟩, input, still⟩
  withInput := fun s t input made ample => ⟨(made ample).1, emptied_refl s.input⟩

/-! Commands. -/

variable {sh : Shell} {left : Nat}

/-- A step on a file's output, or on one that is collected, is on an ample one. -/
theorem withOutput_whole {act : Act ε α} {sink : Sink} (isFile : IsFile sink)
    (made : Makes (Whole True) act) : Makes (Whole Files) (Act.withOutput sink act) := by
  obtain ⟨id, pos, rfl⟩ := isFile
  exact .of_map (start_withOutput _ act) fun _ _ _ ran ample => ⟨ample, (made ran trivial).2⟩

theorem collect_whole {act : Act ε α} (made : Makes (Whole Files) act) :
    Makes (Whole Files) (Act.collect act : Act ε' (Except ε α × Bytes)) :=
  .of_map (start_collect act) fun _ _ _ ran ample => ⟨ample, (made ran smooth_unlimited).2⟩

theorem within_whole {r : Redirection} {act : Act ε α}
    (files : ∀ sink, r.output = some sink → IsFile sink)
    (made : ∀ Files, Makes (Whole Files) act) : Makes (Whole Files) (r.within act) := by
  obtain ⟨rest, input, output⟩ := r
  have fed (Files : Prop) : Makes (Whole Files) (({ rest, input } : Redirection).within act) := by
    cases input with
    | none => exact made Files
    | some input => exact .withInput whole_serving input (made Files)
  cases output with
  | none => exact fed Files
  | some sink => exact withOutput_whole (files sink rfl) (fed True)

theorem call_whole (c : Call) : Makes (Whole Files) (sh.call (sh.substitute left) c) := by
  refine call_makes whole_reporting.toQuiet (fun s result s' ran => ?_) fun ready s s' prepared =>
    within_whole (prepare_isFile prepared) fun Files => launch_makes whole_serving _ _
  obtain ⟨input, output⟩ := prepare_apart sh left c ran
  exact whole_of_same input output

theorem stages_whole : (calls : List Call) →
    Makes (Whole Files) (sh.stages (sh.substitute left) calls)
  | [] => .pure whole_reporting.toQuiet _
  | [last] =>
    have quiet := whole_reporting.toQuiet
    .bind quiet (.attempt (stage_makes quiet (call_whole last))) fun _ => .pure quiet _
  | c :: next :: rest =>
    have quiet := whole_reporting.toQuiet
    .bind quiet (collect_whole (stage_makes quiet (call_whole c))) fun _ =>
      .bind quiet (.withInput whole_serving _ (stages_whole (next :: rest))) fun _ => .pure quiet _

theorem evaluate_whole (command : Command) :
    Makes (Whole Files) (sh.evaluate (sh.substitute left) command) := by
  have single (c : Call) : [c].head? = some c := rfl
  exact evaluate_makes whole_reporting single (fun calls _ => stages_whole calls) command
    fun c _ => call_whole c

/-- A line reads all of the session's input or nothing of it. -/
theorem line_whole (sh : Shell) (line : String) : Makes (Whole Files) (sh.evaluateLine line) := by
  have quiet : Quiet (Whole Files) := whole_reporting.toQuiet
  exact .bind quiet (parse_makes quiet line) fun command => .bind quiet (evaluate_whole command)
    fun _ => .bind quiet (.mapError (.flush quiet)) fun _ => .pure quiet _

end LineShell.WholeInputs
