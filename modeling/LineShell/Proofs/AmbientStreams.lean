import LineShell.Proofs.CallDispatch
import LineShell.Proofs.SessionBonds

/-! Which calls of a command reach the streams of the session. A pipe gives its
first call the session's input and its last call the session's output, and a sign
among a call's tokens binds the stream to a file or fails the call. So the streams
are left alone where the calls at the ends of all pipes have signs, and whatever is
read of the input is read from its front. -/
namespace LineShell.AmbientStreams
open StepAgreement SessionBonds SessionChanges CallDispatch

/-! The calls at the ends of pipes. -/

mutual

/-- The calls that a command has by themselves, and those that `pick` takes from
its pipes. -/
def endCalls (pick : List Call → Option Call) : Command → List Call
  | .call c => [c]
  | .pipe calls => (pick calls).toList
  | .sequence commands => endCallsOfAll pick commands

/-- The same of several commands. -/
def endCallsOfAll (pick : List Call → Option Call) : List Command → List Call
  | [] => []
  | command :: rest => endCalls pick command ++ endCallsOfAll pick rest

end

/-- The calls that read the session's input. -/
def firstCalls : Command → List Call := endCalls List.head?

/-- The calls that write to the session's output. -/
def lastCalls : Command → List Call := endCalls List.getLast?

theorem mem_endCallsOfAll {pick : List Call → Option Call} {commands : List Command} {c : Call} :
    c ∈ endCallsOfAll pick commands ↔ ∃ command ∈ commands, c ∈ endCalls pick command := by
  induction commands with
  | nil => simp [endCallsOfAll]
  | cons command rest ih => simp [endCallsOfAll, ih]

/-! Signs bind streams. -/

/-- Whether the stream that a sign is for is bound to a file. -/
def bound (r : Redirection) : Token.Redirect → Bool
  | .input => r.input.isSome
  | .output | .append => r.output.isSome

theorem redirect?_eq_some_iff {token : String} {sign : Token.Redirect} :
    Token.redirect? token = some sign ↔ token = sign.text := by
  constructor
  · intro read
    simp only [Token.redirect?] at read
    split at read
    · cases read; assumption
    · split at read
      · cases read; assumption
      · split at read
        · cases read; assumption
        · cases read
  · rintro rfl
    cases sign <;> rfl

/-- A redirection that is added binds its stream and keeps what was bound. -/
theorem add_bound {r r' : Redirection} {sign : Token.Redirect} {name : String}
    (given : Gives (r.add sign name) r') :
    bound r' sign = true ∧ ∀ other, bound r other = true → bound r' other = true := by
  cases sign with
  | input =>
    simp only [Redirection.add] at given
    split at given
    · obtain ⟨_, thrown, -⟩ := gives_bind given
      exact absurd thrown not_gives_throw
    · obtain ⟨source, -, given⟩ := gives_bind given
      rw [gives_pure given]
      exact ⟨rfl, fun other was => by cases other <;> first | rfl | exact was⟩
  | output | append =>
    obtain ⟨sink, -, given⟩ := gives_bind given
    rw [gives_pure given]
    exact ⟨rfl, fun other was => by cases other <;> first | rfl | exact was⟩

/-- Where a sign stands among the tokens its stream is bound, if the redirections
can be opened at all. -/
theorem extractFrom_bound {expand : String → Act Failure (List String)} {sign : Token.Redirect}
    {r' : Redirection} : (tokens : List String) → (r : Redirection) →
      bound r sign = true ∨ sign.text ∈ tokens →
      Gives (Redirection.extractFrom expand r tokens) r' → bound r' sign = true
  | [], r, was, given => by
    rw [gives_pure given]
    have was := was.resolve_right List.not_mem_nil
    cases sign <;> exact was
  | [token], r, was, given => by
    unfold Redirection.extractFrom at given
    split at given
    · rename_i plain
      rw [gives_pure given]
      have other : ¬ sign.text ∈ [token] := by
        rw [List.mem_singleton]
        rintro rfl
        rw [redirect?_eq_some_iff.mpr rfl] at plain
        cases plain
      have was := was.resolve_right other
      cases sign <;> exact was
    · exact absurd given not_gives_throw
  | token :: operand :: tokens, r, was, given => by
    unfold Redirection.extractFrom at given
    split at given
    · rename_i plain
      refine extractFrom_bound (operand :: tokens) _ (was.imp (fun was => ?_) fun member => ?_) given
      · cases sign <;> exact was
      · rcases List.mem_cons.mp member with rfl | later
        · rw [redirect?_eq_some_iff.mpr rfl] at plain
          cases plain
        · exact later
    · rename_i here read
      split at given
      · obtain ⟨_, thrown, -⟩ := gives_bind given
        exact absurd thrown not_gives_throw
      · -- The operand is no sign, so a sign is this one or comes later.
        rename_i word
        obtain ⟨name, -, given⟩ := gives_bind given
        obtain ⟨added, adds, given⟩ := gives_bind given
        obtain ⟨binds, keeps⟩ := add_bound adds
        refine extractFrom_bound tokens added ?_ given
        rcases was with was | member
        · exact .inl (keeps sign was)
        · rcases List.mem_cons.mp member with same | member
          · rw [← same, redirect?_eq_some_iff.mpr rfl] at read
            cases read
            exact .inl binds
          · rcases List.mem_cons.mp member with same | later
            · refine absurd ?_ word
              rw [Token.isRedirect, ← same, redirect?_eq_some_iff.mpr rfl]
              rfl
            · exact .inr later

variable {sh : Shell} {run : Substitution}

/-- A call that has a sign and can be prepared has the sign's stream bound. -/
theorem prepare_bound (sign : Token.Redirect) {c : Call} {ready : Ready} {s s' : Session}
    (signed : sign.text ∈ c.tokens)
    (prepared : (prepare sh run c).start s = some (.ok ready, s')) :
    bound ready.streams sign = true := by
  obtain ⟨r, extracts, given⟩ := gives_bind ⟨s, s', prepared⟩
  obtain ⟨words, -, given⟩ := gives_bind given
  have binds := extractFrom_bound c.tokens {} (.inr signed) extracts
  cases words with
  | nil => exact absurd given not_gives_throw
  | cons name args =>
    dsimp only at given
    cases found : sh.find? name with
    | none =>
      rw [found] at given
      exact absurd given not_gives_throw
    | some app =>
      rw [found] at given
      rw [gives_pure given]
      exact binds

/-! Changes of one stream. -/

/-- The change that is made to the input, if the rest does not matter. -/
def OnInput (Q : Source → Source → Prop) (s s' : Session) : Prop := Q s.input s'.input

/-- The change that is made to the output, if the rest does not matter. -/
def OnOutput (Q : Sink → Sink → Prop) (s s' : Session) : Prop := Q s.output s'.output

/-- A stream is as it was. -/
def Same {α : Type} (stream stream' : α) : Prop := stream' = stream

/-- Some bytes were read from the front of a source. -/
def Advanced (source source' : Source) : Prop := ∃ n, source' = source.skip n

/-- A flush comes to the same as before. -/
def SameFlush (sink sink' : Sink) : Prop := sink'.flush = sink.flush

/-- What can be done to a stream, and done again. -/
structure Course {α : Type} (Q : α → α → Prop) : Prop where
  refl : ∀ stream, Q stream stream
  trans : ∀ ⦃first second third⦄, Q first second → Q second third → Q first third

theorem same_course {α : Type} : Course (Same : α → α → Prop) :=
  ⟨fun _ => rfl, fun _ _ _ first second => second.trans first⟩

theorem sameFlush_course : Course SameFlush :=
  ⟨fun _ => rfl, fun _ _ _ first second => second.trans first⟩

theorem skip_zero (source : Source) : source.skip 0 = source := by cases source <;> rfl

theorem skip_skip (source : Source) (m n : Nat) : (source.skip m).skip n = source.skip (m + n) := by
  cases source with
  | stream rest e => simp [Source.skip, List.drop_drop]
  | file id pos => simp [Source.skip, Nat.add_assoc]

theorem advanced_course : Course Advanced where
  refl := fun source => ⟨0, (skip_zero source).symm⟩
  trans := by
    rintro first _ _ ⟨m, rfl⟩ ⟨n, rfl⟩
    exact ⟨m + n, skip_skip first m n⟩

/-- A change that leaves room for reports, too. -/
structure Reporting (P : Session → Session → Prop) : Prop extends Quiet P where
  report : ∀ s failure, P s { s with reports := s.reports ++ [failure] }

variable {Q : Source → Source → Prop} {R : Sink → Sink → Prop} {P : Session → Session → Prop}
  {ε ε' α : Type}

theorem onInput_reporting (course : Course Q) : Reporting (OnInput Q) where
  refl := fun s => course.refl s.input
  trans := fun _ _ _ first second => course.trans first second
  disk := fun s _ => course.refl s.input
  cwd := fun s _ => course.refl s.input
  journal := fun s _ => course.refl s.input
  report := fun s _ => course.refl s.input

theorem onOutput_reporting (course : Course R) : Reporting (OnOutput R) where
  refl := fun s => course.refl s.output
  trans := fun _ _ _ first second => course.trans first second
  disk := fun s _ => course.refl s.output
  cwd := fun s _ => course.refl s.output
  journal := fun s _ => course.refl s.output
  report := fun s _ => course.refl s.output

theorem advanced_streaming : Streaming (OnInput Advanced) where
  toQuiet := (onInput_reporting advanced_course).toQuiet
  read := fun _ n => ⟨n, rfl⟩
  write := fun s _ => advanced_course.refl s.input
  withInput := fun s _ _ _ => advanced_course.refl s.input

/-- No write makes a difference to a flush. -/
theorem flush_write (d : Disk) (sink : Sink) (bs : Bytes) :
    (sink.write d bs).2.1.flush = sink.flush := by
  cases sink with
  | outlet p =>
    simp only [Sink.write, Outlet.write]
    cases p.room <;> rfl
  | file id pos => cases pos <;> rfl

theorem sameFlush_streaming : Streaming (OnOutput SameFlush) where
  toQuiet := (onOutput_reporting sameFlush_course).toQuiet
  read := fun s _ => sameFlush_course.refl s.output
  write := fun s bs => flush_write s.disk s.output bs
  withInput := fun _ _ _ made => made

/-! Steps on other streams. -/

theorem withInput_onInput (course : Course Q) (input : Source) (act : Act ε α) :
    Makes (OnInput Q) (Act.withInput input act) :=
  .of_map (start_withInput input act) fun s _ _ _ => course.refl s.input

theorem withInput_onOutput {act : Act ε α} (made : Makes (OnOutput R) act) (input : Source) :
    Makes (OnOutput R) (Act.withInput input act) :=
  .of_map (start_withInput input act) fun _ _ _ ran =>
    have done := made ran
    done

theorem withOutput_onInput {act : Act ε α} (made : Makes (OnInput Q) act) (output : Sink) :
    Makes (OnInput Q) (Act.withOutput output act) :=
  .of_map (start_withOutput output act) fun _ _ _ ran =>
    have done := made ran
    done

theorem withOutput_onOutput (course : Course R) (output : Sink) (act : Act ε α) :
    Makes (OnOutput R) (Act.withOutput output act) :=
  .of_map (start_withOutput output act) fun s _ _ _ => course.refl s.output

theorem collect_onInput {act : Act ε α} (made : Makes (OnInput Q) act) :
    Makes (OnInput Q) (Act.collect act : Act ε' (Except ε α × Bytes)) :=
  .of_map (start_collect act) fun _ _ _ ran =>
    have done := made ran
    done

theorem collect_onOutput (course : Course R) (act : Act ε α) :
    Makes (OnOutput R) (Act.collect act : Act ε' (Except ε α × Bytes)) :=
  .of_map (start_collect act) fun s _ _ _ => course.refl s.output

/-! Calls. -/

/-- A step on a redirection's input leaves the session's own alone. -/
theorem within_bound_input {r : Redirection} (bound : r.input.isSome = true) (act : Act ε α) :
    Makes (OnInput Same) (r.within act) := by
  obtain ⟨rest, input, output⟩ := r
  obtain ⟨input, rfl⟩ := Option.isSome_iff_exists.mp bound
  cases output with
  | none => exact withInput_onInput same_course input act
  | some output => exact withOutput_onInput (withInput_onInput same_course input act) output

/-- A step on a redirection's output leaves the session's own alone. -/
theorem within_bound_output {r : Redirection} (bound : r.output.isSome = true) (act : Act ε α) :
    Makes (OnOutput Same) (r.within act) := by
  obtain ⟨rest, input, output⟩ := r
  obtain ⟨output, rfl⟩ := Option.isSome_iff_exists.mp bound
  exact withOutput_onOutput same_course output _

theorem within_onInput (course : Course Q) (r : Redirection) {act : Act ε α}
    (made : Makes (OnInput Q) act) : Makes (OnInput Q) (r.within act) := by
  obtain ⟨rest, input, output⟩ := r
  have fed : Makes (OnInput Q) (({ rest, input } : Redirection).within act) := by
    cases input with
    | none => exact made
    | some input => exact withInput_onInput course input act
  cases output with
  | none => exact fed
  | some output => exact withOutput_onInput fed output

theorem within_onOutput (course : Course R) (r : Redirection) {act : Act ε α}
    (made : Makes (OnOutput R) act) : Makes (OnOutput R) (r.within act) := by
  obtain ⟨rest, input, output⟩ := r
  cases output with
  | none =>
    cases input with
    | none => exact made
    | some input => exact withInput_onOutput made input
  | some output => exact withOutput_onOutput course output _

theorem launch_makes (serves : Serving P) (app : Application) (args : List String) :
    Makes P (Shell.launch app args) := by
  have quiet := serves.toQuiet
  refine .bind quiet (.attempt (run_makes serves app args)) fun result =>
    .bind quiet (.attempt (.flush quiet)) fun flushed => ?_
  split
  · exact .throw quiet _
  · exact .throw quiet _
  · exact .pure quiet _

/-- A call changes its session as its preparation and then its dispatch do. -/
theorem call_makes {c : Call} (quiet : Quiet P) (prepares : Makes P (prepare sh run c))
    (dispatches : ∀ ready s s', (prepare sh run c).start s = some (.ok ready, s') →
      Makes P (ready.streams.within (Shell.launch ready.app ready.args))) :
    Makes P (sh.call run c) := by
  intro s result s' ran
  rcases call_cases ran with ⟨e, failed, -⟩ | ⟨ready, s₁, prepared, dispatched⟩
  · exact prepares failed
  · have dispatch : Makes P ready.dispatch :=
      .bind quiet (.note quiet _ _) fun _ => dispatches ready s s₁ prepared
    exact quiet.trans (prepares prepared) (dispatch dispatched)

section Substitutions

variable {left : Nat}

theorem prepare_onInput (course : Course Q) (c : Call) :
    Makes (OnInput Q) (prepare sh (sh.substitute left) c) := by
  intro s result s' ran
  rw [OnInput, (prepare_apart sh left c ran).1]
  exact course.refl s.input

theorem prepare_onOutput (course : Course R) (c : Call) :
    Makes (OnOutput R) (prepare sh (sh.substitute left) c) := by
  intro s result s' ran
  rw [OnOutput, (prepare_apart sh left c ran).2]
  exact course.refl s.output

theorem call_advanced (c : Call) : Makes (OnInput Advanced) (sh.call (sh.substitute left) c) :=
  call_makes advanced_streaming.toQuiet (prepare_onInput advanced_course c) fun ready _ _ _ =>
    within_onInput advanced_course ready.streams (launch_makes advanced_streaming.serving _ _)

theorem call_sameFlush (c : Call) : Makes (OnOutput SameFlush) (sh.call (sh.substitute left) c) :=
  call_makes sameFlush_streaming.toQuiet (prepare_onOutput sameFlush_course c) fun ready _ _ _ =>
    within_onOutput sameFlush_course ready.streams (launch_makes sameFlush_streaming.serving _ _)

/-- A call with a sign for its input does not read the session's. -/
theorem call_inputKept {c : Call} (signed : "<" ∈ c.tokens) :
    Makes (OnInput Same) (sh.call (sh.substitute left) c) :=
  call_makes (onInput_reporting same_course).toQuiet (prepare_onInput same_course c)
    fun _ _ _ prepared => within_bound_input (prepare_bound .input signed prepared) _

/-- A call with a sign for its output does not write to the session's. -/
theorem call_outputKept {c : Call} (signed : ">" ∈ c.tokens ∨ ">>" ∈ c.tokens) :
    Makes (OnOutput Same) (sh.call (sh.substitute left) c) := by
  refine call_makes (onOutput_reporting same_course).toQuiet (prepare_onOutput same_course c)
    fun ready s s' prepared => within_bound_output ?_ _
  rcases signed with signed | signed
  · exact prepare_bound .output signed prepared
  · exact prepare_bound .append signed prepared

end Substitutions

/-! Pipes. -/

/-- A stage changes its session as its call does. -/
theorem stage_makes (quiet : Quiet P) {c : Call} (made : Makes P (sh.call run c)) :
    Makes P (sh.stage run c) := by
  refine .bind quiet (.attempt made) fun result => .bind quiet (.attempt (.flush quiet)) fun _ => ?_
  split
  · exact .ite (.pure quiet _) (.throw quiet _)
  · exact .ofExcept quiet _

/-- Only the first stage of a pipe reads the session's input. -/
theorem stages_onInput (course : Course Q) :
    (calls : List Call) → (∀ c ∈ calls.head?, Makes (OnInput Q) (sh.call run c)) →
      Makes (OnInput Q) (sh.stages run calls)
  | [], _ => .pure (onInput_reporting course).toQuiet _
  | [last], first =>
    have quiet := (onInput_reporting course).toQuiet
    .bind quiet (.attempt (stage_makes quiet (first last rfl))) fun _ => .pure quiet _
  | c :: _ :: _, first =>
    have quiet := (onInput_reporting course).toQuiet
    .bind quiet (collect_onInput (stage_makes quiet (first c rfl))) fun _ =>
      .bind quiet (withInput_onInput course _ _) fun _ => .pure quiet _

/-- Only the last stage of a pipe writes to the session's output. -/
theorem stages_onOutput (course : Course R) :
    (calls : List Call) → (∀ c ∈ calls.getLast?, Makes (OnOutput R) (sh.call run c)) →
      Makes (OnOutput R) (sh.stages run calls)
  | [], _ => .pure (onOutput_reporting course).toQuiet _
  | [last], ends =>
    have quiet := (onOutput_reporting course).toQuiet
    .bind quiet (.attempt (stage_makes quiet (ends last rfl))) fun _ => .pure quiet _
  | _ :: next :: rest, ends =>
    have quiet := (onOutput_reporting course).toQuiet
    .bind quiet (collect_onOutput course _) fun _ =>
      .bind quiet (withInput_onOutput (stages_onOutput course (next :: rest) ends) _) fun _ =>
        .pure quiet _

theorem report_makes (reporting : Reporting P) (failure : Failure) :
    Makes P (Act.report failure : Act ε Unit) := by
  refine .bind reporting.toQuiet (.note reporting.toQuiet _ _) fun _ => ?_
  rintro s _ _ ⟨⟩
  exact reporting.report s failure

theorem stageFailures_makes (quiet : Quiet P) (i : Nat) (results : List (Except Failure Outcome)) :
    Makes P (Shell.stageFailures i results) := by
  induction results generalizing i with
  | nil => exact .pure quiet _
  | cons result results ih =>
    cases result with
    | ok outcome => exact ih (i + 1)
    | error e =>
      exact .ite (.bind quiet (.note quiet _ _) fun _ => ih (i + 1))
        (.bind quiet (ih (i + 1)) fun _ => .pure quiet _)

theorem reportAll_makes (reporting : Reporting P) (failures : List Failure) :
    Makes P (Shell.reportAll failures) := by
  induction failures with
  | nil => exact .pure reporting.toQuiet _
  | cons e rest ih => exact .bind reporting.toQuiet (report_makes reporting e) fun _ => ih

theorem settle_makes (reporting : Reporting P) (results : List (Except Failure Outcome)) :
    Makes P (Shell.settle results) := by
  have quiet := reporting.toQuiet
  refine .bind quiet (stageFailures_makes quiet 0 results) fun failures => ?_
  split
  · exact .bind quiet (reportAll_makes reporting _) fun _ => .pure quiet _
  · exact .throw quiet _
  · exact .pure quiet _

/-- A pipe changes its session as its stages do, or as its only call does. -/
theorem pipe_makes (reporting : Reporting P) {calls : List Call}
    (single : ∀ c, calls = [c] → Makes P (sh.call run c)) (made : Makes P (sh.stages run calls)) :
    Makes P (sh.pipe run calls) := by
  match calls with
  | [] => exact .pure reporting.toQuiet _
  | [c] => exact single c rfl
  | c :: next :: rest => exact .bind reporting.toQuiet made fun results => settle_makes reporting results

/-! Commands. -/

theorem evaluateAll_makes (reporting : Reporting P) {commands : List Command}
    (each : ∀ command ∈ commands, Makes P (sh.evaluate run command)) :
    Makes P (sh.evaluateAll run commands) := by
  have quiet := reporting.toQuiet
  induction commands with
  | nil => exact .pure quiet _
  | cons command rest ih =>
    obtain ⟨first, others⟩ := List.forall_mem_cons.mp each
    refine .bind quiet (.attempt first) fun result => ?_
    rcases result with e | _ | code
    · exact .bind quiet (report_makes reporting e) fun _ => ih others
    · exact ih others
    · exact .pure quiet _

/-- A command changes its session in a way that its pipes do, and that the calls
at their ends decide. -/
theorem evaluate_makes {pick : List Call → Option Call} (reporting : Reporting P)
    (single : ∀ c, pick [c] = some c)
    (pipes : ∀ calls, (∀ c ∈ pick calls, Makes P (sh.call run c)) → Makes P (sh.stages run calls)) :
    (command : Command) → (∀ c ∈ endCalls pick command, Makes P (sh.call run c)) →
      Makes P (sh.evaluate run command)
  | .call c, each => each c List.mem_cons_self
  | .pipe calls, each =>
    have ends (c : Call) (picked : c ∈ pick calls) : Makes P (sh.call run c) :=
      each c (by simpa [endCalls] using picked)
    pipe_makes reporting (by rintro c rfl; exact ends c (single c)) (pipes calls ends)
  | .sequence commands, each =>
    evaluateAll_makes reporting fun command member =>
      evaluate_makes reporting single pipes command fun c held =>
        each c (mem_endCallsOfAll.mpr ⟨command, member, held⟩)
termination_by command => sizeOf command
decreasing_by
  have less := List.sizeOf_lt_of_mem member
  simp only [Command.sequence.sizeOf_spec]
  omega

theorem evaluate_onInput (course : Course Q) {command : Command}
    (first : ∀ c ∈ firstCalls command, Makes (OnInput Q) (sh.call run c)) :
    Makes (OnInput Q) (sh.evaluate run command) :=
  evaluate_makes (onInput_reporting course) (fun _ => rfl) (stages_onInput course) command first

theorem evaluate_onOutput (course : Course R) {command : Command}
    (last : ∀ c ∈ lastCalls command, Makes (OnOutput R) (sh.call run c)) :
    Makes (OnOutput R) (sh.evaluate run command) :=
  evaluate_makes (onOutput_reporting course) (fun _ => rfl) (stages_onOutput course) command last

/-- No command makes a difference to a flush of the session's output. -/
theorem evaluate_sameFlush (sh : Shell) (left : Nat) (command : Command) :
    Makes (OnOutput SameFlush) (sh.evaluate (sh.substitute left) command) :=
  evaluate_onOutput sameFlush_course fun c _ => call_sameFlush c

/-- The streams of the session are touched only where a command says so. If all
calls that would write to the output have a sign for another one, nothing is
written to it; if all calls that would read the input have a sign for another one,
nothing is read of it; and in any case the bytes read are the first ones. A call is
prepared and then dispatched, and one that fails before it is dispatched has
touched neither stream. -/
theorem streams_touched_as_written (sh : Shell) :
    (∀ command s result s', (sh.evaluateTop command).start s = some (result, s') →
      ((∀ c ∈ lastCalls command, ">" ∈ c.tokens ∨ ">>" ∈ c.tokens) → s'.output = s.output) ∧
      ((∀ c ∈ firstCalls command, "<" ∈ c.tokens) → s'.input = s.input) ∧
      (∃ n, s'.input = s.input.skip n) ∧
      ∀ bytes fault, s.input = .stream bytes fault →
        ∃ consumed rest, bytes = consumed ++ rest ∧ s'.input = .stream rest fault) ∧
    ∀ left c,
      sh.call (sh.substitute left) c =
        prepare sh (sh.substitute left) c >>= Ready.dispatch ∧
      ∀ s e s', (prepare sh (sh.substitute left) c).start s = some (.error e, s') →
        (sh.call (sh.substitute left) c).start s = some (.error e, s') ∧
          s'.input = s.input ∧ s'.output = s.output := by
  constructor
  · intro command s result s' ran
    have advanced : ∃ n, s'.input = s.input.skip n :=
      evaluate_onInput advanced_course (fun c _ => call_advanced c) ran
    refine ⟨fun signed => ?_, fun signed => ?_, advanced, fun bytes fault input => ?_⟩
    · exact evaluate_onOutput same_course (fun c held => call_outputKept (signed c held)) ran
    · exact evaluate_onInput same_course (fun c held => call_inputKept (signed c held)) ran
    · obtain ⟨n, advanced⟩ := advanced
      rw [input] at advanced
      exact ⟨bytes.take n, bytes.drop n, (List.take_append_drop n bytes).symm, advanced⟩
  · intro left c
    refine ⟨call_eq sh _ c, fun s e s' failed => ⟨?_, prepare_apart sh left c failed⟩⟩
    rw [call_eq, start_bind, failed]

/-- A session with one file and something typed. -/
def typed : Session :=
  { disk := { entries := [(["f"], .file 0)], contents := [Text.bytes "b\na\n"] }
    input := .stream (Text.bytes "typed") none }

/-- A pipe from a file into a file, and a call of an unknown name, made after its
substitution has run. -/
theorem streams_of_redirected_pipe :
    (∃ result s', (({} : Shell).evaluateTop
        (.pipe [⟨["cat", "<", "f"]⟩, ⟨["sort", ">", "g"]⟩])).start typed = some (result, s') ∧
      s'.output = typed.output ∧ s'.input = typed.input) ∧
    ∃ e s', (({} : Shell).call (({} : Shell).substitute 1) ⟨["nosuch", "`cat f`"]⟩).start typed =
        some (.error e, s') ∧ s'.input = typed.input ∧ s'.output = typed.output := by
  have streams := streams_touched_as_written {}
  constructor
  · have ends : ((({} : Shell).evaluateTop
        (.pipe [⟨["cat", "<", "f"]⟩, ⟨["sort", ">", "g"]⟩])).start typed).isSome = true := by
      decide +kernel
    obtain ⟨⟨result, s'⟩, ran⟩ := Option.isSome_iff_exists.mp ends
    obtain ⟨output, input, -⟩ := streams.1 _ _ _ _ ran
    exact ⟨result, s', ran, output (by decide), input (by decide)⟩
  · have fails : ((prepare {} (({} : Shell).substitute 1) ⟨["nosuch", "`cat f`"]⟩).start typed).map
        (fun ended => ended.1.isOk) = some false := by
      decide +kernel
    obtain ⟨⟨result, s'⟩, ran, failed⟩ := Option.map_eq_some_iff.mp fails
    cases result with
    | ok ready => cases failed
    | error e => exact ⟨e, s', (streams.2 1 _).2 typed e s' ran⟩

end LineShell.AmbientStreams
