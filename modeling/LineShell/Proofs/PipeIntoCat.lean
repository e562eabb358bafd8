import LineShell.Proofs.EchoLine
import LineShell.Proofs.JournalAside

/-! A pipe into `cat` does what the pipe does. The last stage runs on an output of
its own in place of the session's, and `cat` copies that output to the session's.
The stage cannot tell the two outputs apart, because neither refuses anything; and
what all stages come to is settled as before, because `cat` succeeds and no stage
stops for want of a reader. -/
namespace LineShell.PipeIntoCat
open StepAgreement SessionBonds ApplicationAgreement EvaluationAgreement JournalAside EchoLine

/-! What `cat` does with a stream. -/

/-- An output that takes everything and can be flushed. -/
structure Unlimited (p : Outlet) : Prop where
  room : p.room = none
  flushes : p.flushFails = false

/-- The outlet with more bytes taken. -/
def fed (p : Outlet) (bs : Bytes) : Outlet := { p with taken := p.taken ++ bs }

variable {p : Outlet} {bs : Bytes} {s : Session}

theorem fed_nil (p : Outlet) : fed p [] = p := by simp [fed]

theorem fed_fed (p : Outlet) (xs ys : Bytes) : fed (fed p xs) ys = fed p (xs ++ ys) := by
  simp [fed]

theorem Unlimited.fed (unlimited : Unlimited p) (bs : Bytes) : Unlimited (fed p bs) :=
  ⟨unlimited.room, unlimited.flushes⟩

theorem start_read_stream {n : Nat} (positive : 0 < n) (input : s.input = .stream bs none) :
    (Act.read n).start s = some (.ok (bs.take n), { s with input := .stream (bs.drop n) none }) := by
  rw [start_read, input]
  cases bs with
  | nil => simp [Source.read, Source.held, Source.fault, ← input]
  | cons b bs =>
    obtain ⟨n, rfl⟩ := Nat.exists_eq_add_of_lt positive
    simp [Source.read, Source.held, Source.skip, List.drop_eq_drop_iff]

theorem start_write_unlimited (unlimited : Unlimited p) (output : s.output = .outlet p) (bs : Bytes) :
    (Act.write bs).start s = some (.ok (), { s with output := .outlet (fed p bs) }) := by
  rw [start_write output]
  simp [Outlet.write, unlimited.room, fed]

/-- A copy of a stream takes all of it over, if it has rounds enough. -/
theorem start_pump_write (rounds : Nat) (unlimited : Unlimited p) (output : s.output = .outlet p)
    (input : s.input = .stream bs none) (enough : bs.length < rounds) :
    (Job.pump (fun () bs => Act.write bs) rounds ()).start s =
      some (.ok (), { s with input := .stream [] none, output := .outlet (fed p bs) }) := by
  induction rounds generalizing s p bs with
  | zero => omega
  | succ rounds ih =>
    rw [Job.pump, start_bind, start_read_stream (by decide) input]
    dsimp only
    cases bs with
    | nil =>
      simp [fed_nil, ← output]
    | cons b bs =>
      have some : ((b :: bs).take Job.chunk).isEmpty = false := rfl
      have rest : ((b :: bs).drop Job.chunk).length < rounds := by
        rw [List.length_drop]
        have positive : 0 < Job.chunk := by decide
        simp only [List.length_cons] at enough ⊢
        omega
      have whole : fed (fed p ((b :: bs).take Job.chunk)) ((b :: bs).drop Job.chunk) =
          fed p (b :: bs) := by
        rw [fed_fed, List.take_append_drop]
      have wrote := start_write_unlimited unlimited
        (s := { s with input := .stream ((b :: bs).drop Job.chunk) none }) output
      rw [some, if_neg Bool.false_ne_true, start_bind, wrote]
      dsimp only
      rw [ih (unlimited.fed _) rfl rfl rest, whole]

theorem start_copy (unlimited : Unlimited p) (output : s.output = .outlet p)
    (input : s.input = .stream bs none) :
    Cat.copy.start s =
      some (.ok (), { s with input := .stream [] none, output := .outlet (fed p bs) }) := by
  have enough : bs.length < (s.input.held s.disk).length + s.output.room?.getD 0 + 1 := by
    rw [input, Source.held]
    omega
  rw [Cat.copy, Job.ofIo, start_mapError, start_pumpAll,
    start_pump_write _ unlimited output input enough]
  rfl

theorem start_flush_unlimited (unlimited : Unlimited p) (output : s.output = .outlet p) :
    Act.flush.start s = some (.ok (), s) := by
  rw [start_flush, output]
  simp [Sink.flush, Outlet.flush, unlimited.flushes]

/-- `cat` without arguments copies its input to its output. -/
theorem start_cat (unlimited : Unlimited p) (output : s.output = .outlet p)
    (input : s.input = .stream bs none) :
    (Cat.run []).start s =
      some (.ok .proceed, { s with input := .stream [] none, output := .outlet (fed p bs) }) := by
  have copied := start_copy unlimited output input
  have flushed := start_flush_unlimited (unlimited.fed bs)
    (s := { s with input := .stream [] none, output := .outlet (fed p bs) }) rfl
  have step : (Act.attempt (do Cat.copyOperand "-"; return 0) : Job (Except Complaint Nat)).start s =
      some (.ok (.ok 0), { s with input := .stream [] none, output := .outlet (fed p bs) }) := by
    simp only [Cat.copyOperand, if_true, start_attempt, start_bind, copied, start_pure, Option.map]
  simp only [Cat.run, Job.options, Options.parse, start_bind, start_ofExcept, Options.operandsOr,
    Options.has, List.isEmpty_nil, if_true, List.contains_nil, Bool.false_eq_true, if_false,
    Cat.emitAll, step, start_pure, Job.flush, Job.ofIo, start_mapError, flushed, Option.map,
    Except.mapError, Job.settle]

variable {sh : Shell}

/-- The stage of a pipe that is `cat` alone. -/
def catCall : Call := ⟨["cat"]⟩

theorem start_stage_cat (run : Substitution) (enabled : .cat ∈ sh.applications)
    (unlimited : Unlimited p) (output : s.output = .outlet p) (input : s.input = .stream bs none) :
    ∃ journal, (sh.stage run catCall).start s = some (.ok .proceed,
      { s with input := .stream [] none, output := .outlet (fed p bs), journal }) := by
  have called : sh.call run catCall = (do
      let words ← Word.expandAll run Shell.glob []
      Act.note .debug ("run: " ++ Text.ShellWord.line ("cat" :: words))
      Shell.launch .cat words) := call_named run enabled (by simp)
  let journal := s.journal ++ [⟨.debug, "run: " ++ Text.ShellWord.line ["cat"]⟩]
  let copied := { s with input := .stream [] none, output := .outlet (fed p bs), journal }
  have ran : (Application.run .cat []).start { s with journal } = some (.ok .proceed, copied) :=
    start_cat unlimited output input
  have flushed : Act.flush.start copied = some (.ok (), copied) :=
    start_flush_unlimited (unlimited.fed bs) rfl
  refine ⟨journal, ?_⟩
  simp only [Shell.stage, called, Word.expandAll, pure_bind, start_bind, start_attempt, start_note,
    Shell.launch]
  simp only [journal] at ran
  simp only [ran, flushed, Option.map, start_pure, start_ofExcept, copied, journal]

/-! The last stage, on the session's output and on one of its own. -/

/-- Every trouble but a reader that has gone away. -/
def Unbroken (trouble : Trouble) : Prop := trouble ≠ .gone

/-- The sessions of two runs, of which the first writes to an output that had
taken something before, and the second to one of its own. -/
structure Tapped (p : Outlet) (s t : Session) : Prop where
  same : ∃ written journal, s = { t with output := .outlet (fed p written), journal } ∧
    t.output = .outlet (fed {} written)
  sound : ∀ e, t.input.fault = some e → e.isBrokenPipe = true → Unbroken .gone

def tapped (p : Outlet) : Bond := ⟨Tapped p, Unbroken⟩

theorem tapped_like (unlimited : Unlimited p) : (tapped p).Like where
  disk := by rintro s t ⟨⟨_, _, rfl, _⟩, _⟩; rfl
  cwd := by rintro s t ⟨⟨_, _, rfl, _⟩, _⟩; rfl
  input := by rintro s t ⟨⟨_, _, rfl, _⟩, _⟩; rfl
  fault := by
    rintro s t ⟨⟨_, _, rfl, _⟩, sound⟩ e failed
    exact bears_io (sound e failed)
  setInput := by
    rintro s t ⟨⟨written, journal, rfl, output⟩, _⟩ input borne
    refine ⟨⟨written, journal, rfl, output⟩, fun e failed broken => borne e failed _ ?_⟩
    simp only [Fault.trouble?, broken, if_true]
  write := by
    rintro bs s t ⟨⟨written, journal, rfl, output⟩, sound⟩
    rw [start_write_unlimited (unlimited.fed written) rfl, start_write_unlimited ⟨rfl, rfl⟩ output,
      fed_fed, fed_fed]
    exact .both (admits_ok ()) ⟨⟨written ++ bs, journal, rfl, rfl⟩, sound⟩
  flush := by
    rintro s t ⟨⟨written, journal, rfl, output⟩, sound⟩
    rw [start_flush_unlimited (unlimited.fed written) rfl, start_flush_unlimited ⟨rfl, rfl⟩ output]
    exact .both (admits_ok ()) ⟨⟨written, journal, rfl, output⟩, sound⟩
  unfed := .inl nofun

theorem tapped_disks : DiskFree (tapped p).Rel := by
  rintro s t ⟨⟨written, journal, rfl, output⟩, sound⟩ disk
  exact ⟨⟨written, journal, rfl, output⟩, sound⟩

theorem tapped_cwds : CwdFree (tapped p).Rel := by
  rintro s t ⟨⟨written, journal, rfl, output⟩, sound⟩ cwd
  exact ⟨⟨written, journal, rfl, output⟩, sound⟩

theorem tapped_journal : JournalFree (tapped p).Rel := by
  rintro s t ⟨⟨written, journal, rfl, output⟩, sound⟩ record
  exact ⟨⟨written, journal ++ [record], rfl, output⟩, sound⟩

theorem tapped_setting (unlimited : Unlimited p) (sh : Shell) (Fit : String → Prop) :
    Setting sh Fit (tapped p) (alike Unbroken True) where
  like := tapped_like unlimited
  journal := tapped_journal
  around := {
    collect := by
      rintro s t ⟨⟨_, journal, rfl, _⟩, sound⟩
      exact ⟨⟨journal, rfl⟩, smooth_unlimited, sound⟩
    leave := by
      rintro s t s' t' ⟨⟨written, _, rfl, output⟩, _⟩ ⟨⟨journal, rfl⟩, _, sound⟩
      exact ⟨⟨written, journal, rfl, output⟩, sound⟩
    taken := by rintro s t ⟨⟨_, rfl⟩, _, _⟩; rfl
    may := fun _ may => may }
  apps := fun app _ args =>
    run_agrees (tapped_like unlimited) tapped_disks tapped_cwds tapped_journal nofun app args
  writes := fun _ _ _ => {
    disks := tapped_disks
    redirect := by
      rintro s t ⟨⟨_, journal, rfl, _⟩, sound⟩ id pos
      exact ⟨⟨journal, rfl⟩, trivial, sound⟩ }

theorem unbroken_setting (sh : Shell) (Files : Prop) :
    Setting sh (fun _ => True) (alike Unbroken Files) (alike Unbroken True) :=
  alike_setting nofun sh _

theorem unbroken_runs (sh : Shell) (left : Nat) (Files : Prop) :
    Runs (fun _ => True) (alike Unbroken Files) (sh.substitute left) (sh.substitute left) :=
  alike_runs nofun nofun sh left

/-- The last stage of a pipe does the same on either output. -/
theorem tapped_stage (unlimited : Unlimited p) (sh : Shell) (left : Nat) (c : Call) :
    (tapped p).Agrees (sh.stage (sh.substitute left) c) (sh.stage (sh.substitute left) c) := by
  have outside := tapped_setting unlimited sh fun _ => True
  have runs := substitute_agrees outside (unbroken_setting sh True) alike_reports nofun
    (fun _ _ _ _ _ _ _ _ => trivial) left
  exact stage_agrees outside (unbroken_setting sh True) runs fun _ _ => trivial

/-! The stages of the longer pipe, and what they come to. -/

/-- The results of stages with that of `cat` after them. -/
def withCat (results : List (Except Failure Outcome)) : List (Except Failure Outcome) :=
  results ++ [.ok .proceed]

theorem withInput_map {ε α β : Type} (f : α → β) (input : Source) (act : Act ε α) :
    Act.withInput input (f <$> act) = f <$> Act.withInput input act := by
  funext s
  change (Act.withInput input (f <$> act)).start s = (f <$> Act.withInput input act).start s
  rw [start_withInput, start_map, start_map, start_withInput, Option.map_map, Option.map_map]
  rfl

section Stages

variable (enabled : .cat ∈ sh.applications) (left : Nat)

include enabled

/-- One stage and `cat`. -/
theorem stages_one_cat (c : Call) :
    (alike Unbroken False).Agrees (sh.stages (sh.substitute left) [c, catCall])
      (withCat <$> sh.stages (sh.substitute left) [c]) := by
  rintro s t ⟨⟨journal, rfl⟩, smooth, sound⟩
  cases output : t.output with
  | file id pos =>
    rw [output] at smooth
    cases smooth
  | outlet p =>
    rw [output] at smooth
    have unlimited : Unlimited p := ⟨smooth.2.resolve_left fun may => may rfl, smooth.1⟩
    have rel : Tapped p t { t with output := .unlimited, journal } :=
      ⟨⟨[], t.journal, by rw [fed_nil, ← output], rfl⟩, sound⟩
    -- The stage on the session's own output, and on the one that is collected.
    have ends := tapped_stage unlimited sh left c rel
    simp only [Shell.stages, start_bind, start_map, start_collect, start_attempt]
    generalize (sh.stage (sh.substitute left) c).start t = own at ends ⊢
    generalize (sh.stage (sh.substitute left) c).start { t with output := .unlimited, journal } =
      collected at ends ⊢
    cases ends with
    | never may => exact .never may
    | @both result own collected admitted rel' =>
      obtain ⟨⟨written, journal', rfl, taken⟩, sound'⟩ := rel'
      -- What was collected is all that the first output got, and `cat` adds it there.
      obtain ⟨journal'', copied⟩ := start_stage_cat (sh.substitute left) enabled unlimited
        (s := { collected with input := .stream written none, output := .outlet p }) rfl rfl
      have bytes : collected.output.taken = written := by rw [taken]; rfl
      simp only [Option.map, bytes, start_withInput, start_bind, start_attempt, copied,
        start_pure]
      exact .both (admits_ok _) ⟨⟨journal'', rfl⟩, ⟨smooth.1, .inr unlimited.room⟩, sound'⟩

/-- `cat` after the last stage adds a result, and nothing else. -/
theorem stages_cat : (calls : List Call) → calls ≠ [] →
    (alike Unbroken False).Agrees (sh.stages (sh.substitute left) (calls ++ [catCall]))
      (withCat <$> sh.stages (sh.substitute left) calls)
  | [], nonempty => absurd rfl nonempty
  | [c], _ => stages_one_cat enabled left c
  | c :: next :: rest, _ => by
    have later := stages_cat (next :: rest) (by simp)
    have inside := unbroken_setting sh True
    have outside := unbroken_setting sh False
    simp only [List.cons_append, Shell.stages, map_bind]
    refine .collect_bind outside.around
      (stage_agrees inside inside (unbroken_runs sh left True) fun _ _ => trivial)
      fun result bytes _ => ?_
    have fed : (alike Unbroken False).Agrees (Act.withInput (.stream bytes none) _) _ :=
      .withInput outside.like.toLook rfl later
    rw [withInput_map, map_eq_pure_bind] at fed
    have longer := Bond.Agrees.bind fed fun results => .pure (ε := Failure) (result :: results)
    simpa only [bind_assoc, pure_bind, map_pure, withCat, List.cons_append] using longer

end Stages

/-! What the results come to. -/

theorem unbroken_of_bears {K : Bond} (ruled : ¬ K.May .gone) {e : Failure} (borne : K.Bears e) :
    e.isBrokenPipe = false := by
  cases broken : e.isBrokenPipe with
  | false => rfl
  | true =>
    refine absurd (borne .gone ?_) ruled
    cases e with
    | tooDeep limit => cases broken
    | _ => simp only [Fault.trouble?, broken, if_true]

/-- Where no stage stops for want of a reader, every failure counts. -/
theorem stageFailures_unbroken {results : List (Except Failure Outcome)}
    (unbroken : ∀ e, .error e ∈ results → e.isBrokenPipe = false) (i : Nat) :
    Shell.stageFailures i results = pure (results.flatMap failureOf) := by
  induction results generalizing i with
  | nil => rfl
  | cons result results ih =>
    have later := ih (fun e held => unbroken e (List.mem_cons_of_mem _ held)) (i + 1)
    cases result with
    | ok outcome => simpa [Shell.stageFailures, failureOf] using later
    | error e =>
      have here := unbroken e List.mem_cons_self
      simp [Shell.stageFailures, here, later, failureOf]

theorem exitCode?_withCat (results : List (Except Failure Outcome)) :
    Shell.exitCode? (withCat results) = Shell.exitCode? results := by
  induction results with
  | nil => rfl
  | cons result results ih =>
    rcases result with e | _ | code <;> simp_all [withCat, Shell.exitCode?]

theorem settle_withCat {results : List (Except Failure Outcome)}
    (unbroken : ∀ e, .error e ∈ results → e.isBrokenPipe = false) :
    Shell.settle (withCat results) = Shell.settle results := by
  have longer : ∀ e, .error e ∈ withCat results → e.isBrokenPipe = false := by
    simpa [withCat] using unbroken
  have failures : (withCat results).flatMap failureOf = results.flatMap failureOf := by
    simp [withCat, failureOf]
  simp only [Shell.settle, stageFailures_unbroken longer, stageFailures_unbroken unbroken, failures,
    exitCode?_withCat]

/-- One result is settled as it is. -/
theorem settle_singleton (result : Except Failure Outcome) :
    Shell.settle [result] = Act.ofExcept result := by
  rcases result with e | _ | code <;> rfl

theorem attempt_bind_ofExcept {ε α : Type} (act : Act ε α) :
    (Act.attempt act >>= Act.ofExcept : Act ε α) = act := by
  funext s
  change (Act.attempt act >>= Act.ofExcept : Act ε α).start s = act.start s
  rw [start_bind, start_attempt]
  rcases act.start s with _ | ⟨result, s'⟩ <;> rfl

section Pipes

variable (sh) (left : Nat)

/-- A stage alone flushes once more than its call. -/
theorem stage_agrees_call (c : Call) :
    (alike Unbroken False).Agrees (sh.stage (sh.substitute left) c)
      (sh.call (sh.substitute left) c) := by
  have called : (alike Unbroken False).Agrees (sh.call (sh.substitute left) c) _ :=
    call_agrees (unbroken_setting sh False) (unbroken_setting sh True) (unbroken_runs sh left False)
      fun _ _ => trivial
  have agrees : (alike Unbroken False).Agrees (sh.stage (sh.substitute left) c)
      (Act.attempt (sh.call (sh.substitute left) c) >>= Act.ofExcept) := by
    refine .attempt_bind called fun result admitted =>
      .skip (b := .ok ()) (fun s t rel => ⟨s, ?_, rel⟩) ?_
    · rw [start_attempt, Alike.start_flush rel]
      rfl
    · cases result <;> exact .ofExcept admitted
  rwa [attempt_bind_ofExcept] at agrees

/-- One call is run as a call or as a pipe of one stage. -/
theorem single_agrees (c : Call) :
    (alike Unbroken False).Agrees (sh.stages (sh.substitute left) [c] >>= Shell.settle)
      (sh.pipe (sh.substitute left) [c]) := by
  have agrees : (alike Unbroken False).Agrees (sh.stages (sh.substitute left) [c] >>= Shell.settle)
      (Act.attempt (sh.call (sh.substitute left) c) >>= Act.ofExcept) := by
    simp only [Shell.stages, bind_assoc, pure_bind, settle_singleton]
    exact .attempt_bind (stage_agrees_call sh left c) fun result admitted => .ofExcept admitted
  rwa [attempt_bind_ofExcept] at agrees

/-- The stages of a pipe, settled, are the pipe, however few they are. -/
theorem stages_settle_agrees {calls : List Call} (nonempty : calls ≠ []) :
    (alike Unbroken False).Agrees (sh.stages (sh.substitute left) calls >>= Shell.settle)
      (sh.pipe (sh.substitute left) calls) := by
  match calls, nonempty with
  | [c], _ => exact single_agrees sh left c
  | c :: next :: rest, _ =>
    have agrees : (alike Unbroken False).Agrees
        (sh.pipe (sh.substitute left) (c :: next :: rest)) _ :=
      pipe_agrees (unbroken_setting sh False) (unbroken_setting sh True) alike_reports
        (unbroken_runs sh left False) (unbroken_runs sh left True) fun _ _ _ _ => trivial
    exact agrees

theorem settle_agrees {results : List (Except Failure Outcome)}
    (admitted : ∀ result ∈ results, (alike Unbroken False).Admits result) :
    (alike Unbroken False).Agrees (Shell.settle results) (Shell.settle results) :=
  settleStages_agrees alike_journal alike_reports admitted

/-- No stage of a pipe stops for want of a reader. -/
theorem stages_unbroken (calls : List Call) :
    (alike Unbroken False).Yields
      (fun results => ∀ result ∈ results, (alike Unbroken False).Admits result)
      (sh.stages (sh.substitute left) calls) :=
  stages_yields (unbroken_setting sh False) (unbroken_setting sh True) (unbroken_runs sh left False)
    (unbroken_runs sh left True) calls fun _ _ _ _ => trivial

/-- The longer pipe settles the results of the shorter one and that of `cat`. -/
theorem pipe_agrees_withCat {calls : List Call} (enabled : .cat ∈ sh.applications)
    (nonempty : calls ≠ []) :
    (alike Unbroken False).Agrees (sh.pipe (sh.substitute left) (calls ++ [catCall]))
      (sh.stages (sh.substitute left) calls >>= fun results => Shell.settle (withCat results)) := by
  have piped : sh.pipe (sh.substitute left) (calls ++ [catCall]) =
      sh.stages (sh.substitute left) (calls ++ [catCall]) >>= Shell.settle := by
    match calls, nonempty with
    | [c], _ => rfl
    | c :: next :: rest, _ => rfl
  have agrees := Bond.Agrees.bind_yields (stages_cat enabled left calls nonempty)
    (stages_unbroken sh left (calls ++ [catCall])) fun results admitted => settle_agrees admitted
  rw [piped]
  simpa only [map_eq_pure_bind, bind_assoc, pure_bind] using agrees

/-- The result of `cat` makes no difference. -/
theorem withCat_agrees (calls : List Call) :
    (alike Unbroken False).Agrees
      (sh.stages (sh.substitute left) calls >>= fun results => Shell.settle (withCat results))
      (sh.stages (sh.substitute left) calls >>= Shell.settle) := by
  refine .bind_yields (stages_agrees (unbroken_setting sh False) (unbroken_setting sh True)
    (unbroken_runs sh left False) (unbroken_runs sh left True) calls fun _ _ _ _ => trivial)
    (stages_unbroken sh left calls) fun results admitted => ?_
  have unbroken (e : Failure) (held : .error e ∈ results) : e.isBrokenPipe = false :=
    unbroken_of_bears (K := alike Unbroken False) (fun may => may rfl) (admitted _ held e rfl)
  rw [settle_withCat unbroken]
  exact settle_agrees admitted

theorem pipe_cat_agrees {calls : List Call} (enabled : .cat ∈ sh.applications)
    (nonempty : calls ≠ []) :
    (alike Unbroken False).Agrees (sh.pipe (sh.substitute left) (calls ++ [catCall]))
      (sh.pipe (sh.substitute left) calls) :=
  agrees_trans (pipe_agrees_withCat sh left enabled nonempty)
    (agrees_trans (withCat_agrees sh left calls) (stages_settle_agrees sh left nonempty))

end Pipes

/-- A pipe into `cat` does what the pipe does: the single stage on the session's
own streams and the stages of a longer pipe come to the same, whether they
succeed, fail, end the session or redirect their output. -/
theorem pipe_into_cat_is_identity (sh : Shell) (calls : List Call) (s : Session) (p : Outlet)
    (enabled : .cat ∈ sh.applications) (nonempty : calls ≠ []) (output : s.output = .outlet p)
    (unlimited : p.room = none) (flushes : p.flushFails = false)
    (unbroken : ∀ e, s.input.fault = some e → e.isBrokenPipe = false) :
    EndAlike ((sh.evaluateTop (.pipe (calls ++ [⟨["cat"]⟩]))).start s)
      ((sh.evaluateTop (.pipe calls)).start s) := by
  have smooth : Smooth Unbroken False s.output := by
    rw [output]
    exact ⟨flushes, .inr unlimited⟩
  refine endAlike_of_agrees (pipe_cat_agrees sh sh.levels enabled nonempty) smooth
    fun e failed broken => ?_
  rw [unbroken e failed] at broken
  cases broken

/-- A stage that writes and one that fails, with `cat` after them. -/
theorem failing_pipe_into_cat :
    EndAlike
        ((({} : Shell).evaluateTop
          (.pipe [⟨["echo", "x"]⟩, ⟨["cat", "-", "nope"]⟩, ⟨["cat"]⟩])).start {})
        ((({} : Shell).evaluateTop (.pipe [⟨["echo", "x"]⟩, ⟨["cat", "-", "nope"]⟩])).start {}) ∧
      ((({} : Shell).evaluateTop (.pipe [⟨["echo", "x"]⟩, ⟨["cat", "-", "nope"]⟩])).start {}).map
          (fun ended => (ended.1, ended.2.output)) =
        some (.error (.application "cat" (.noSuchFile "nope")),
          .outlet { taken := Text.bytes "x\n" }) :=
  ⟨pipe_into_cat_is_identity {} [⟨["echo", "x"]⟩, ⟨["cat", "-", "nope"]⟩] {} {} (by decide)
    (by simp) rfl rfl rfl nofun, by decide +kernel⟩

end LineShell.PipeIntoCat
