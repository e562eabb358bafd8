import LineShell.Proofs.SubstitutedWords

/-! A command in back quotes does what it does as a line of its own. Both evaluate
the same commands in the same order; the line reports every failure as it comes,
the substitution keeps the first one for the end. So the two runs show commands
the same session all the way, and their reports differ by that one failure. -/
namespace LineShell.SubstitutionLines
open Text LineRoundTrip StepAgreement SessionBonds EvaluationAgreement EchoLine SubstitutionFree
open SubstitutedWords

/-! The results of a line, command by command. -/

/-- What the commands of a sequence come to, as far as they are run. Each failure
is reported as it comes. -/
def results (sh : Shell) (run : Substitution) :
    List Command → Act Failure (List (Except Failure Outcome))
  | [] => pure []
  | command :: rest => do
    let result ← Act.attempt (sh.evaluate run command)
    Shell.reportAll (failureOf result)
    match result with
    | .ok (.exit code) => return [.ok (.exit code)]
    | result => (result :: ·) <$> results sh run rest

/-- The failures among results, in order. -/
def failures (results : List (Except Failure Outcome)) : List Failure := results.flatMap failureOf

/-- How a sequence ends, by its results. -/
def conclusion (results : List (Except Failure Outcome)) : Outcome :=
  match Shell.exitCode? results with
  | some code => .exit code
  | none => .proceed

variable {sh : Shell} {run : Substitution}

/-- A sequence is evaluated by running its commands for their results. -/
theorem evaluateAll_eq (commands : List Command) :
    sh.evaluateAll run commands = conclusion <$> results sh run commands := by
  induction commands with
  | nil => rfl
  | cons command rest ih =>
    rw [Shell.evaluateAll, results, map_bind]
    refine bind_congr fun result => ?_
    rcases result with e | _ | code
    · simp only [failureOf, Shell.reportAll, ih, map_bind, Functor.map_map, bind_assoc, pure_bind]
      rfl
    · simp only [failureOf, Shell.reportAll, ih, Functor.map_map, pure_bind]
      rfl
    · rfl

/-- What the commands of a line come to. -/
def lineResults (sh : Shell) (line : String) : Act Failure (List (Except Failure Outcome)) := do
  let command ← Shell.parse line
  results sh (sh.substitute sh.levels) (Shell.elements command)

/-- A line is evaluated by running its commands for their results, and a flush. -/
theorem evaluateLine_eq (line : String) :
    sh.evaluateLine line = (do
      let results ← lineResults sh line
      Act.mapError .io Act.flush
      return conclusion results) := by
  cases read : Command.parse line with
  | error fault =>
    simp only [Shell.evaluateLine, lineResults, Shell.parse, read]
    rfl
  | ok command =>
    obtain ⟨commands, rfl, -⟩ := LineLanguage.parse_parts read
    cases commands with
    | nil =>
      simp only [Shell.evaluateLine, lineResults, Shell.parse, read, pure_bind]
      rfl
    | cons first rest =>
      simp only [Shell.evaluateLine, lineResults, Shell.parse, read, bind_assoc, pure_bind,
        Shell.evaluateTop, Shell.evaluate, Shell.elements, evaluateAll_eq, map_eq_pure_bind]

/-! Two runs with different reports behind them. -/

/-- The sessions of two runs that began with different reports: commands see the
same in both, and the same was reported since. -/
structure Shift (left right : List Failure) (s t : Session) : Prop where
  disk : s.disk = t.disk
  cwd : s.cwd = t.cwd
  input : s.input = t.input
  output : s.output = t.output
  reports : ∃ new, s.reports = left ++ new ∧ t.reports = right ++ new

variable {left right reports : List Failure}

theorem shift_frame (left right : List Failure) : Frame (Shift left right) where
  like := {
    disk := fun _ _ rel => rel.disk
    cwd := fun _ _ rel => rel.cwd
    input := fun _ _ rel => rel.input
    setInput := fun _ _ rel input => { rel with input := rfl }
    write := by
      intro bs s t rel
      simp only [Act.start, Act.write, ExceptT.run, rel.disk, rel.output]
      split <;> exact .some ⟨rfl, { rel with disk := rfl, output := rfl }⟩
    flush := by
      intro s t rel
      simp only [Act.start, Act.flush, ExceptT.run, rel.output]
      split <;> exact .some ⟨rfl, rel⟩ }
  disks := fun _ _ rel disk => { rel with disk := rfl }
  cwds := fun _ _ rel cwd => { rel with cwd := rfl }
  journal := fun _ _ rel record => { rel with }
  outputs := {
    taken := fun _ _ rel => by rw [rel.output]
    replace := fun _ _ rel output => { rel with output := rfl }
    restore := fun _ _ _ _ rel rel' => { rel' with output := rel.output } }

theorem shift_reportFree (left right : List Failure) : ReportFree (Shift left right) := by
  intro s t rel failure
  obtain ⟨new, first, second⟩ := rel.reports
  exact { rel with reports := ⟨new ++ [failure], by simp [first], by simp [second]⟩ }

/-! Pipes that run no substitution. -/

/-- Stands for substitutions that are never run. -/
def idle : Substitution := fun _ => pure ""

theorem idle_runs (K : Bond) : Runs (fun _ => True) K idle idle := fun _ _ _ _ => .pure _

variable {commands : List Command} {s t : Session}

theorem evaluate_idle {pipe : Command} (free : BackFreeCommand pipe) :
    sh.evaluate run pipe = sh.evaluate idle pipe := by
  obtain ⟨calls, rfl, free⟩ := free
  refine evaluate_backFree sh fun token held => ?_
  obtain ⟨call, member, held⟩ := List.mem_flatMap.mp held
  exact free call member token held

theorem results_idle (free : ∀ pipe ∈ commands, BackFreeCommand pipe) :
    results sh run commands = results sh idle commands := by
  induction commands with
  | nil => rfl
  | cons pipe rest ih =>
    obtain ⟨first, others⟩ := List.forall_mem_cons.mp free
    rw [results, evaluate_idle first, ih others]
    rfl

theorem evaluateInner_idle (free : ∀ pipe ∈ commands, BackFreeCommand pipe) (held : Option Failure) :
    sh.evaluateInner run held commands = sh.evaluateInner idle held commands := by
  induction commands generalizing held with
  | nil => cases held <;> rfl
  | cons pipe rest ih =>
    obtain ⟨first, others⟩ := List.forall_mem_cons.mp free
    rw [Shell.evaluateInner, Shell.evaluateInner, evaluate_idle first]
    simp only [ih others]

theorem evaluate_shift {pipe : Command} (free : BackFreeCommand pipe) :
    Agrees (Shift left right) (sh.evaluate idle pipe) (sh.evaluate idle pipe) := by
  obtain ⟨calls, rfl, -⟩ := free
  have setting : Setting sh (fun _ => True) (.free (Shift left right)) _ :=
    frame_setting (shift_frame left right) trivial trivial sh _
  simp only [Shell.evaluate]
  exact agrees_free_iff.mp (pipe_agrees setting setting
    (fun _ _ rel failure _ => shift_reportFree _ _ rel failure) (idle_runs _) (idle_runs _)
    fun _ _ _ _ => trivial)

theorem evaluate_silent {pipe : Command} {result : Except Failure Outcome} {s' : Session}
    (free : BackFreeCommand pipe)
    (ran : (sh.evaluate idle pipe).start s = some (result, s'))
    (stays : ∀ code, result ≠ .ok (.exit code)) : s'.reports = s.reports := by
  obtain ⟨calls, rfl, -⟩ := free
  simp only [Shell.evaluate] at ran
  exact pipe_silent (fun _ => idle_runs _) ran stays

/-! The two runs, command by command. -/

/-- The ends of a line and of a substitution that may hold a failure: the
substitution fails with the failure held or else with the first one of the line,
which only the line has reported. -/
def Ends (held : Option Failure) (reports : List Failure)
    (own : Except Failure (List (Except Failure Outcome)) × Session)
    (inner : Except Failure Unit × Session) : Prop :=
  ∃ results, own.1 = .ok results ∧
    inner.1 = (held.or (failures results).head?).elim (.ok ()) .error ∧
    Shift (reports ++ (held.or (failures results).head?).toList) reports own.2 inner.2

/-- A result more before the results of the rest, whose run held its failure. -/
theorem ends_cons {act : Act Failure (List (Except Failure Outcome))} {held : Option Failure}
    {ended : Option (Except Failure Unit × Session)} {result : Except Failure Outcome}
    (rest : Option.Rel (Ends (held.or (failureOf result).head?) reports) (act.start s) ended) :
    Option.Rel (Ends held reports) (((result :: ·) <$> act).start s) ended := by
  rw [start_map]
  generalize act.start s = own at rest
  cases rest with
  | none => exact .none
  | some related =>
    obtain ⟨results, ok, failed, shift⟩ := related
    have first : (held.or (failureOf result).head?).or (failures results).head? =
        held.or (failures (result :: results)).head? := by
      rw [Option.or_assoc, failures, failures, List.flatMap_cons, List.head?_append]
    rw [first] at failed shift
    exact .some ⟨result :: results, congrArg (Except.map (result :: ·)) ok, failed, shift⟩

/-- Command by command the two runs stay together. Until a failure is held,
neither has reported anything. -/
theorem inner_rel (held : Option Failure) (free : ∀ pipe ∈ commands, BackFreeCommand pipe)
    (rel : Shift (reports ++ held.toList) reports s t) (silent : held = none → s.reports = reports) :
    Option.Rel (Ends held reports) ((results sh idle commands).start s)
      ((sh.evaluateInner idle held commands).start t) := by
  induction commands generalizing held s t with
  | nil => cases held <;> exact .some ⟨[], rfl, rfl, rel⟩
  | cons pipe rest ih =>
    obtain ⟨first, others⟩ := List.forall_mem_cons.mp free
    rw [results, Shell.evaluateInner]
    refine Agrees.attempt_bind (evaluate_shift first) rel fun result s' t' ran rel' => ?_
    have still (stays : ∀ code, result ≠ .ok (.exit code)) (nothing : held = none) :
        s'.reports = reports := (evaluate_silent first ran stays).trans (silent nothing)
    rcases result with e | _ | code
    · simp only [failureOf, Shell.reportAll, bind_assoc, pure_bind, start_bind, start_report]
      cases held with
      | none =>
        have kept := still (by simp) rfl
        refine ends_cons (ih (some e) others { rel' with reports := ⟨[], ?_, ?_⟩ } (by simp))
        · simp [kept]
        · obtain ⟨new, inOwn, inInner⟩ := rel'.reports
          have nothing : new = [] := by simpa [kept] using inOwn
          simp [inInner, nothing]
      | some e' =>
        have both := (shift_frame _ _).journal rel' ⟨.warn, e.message⟩
        exact ends_cons (ih (some e') others (shift_reportFree _ _ both e) (by simp))
    · have unheld : held.or (failureOf (.ok .proceed)).head? = held := by simp [failureOf]
      refine ends_cons ?_
      rw [unheld]
      exact ih held others rel' (still (by simp))
    · cases held <;> exact .some ⟨[.ok (.exit code)], rfl, rfl, rel'⟩

/-! The substitution around its commands, and the line around the substitution. -/

variable {text : String} {command : Command}

/-- A line that only writes what a text gives. -/
def echoLine (text : String) : String := "echo `" ++ text ++ "`"

theorem echoLine_eq (text : String) : echoLine text = join " " ["echo", backQuoted text] := by
  rw [← String.toList_inj, toList_join]
  simp [echoLine, backQuoted, joinWith, Quote.backMark]

/-- The session that the substitution of such a line starts from. -/
def substituting (s : Session) (text : String) : Session := opened s ⟨["echo", backQuoted text]⟩

/-- The session in which a text is a line of its own: without input, and on an
output that takes everything. -/
def alone (s : Session) : Session := { s with input := .empty, output := .unlimited }

/-- The sessions that a text leaves as a line of its own and as a substitution in
session `s`. The reports differ by the first failure, which the substitution
still holds. -/
structure Captured (s : Session) (results : List (Except Failure Outcome)) (own inner : Session) :
    Prop where
  disk : inner.disk = own.disk
  cwd : inner.cwd = own.cwd
  output : inner.output = s.output
  reports : ∃ new, own.reports = s.reports ++ (failures results).head?.toList ++ new ∧
    inner.reports = s.reports ++ new

/-- A substitution runs its commands alone and gives what they wrote. -/
theorem start_substitute (read : Command.parse text = .ok command) (levels : Nat) (t : Session) :
    ∃ journal, (sh.substitute (levels + 1) text).start t =
      ((sh.evaluateInner (sh.substitute levels) none (Shell.elements command)).start
        (noted (alone t) journal)).map fun inner =>
          (inner.1.map fun _ => stringLossy inner.2.output.taken,
            { inner.2 with input := t.input, output := t.output }) := by
  obtain ⟨journal, parsed⟩ := start_parse read t
  refine ⟨journal, ?_⟩
  simp only [Shell.substitute, start_bind, parsed, start_collect, start_withInput, noted, alone]
  generalize (sh.evaluateInner (sh.substitute levels) none (Shell.elements command)).start
    { t with input := .empty, output := .unlimited, journal } = ended
  rcases ended with _ | ⟨_ | _, _⟩ <;> rfl

/-- Neither run ends, or both do: the substitution gives what the line wrote, or
the first failure. -/
theorem substitute_cases (free : BackFree text) (read : Command.parse text = .ok command)
    (levels : 1 ≤ sh.levels) (s : Session) :
    ((lineResults sh text).start (alone s) = none ∧
        (sh.substitute sh.levels text).start (substituting s text) = none) ∨
      ∃ results own inner, (lineResults sh text).start (alone s) = some (.ok results, own) ∧
        (sh.substitute sh.levels text).start (substituting s text) = some
          ((failures results).head?.elim (.ok (stringLossy own.output.taken)) .error, inner) ∧
        Captured s results own inner := by
  obtain ⟨left, deep⟩ := Nat.exists_eq_add_of_le' levels
  obtain ⟨commands, rfl, pipes⟩ := parse_backFree free read
  obtain ⟨ownJournal, parsed⟩ := start_parse read (alone s)
  obtain ⟨innerJournal, substituted⟩ := start_substitute read left (substituting s text)
  have rel : Shift (s.reports ++ []) s.reports (noted (alone s) ownJournal)
      (noted (alone (substituting s text)) innerJournal) :=
    ⟨rfl, rfl, rfl, rfl, [], by simp [noted, alone, substituting, opened]⟩
  have ends : Option.Rel (Ends none s.reports) ((results sh idle commands).start _)
      ((sh.evaluateInner idle none commands).start _) := inner_rel none pipes rel fun _ => rfl
  have own : (lineResults sh text).start (alone s) =
      (results sh idle commands).start (noted (alone s) ownJournal) := by
    simp only [lineResults, start_bind, parsed, Shell.elements, results_idle pipes, noted]
  rw [own, deep, substituted, Shell.elements, evaluateInner_idle pipes]
  generalize (results sh idle commands).start _ = ownEnd at ends
  generalize (sh.evaluateInner idle none commands).start _ = innerEnd at ends
  cases ends with
  | none => exact .inl ⟨rfl, rfl⟩
  | @some ownEnd innerEnd related =>
    obtain ⟨_, own⟩ := ownEnd
    obtain ⟨results, rfl, failed, shift⟩ := related
    refine .inr ⟨results, own, { innerEnd.2 with input := s.input, output := s.output }, rfl, ?_,
      shift.disk.symm, shift.cwd.symm, rfl, shift.reports⟩
    dsimp only [Option.map]
    rw [failed, ← shift.output]
    cases (failures results).head? <;> rfl

section EchoLine

variable {p : Outlet} {s' : Session} (enabled : .echo ∈ sh.applications) (free : BackFree text)
  (unbroken : ¬ ('\n' ∈ text.toList ∨ '\r' ∈ text.toList))

include free unbroken in
theorem isWords_backQuoted : ∀ token ∈ [backQuoted text], IsWord token := by
  simpa using isWord_backQuoted free unbroken

include free in
theorem start_expandAll_backQuoted (run : Substitution) (s : Session) :
    (Word.expandAll run Shell.glob [backQuoted text]).start s =
      ((run text).start s).map fun ended =>
        (ended.1.map fun output => (blankWords output.toList).map String.ofList, ended.2) := by
  rw [expandAll_backQuoted run Shell.glob free, ← start_map, map_eq_pure_bind]

include enabled free unbroken

theorem echoLine_none
    (never : (sh.substitute sh.levels text).start (substituting s text) = none) :
    (sh.evaluateLine (echoLine text)).start s = none := by
  rw [echoLine_eq]
  refine line_echo_none enabled (isWords_backQuoted free unbroken) ?_
  rw [start_expandAll_backQuoted free]
  exact congrArg _ never

theorem echoLine_error {e : Failure}
    (failed : (sh.substitute sh.levels text).start (substituting s text) = some (.error e, s'))
    (flushes : s'.output.flush = none) :
    ∃ journal, (sh.evaluateLine (echoLine text)).start s =
      some (.ok .proceed, { s' with reports := s'.reports ++ [e], journal }) := by
  have expanded := start_expandAll_backQuoted free (sh.substitute sh.levels) (substituting s text)
  rw [failed] at expanded
  obtain ⟨result, journal, ran, proceeds⟩ :=
    line_echo_error enabled (isWords_backQuoted free unbroken) expanded
  rw [proceeds flushes, ← echoLine_eq] at ran
  exact ⟨journal, ran⟩

theorem echoLine_ok {output : String} {bs : Bytes}
    (gave : (sh.substitute sh.levels text).start (substituting s text) = some (.ok output, s'))
    (written : bs = bytes (join " " ((blankWords output.toList).map String.ofList) ++ "\n"))
    (outlet : s'.output = .outlet p) (takes : Takes p bs) :
    ∃ journal, (sh.evaluateLine (echoLine text)).start s =
      some (.ok .proceed, { printed s' p bs with journal }) := by
  have expanded := start_expandAll_backQuoted free (sh.substitute sh.levels) (substituting s text)
  rw [gave] at expanded
  obtain ⟨result, reports, journal, ran, proceeds⟩ :=
    line_echo enabled (isWords_backQuoted free unbroken) expanded written outlet
  obtain ⟨rfl, rfl⟩ := proceeds takes
  rw [← echoLine_eq] at ran
  exact ⟨journal, ran⟩

end EchoLine

/-- A text that cannot be read fails its substitution and changes nothing. -/
theorem start_substitute_unread {fault : LineFault} (read : Command.parse text = .error fault)
    (levels : 1 ≤ sh.levels) (t : Session) :
    (sh.substitute sh.levels text).start t = some (.error (.line fault), t) := by
  obtain ⟨left, deep⟩ := Nat.exists_eq_add_of_le' levels
  simp only [deep, Shell.substitute, Shell.parse, read]
  rfl

/-- A line ends in the session that its commands leave. -/
theorem start_evaluateLine_of_results {line : String} {results : List (Except Failure Outcome)}
    {own : Session} (traced : (lineResults sh line).start s = some (.ok results, own)) :
    ∃ result, (sh.evaluateLine line).start s = some (result, own) ∧
      (own.output.flush = none → result = .ok (conclusion results)) := by
  rw [evaluateLine_eq, start_bind, traced]
  exact start_flushed (conclusion results) own

theorem start_evaluateLine_of_never {line : String}
    (never : (lineResults sh line).start s = none) : (sh.evaluateLine line).start s = none := by
  rw [evaluateLine_eq, start_bind, never]

/-- A bare word that names no application fails. -/
theorem evaluate_unknown {sh : Shell} {name : String} (isWord : IsWord name)
    (allOrdinary : name.toList.all ordinary = true) (unknown : sh.find? name = none)
    (run : Substitution) :
    sh.evaluate run (.pipe [⟨[name]⟩]) = throw (.commandNotFound name) := by
  have signless : ∀ token ∈ [name], Token.redirect? token = none := by
    simpa using redirect?_of_isWord isWord
  have expanded : Word.expandAll run Shell.glob [name] = pure [name] := by
    simp [Word.expandAll, expand_ordinary run Shell.glob isWord.nonempty allOrdinary]
  simp only [Shell.evaluate, Shell.pipe, Shell.call, extract_signless signless, pure_bind, expanded,
    unknown]

/-- A text in back quotes does to the files and the directory what it does as a
line of its own, ends when that does, and never ends the session. Its words are
written if none of its commands failed; else nothing is, and its first failure is
reported last. -/
theorem substitution_agrees_with_own_line (sh : Shell) (text : String) (s : Session) (p : Outlet)
    (enabled : .echo ∈ sh.applications) (levels : 1 ≤ sh.levels) (output : s.output = .outlet p)
    (unlimited : p.room = none) (flushes : p.flushFails = false) (free : BackFree text)
    (unbroken : ¬ ('\n' ∈ text.toList ∨ '\r' ∈ text.toList)) :
    (∀ fault, Command.parse text = .error fault →
      ∃ s', (sh.evaluateLine (echoLine text)).start s = some (.ok .proceed, s') ∧
        s'.disk = s.disk ∧ s'.cwd = s.cwd ∧ s'.output = s.output ∧
        s'.reports = s.reports ++ [.line fault]) ∧
    (∀ command, Command.parse text = .ok command →
      (sh.evaluateLine text).start (alone s) = none →
      (sh.evaluateLine (echoLine text)).start s = none) ∧
    ∀ command result own, Command.parse text = .ok command →
      (sh.evaluateLine text).start (alone s) = some (result, own) →
      ∃ results s', (lineResults sh text).start (alone s) = some (.ok results, own) ∧
        (own.output.flush = none → result = .ok (conclusion results)) ∧
        (sh.evaluateLine (echoLine text)).start s = some (.ok .proceed, s') ∧
        s'.disk = own.disk ∧ s'.cwd = own.cwd ∧
        (failures results = [] → s'.reports = own.reports ∧ s'.output = .outlet { p with
          taken := p.taken ++
            bytes (join " " ((blankWords (decodeLossy own.output.taken)).map String.ofList) ++ "\n") }) ∧
        (∀ e later, failures results = e :: later → s'.output = s.output ∧
          ∃ others, own.reports = s.reports ++ e :: others ∧
            s'.reports = s.reports ++ others ++ [e]) := by
  have flushed : s.output.flush = none := by simp [output, Sink.flush, Outlet.flush, flushes]
  refine ⟨fun fault read => ?_, fun command read never => ?_, fun command result own read ran => ?_⟩
  · have failed := start_substitute_unread read levels (substituting s text)
    obtain ⟨journal, ran⟩ := echoLine_error enabled free unbroken failed flushed
    exact ⟨_, ran, rfl, rfl, rfl, rfl⟩
  · rcases substitute_cases free read levels s with
      ⟨-, inner⟩ | ⟨results, own, inner, traced, -, -⟩
    · exact echoLine_none enabled free unbroken inner
    · obtain ⟨result, ran, -⟩ := start_evaluateLine_of_results traced
      rw [never] at ran
      cases ran
  · rcases substitute_cases free read levels s with
      ⟨traced, -⟩ | ⟨results, own, inner, traced, substituted, captured⟩
    · rw [start_evaluateLine_of_never traced] at ran
      cases ran
    · obtain ⟨result', ran', concludes⟩ := start_evaluateLine_of_results traced
      obtain ⟨rfl, rfl⟩ := Prod.mk.inj (Option.some.inj (ran'.symm.trans ran))
      obtain ⟨new, inOwn, inInner⟩ := captured.reports
      cases failed : failures results with
      | nil =>
        rw [failed] at substituted inOwn
        obtain ⟨journal, echoed⟩ := echoLine_ok enabled free unbroken substituted rfl
          (captured.output.trans output) ⟨by simp [unlimited], flushes⟩
        refine ⟨results, _, traced, concludes, echoed, captured.disk, captured.cwd,
          fun _ => ⟨?_, ?_⟩, fun e later some => absurd (failed.symm.trans some) (by simp)⟩
        · simpa [printed, inInner] using inOwn.symm
        · simp [printed, Outlet.write, unlimited, stringLossy]
      | cons e later =>
        rw [failed] at substituted inOwn
        have held : inner.output.flush = none := by rw [captured.output, flushed]
        obtain ⟨journal, echoed⟩ := echoLine_error enabled free unbroken substituted held
        refine ⟨results, _, traced, concludes, echoed, captured.disk, captured.cwd,
          fun none => absurd (failed.symm.trans none) (by simp), fun e' later' same => ?_⟩
        obtain ⟨rfl, rfl⟩ := List.cons.inj (failed.symm.trans same)
        exact ⟨captured.output, new, by simpa using inOwn, by simp [inInner]⟩

/-- Two unknown commands: as a line of their own, and in back quotes. -/
theorem substitution_of_two_unknown_commands :
    (∃ own, (({} : Shell).evaluateLine "nope; nada").start (alone {}) = some (.ok .proceed, own) ∧
      own.reports = [.commandNotFound "nope", .commandNotFound "nada"]) ∧
    ∃ s', (({} : Shell).evaluateLine "echo `nope; nada`").start {} = some (.ok .proceed, s') ∧
      s'.disk = {} ∧ s'.cwd = [] ∧ s'.output = .unlimited ∧
      s'.reports = [.commandNotFound "nada", .commandNotFound "nope"] := by
  have nope : IsWord "nope" := by decide
  have nada : IsWord "nada" := by decide
  have read : Command.parse "nope; nada" =
      .ok (.sequence [.pipe [⟨["nope"]⟩], .pipe [⟨["nada"]⟩]]) := by
    have text : (Command.sequence [.pipe [⟨["nope"]⟩], .pipe [⟨["nada"]⟩]]).text = "nope; nada" := by
      decide
    rw [← text]
    refine parse_text_of_wellFormed ⟨_, rfl, ?_⟩
    simp [WellFormedPipe, WellFormedCall, nope, nada]
  obtain ⟨own, traced, reports, output, disk, cwd⟩ : ∃ own,
      (lineResults {} "nope; nada").start (alone {}) = some
        (.ok [.error (.commandNotFound "nope"), .error (.commandNotFound "nada")], own) ∧
      own.reports = [.commandNotFound "nope", .commandNotFound "nada"] ∧
      own.output = .unlimited ∧ own.disk = {} ∧ own.cwd = [] := by
    obtain ⟨journal, parsed⟩ := start_parse read (alone {})
    have first (run : Substitution) : ({} : Shell).evaluate run (.pipe [⟨["nope"]⟩]) = throw _ :=
      evaluate_unknown nope (by decide) (by decide) run
    have second (run : Substitution) : ({} : Shell).evaluate run (.pipe [⟨["nada"]⟩]) = throw _ :=
      evaluate_unknown nada (by decide) (by decide) run
    simp only [lineResults, start_bind, parsed, Shell.elements, results, start_attempt, first,
      second, start_throw, Option.map, failureOf, Shell.reportAll, start_report, start_pure,
      start_map, Except.map]
    exact ⟨_, rfl, rfl, rfl, rfl, rfl⟩
  obtain ⟨result, ran, concludes⟩ := start_evaluateLine_of_results traced
  obtain ⟨results, s', traced', -, echoed, sameDisk, sameCwd, -, failed⟩ :=
    (substitution_agrees_with_own_line {} "nope; nada" {} {} (by decide) (by decide) rfl rfl rfl
      (by unfold BackFree; decide) (by decide)).2.2 _ _ _ read ran
  obtain ⟨rfl⟩ := Except.ok.inj (Prod.mk.inj (Option.some.inj (traced'.symm.trans traced))).1
  obtain ⟨untouched, others, inOwn, inReports⟩ := failed _ _ rfl
  obtain ⟨-, rfl⟩ := List.cons.inj (reports.symm.trans inOwn)
  have line : echoLine "nope; nada" = "echo `nope; nada`" := by decide
  rw [concludes (by rw [output]; rfl)] at ran
  rw [line] at echoed
  exact ⟨⟨own, ran, reports⟩, s', echoed, sameDisk.trans disk, sameCwd.trans cwd, untouched,
    inReports⟩

end LineShell.SubstitutionLines
