import LineShell.Proofs.AmbientStreams
import LineShell.Proofs.EchoLine
import LineShell.Proofs.Sequencing

/-! Where a request for the end of the session goes. The only application that asks
for it is `exit`, with code zero. Its call passes the request on if its output can be
flushed, and then a pipe, a sequence and a line pass it on, too: a pipe after all its
stages have ended and the failures that count are reported, and a sequence without
another look at the commands after it. Where the output cannot be flushed the call
fails instead, and the request is lost. -/
namespace LineShell.ExitOutcome
open StepAgreement SessionBonds ApplicationAgreement EvaluationAgreement CallDispatch AmbientStreams
open Sequencing EchoLine

variable {ε α β : Type}

/-! Outcomes of applications. -/

/-- Every value that the step can give is of this kind. -/
def Only (Kind : α → Prop) (act : Act ε α) : Prop := ∀ a, Gives act a → Kind a

/-- The command does not end the session. -/
def Stays (outcome : Outcome) : Prop := outcome = .proceed

namespace Only

variable {Kind : α → Prop} {act other : Act ε α}

theorem pure {a : α} (kind : Kind a) : Only Kind (Pure.pure a : Act ε α) := by
  intro b given
  rw [gives_pure given]
  exact kind

theorem throw (e : ε) : Only Kind (MonadExcept.throw e : Act ε α) :=
  fun _ given => absurd given not_gives_throw

/-- What a step comes to is decided by its last part. -/
theorem bind {first : Act ε β} {next : β → Act ε α} (rest : ∀ b, Only Kind (next b)) :
    Only Kind (first >>= next) := by
  intro a given
  obtain ⟨b, -, given⟩ := gives_bind given
  exact rest b a given

theorem ite {c : Prop} [Decidable c] (yes : Only Kind act) (no : Only Kind other) :
    Only Kind (if c then act else other) := by
  split
  · exact yes
  · exact no

/-- A step that may stop with an error before it goes on. -/
theorem guard {γ : Type} {c : Prop} [Decidable c] {e : ε} {k : γ → Act ε α}
    (goesOn : Only Kind act) : Only Kind (if c then (MonadExcept.throw e : Act ε γ) >>= k else act) := by
  refine ite (fun a given => ?_) goesOn
  obtain ⟨_, thrown, -⟩ := gives_bind given
  exact absurd thrown not_gives_throw

end Only

theorem settle_stays (complaint : Option Complaint) : Only Stays (Job.settle complaint) := by
  cases complaint with
  | none => exact .pure rfl
  | some c => exact .throw c

/-- Every application but `exit` lets the session go on. -/
theorem run_stays {app : Application} (other : app ≠ .exit) (args : List String) :
    Only Stays (app.run args) := by
  cases app with
  | cat => exact .bind fun _ => .bind fun _ => .bind fun _ => settle_stays _
  | cd =>
    change Only Stays (Cd.run args)
    unfold Cd.run
    split
    · exact .throw _
    · exact .guard (.bind fun _ => .bind fun _ => .guard (.guard (.bind fun _ => .pure rfl)))
    · exact .throw _
  | cp | mv =>
    refine .bind fun o => ?_
    split
    · exact .throw _
    · exact .throw _
    · exact .bind fun _ => .bind fun _ => .guard (.bind fun _ => settle_stays _)
  | cut =>
    refine .bind fun o => .guard (.guard ?_)
    split
    · exact .throw _
    · split
      · exact .throw _
      · exact .bind fun _ => .bind fun _ => .pure rfl
  | echo => exact .bind fun _ => .pure rfl
  | exit => exact absurd rfl other
  | grep =>
    refine .bind fun o => ?_
    split
    · exact .throw _
    · split
      · exact .bind fun _ => .bind fun _ => settle_stays _
      · exact .throw _
  | ls =>
    refine .bind fun o => .bind fun s => ?_
    dsimp only
    split
    · exact .throw _
    · exact .bind fun _ => .pure rfl
  | paste | sort => exact .bind fun _ => .bind fun _ => .bind fun _ => .pure rfl
  | rm => exact .bind fun _ => .guard (.bind fun _ => settle_stays _)
  | tee => exact .bind fun _ => .bind fun _ => .bind fun _ => .bind fun _ => settle_stays _
  | uniq =>
    refine .bind fun o => ?_
    split
    · exact .throw _
    · rename_i input output _
      refine .guard (.bind fun bs => ?_)
      cases output with
      | none => exact .bind fun _ => .pure rfl
      | some name => exact .bind fun _ => .pure rfl
  | wc =>
    exact .bind fun _ => .ite (.bind fun _ => .bind fun _ => .pure rfl)
      (.bind fun _ => .bind fun _ => settle_stays _)

/-- The session goes on, or ends with code zero. -/
def StaysOrEnds (outcome : Outcome) : Prop := outcome = .proceed ∨ outcome = .exit 0

theorem run_outcome (app : Application) (args : List String) :
    Only StaysOrEnds (app.run args) := by
  by_cases exits : app = .exit
  · subst exits
    exact .pure (.inr rfl)
  · exact fun outcome given => .inl (run_stays exits args outcome given)

/-- What comes after a step that was tried may give the step's own value. -/
theorem only_attempt {Kind : α → Prop} {act : Act ε α} {ε' : Type} {k : Except ε α → Act ε' α}
    (kind : Only Kind act) (rest : ∀ result, (∀ a, result = .ok a → Kind a) → Only Kind (k result)) :
    Only Kind (Act.attempt act >>= k) := by
  intro a given
  obtain ⟨result, tried, given⟩ := gives_bind given
  refine rest result (fun b same => ?_) a given
  subst same
  exact kind b (attempt_given tried)

theorem launch_outcome (app : Application) (args : List String) :
    Only StaysOrEnds (Shell.launch app args) := by
  refine only_attempt (run_outcome app args) fun result kind => .bind fun flushed => ?_
  split
  · exact .throw _
  · exact .throw _
  · exact .pure (kind _ rfl)

variable {sh : Shell} {run : Substitution}

theorem within_given {r : Redirection} {act : Act ε α} {a : α} (given : Gives (r.within act) a) :
    Gives act a := by
  have fed {input : Source} {act : Act ε α} (given : Gives (Act.withInput input act) a) :
      Gives act a := by
    obtain ⟨s, s', ran⟩ := given
    rw [start_withInput, Option.map_eq_some_iff] at ran
    obtain ⟨⟨result, t⟩, ran, same⟩ := ran
    cases same
    exact ⟨_, t, ran⟩
  have drained {output : Sink} {act : Act ε α} (given : Gives (Act.withOutput output act) a) :
      Gives act a := by
    obtain ⟨s, s', ran⟩ := given
    rw [start_withOutput, Option.map_eq_some_iff] at ran
    obtain ⟨⟨result, t⟩, ran, same⟩ := ran
    cases same
    exact ⟨_, t, ran⟩
  obtain ⟨rest, input, output⟩ := r
  cases input <;> cases output
  · exact given
  · exact drained given
  · exact fed given
  · exact fed (drained given)

theorem call_outcome (sh : Shell) (run : Substitution) (c : Call) :
    Only StaysOrEnds (sh.call run c) := by
  rw [call_eq]
  exact .bind fun ready => .bind fun _ => fun outcome given =>
    launch_outcome ready.app ready.args outcome (within_given given)

theorem ofExcept_given {result : Except ε α} {a : α} (given : Gives (Act.ofExcept result) a) :
    result = .ok a := by
  obtain ⟨s, s', ran⟩ := given
  cases ran
  rfl

theorem stage_outcome (sh : Shell) (run : Substitution) (c : Call) :
    Only StaysOrEnds (sh.stage run c) := by
  refine only_attempt (call_outcome sh run c) fun result kind => .bind fun flushed => ?_
  split
  · exact .ite (.pure (kind _ rfl)) (.throw _)
  · exact fun outcome given => kind outcome (ofExcept_given given)

/-- A result that does not end the session, or ends it with code zero. -/
def Fine (result : Except Failure Outcome) : Prop := ∀ outcome, result = .ok outcome → StaysOrEnds outcome

/-- The stages of a pipe end after the first one has ended on an output of its own
and the others on what it wrote. -/
theorem stages_cons {c next : Call} {rest : List Call} {s s' : Session} {results}
    (ran : (sh.stages run (c :: next :: rest)).start s = some (.ok results, s')) :
    ∃ result t later u,
      (sh.stage run c).start { s with output := .unlimited } = some (result, t) ∧
      (sh.stages run (next :: rest)).start
          { t with input := .stream t.output.taken none, output := s.output } = some (.ok later, u) ∧
      s'.output = u.output ∧ results = result :: later := by
  rcases start_bind_eq_some_iff.mp ran with ⟨e, -, failed⟩ | ⟨collected, s₁, ran₁, ran₂⟩
  · cases failed
  rw [start_collect, Option.map_eq_some_iff] at ran₁
  obtain ⟨⟨result, t⟩, staged, same⟩ := ran₁
  cases same
  rcases start_bind_eq_some_iff.mp ran₂ with ⟨e, -, failed⟩ | ⟨later, s₂, ran₂, gave⟩
  · cases failed
  rw [start_withInput, Option.map_eq_some_iff] at ran₂
  obtain ⟨⟨_, u⟩, stages, same⟩ := ran₂
  cases same
  cases gave
  exact ⟨result, t, later, u, staged, stages, rfl, rfl⟩

theorem stages_fine : (calls : List Call) → ∀ {s s' : Session} {results},
    (sh.stages run calls).start s = some (.ok results, s') → ∀ result ∈ results, Fine result
  | [], s, s', results, ran => by
    cases ran
    exact List.forall_mem_nil _
  | [last], s, s', results, ran => by
    obtain ⟨result, tried, given⟩ := gives_bind ⟨s, s', ran⟩
    rw [gives_pure given, List.forall_mem_singleton]
    rintro outcome rfl
    exact stage_outcome sh run last outcome (attempt_given tried)
  | c :: next :: rest, s, s', results, ran => by
    obtain ⟨result, t, later, u, staged, stages, -, rfl⟩ := stages_cons ran
    refine List.forall_mem_cons.mpr ⟨?_, stages_fine (next :: rest) stages⟩
    rintro outcome rfl
    exact stage_outcome sh run c outcome ⟨_, _, staged⟩

/-- Among fine results a request for the end is one with code zero. -/
theorem exitCode?_fine {results : List (Except Failure Outcome)} (fine : ∀ result ∈ results, Fine result)
    (asked : .ok (.exit 0) ∈ results) : Shell.exitCode? results = some 0 := by
  induction results with
  | nil => cases asked
  | cons result results ih =>
    obtain ⟨here, later⟩ := List.forall_mem_cons.mp fine
    rcases result with e | _ | code
    · exact ih later ((List.mem_cons.mp asked).resolve_left nofun)
    · exact ih later ((List.mem_cons.mp asked).resolve_left nofun)
    · rcases here _ rfl with same | same <;> cases same
      rfl

/-! Calls and stages that dispatch. -/

/-- From this session the call comes to dispatch the application. -/
def Readies (sh : Shell) (run : Substitution) (app : Application) (c : Call) (s : Session) : Prop :=
  ∃ ready s', (prepare sh run c).start s = some (.ok ready, s') ∧ ready.app = app

/-- From this session one of the stages comes to dispatch the application. A stage
before the last one has an output of its own, and its bytes are the next one's
input. -/
inductive InStage (sh : Shell) (run : Substitution) (app : Application) :
    List Call → Session → Prop where
  | last {c s} (readies : Readies sh run app c s) : InStage sh run app [c] s
  | here {c next rest s} (readies : Readies sh run app c { s with output := .unlimited }) :
      InStage sh run app (c :: next :: rest) s
  | later {c next rest s t result}
      (staged : (sh.stage run c).start { s with output := .unlimited } = some (result, t))
      (inside : InStage sh run app (next :: rest)
        { t with input := .stream t.output.taken none, output := s.output }) :
      InStage sh run app (c :: next :: rest) s

/-- From this session the command comes to dispatch the application in one of its
own calls or stages. The stages of a pipe all end; in a sequence the commands before
have let the session go on. -/
inductive Dispatches (sh : Shell) (run : Substitution) (app : Application) :
    Command → Session → Prop where
  | call {c s} (readies : Readies sh run app c s) : Dispatches sh run app (.call c) s
  | single {c s} (readies : Readies sh run app c s) : Dispatches sh run app (.pipe [c]) s
  | pipe {c next rest s results s'}
      (staged : (sh.stages run (c :: next :: rest)).start s = some (.ok results, s'))
      (inside : InStage sh run app (c :: next :: rest) s) :
      Dispatches sh run app (.pipe (c :: next :: rest)) s
  | sequence {before command rest s s'}
      (proceeds : (sh.evaluateAll run before).start s = some (.ok .proceed, s'))
      (dispatches : Dispatches sh run app command s') :
      Dispatches sh run app (.sequence (before ++ command :: rest)) s

/-- How a call of `exit` ends, by what came of the flush. -/
def exitResult : Option IoError → Except Failure Outcome
  | none => .ok (.exit 0)
  | some e => .error (.io e)

theorem launch_exit (args : List String) (s : Session) :
    (Shell.launch .exit args).start s = some (exitResult s.output.flush, s) := by
  have ran : (Application.run .exit args).start s = some (.ok (.exit 0), s) := rfl
  simp only [Shell.launch, start_bind, start_attempt, ran, start_flush, Option.map]
  cases s.output.flush <;> rfl

/-- What a call's redirections have opened for its output is a file. -/
theorem prepare_isFile {c : Call} {ready : Ready} {s s' : Session}
    (prepared : (prepare sh run c).start s = some (.ok ready, s')) (sink : Sink)
    (opened : ready.streams.output = some sink) : IsFile sink := by
  obtain ⟨r, extracts, given⟩ := gives_bind ⟨s, s', prepared⟩
  obtain ⟨words, -, given⟩ := gives_bind given
  have files := (extract_prepared (fun _ _ => trivial) extracts : Prepared (fun _ => True) r).output
  cases words with
  | nil => exact absurd given not_gives_throw
  | cons name args =>
    dsimp only at given
    cases found : sh.find? name with
    | none =>
      rw [found] at given
      exact absurd given not_gives_throw
    | some app =>
      rw [found] at given
      rw [gives_pure given] at opened
      exact (files sink opened).1

/-- What a flush of the stream that a call writes to comes to. -/
def flushOf (r : Redirection) (s : Session) : Option IoError :=
  if r.output.isSome then none else s.output.flush

theorem within_exit {r : Redirection} (files : ∀ sink, r.output = some sink → IsFile sink)
    (args : List String) (s : Session) :
    (r.within (Shell.launch .exit args)).start s = some (exitResult (flushOf r s), s) := by
  obtain ⟨rest, input, output⟩ := r
  cases output with
  | none => cases input <;> simp [Redirection.within, start_withInput, launch_exit, flushOf]
  | some sink =>
    obtain ⟨id, pos, rfl⟩ := files sink rfl
    cases input <;>
      simp [Redirection.within, start_withInput, start_withOutput, launch_exit, flushOf, Sink.flush]

theorem dispatch_exit {ready : Ready} (s : Session) (exits : ready.app = .exit)
    (files : ∀ sink, ready.streams.output = some sink → IsFile sink) :
    ∃ journal, ready.dispatch.start s =
      some (exitResult (flushOf ready.streams s), { s with journal }) := by
  rw [Ready.dispatch, exits, start_bind, start_note]
  exact ⟨_, within_exit files ready.args _⟩

/-! The rest is about sessions whose output can be flushed, and substitutions of the
shell itself, which keep that. -/

section Flushed

variable {left : Nat} {s s' : Session}

/-- A call that dispatches `exit` ends as the flush of its output does. -/
theorem call_exit {c : Call} {ready : Ready}
    (prepared : (prepare sh (sh.substitute left) c).start s = some (.ok ready, s'))
    (exits : ready.app = .exit) :
    ∃ journal, (sh.call (sh.substitute left) c).start s =
      some (exitResult (flushOf ready.streams s), { s' with journal }) := by
  have streams := prepare_apart sh left c prepared
  obtain ⟨journal, dispatched⟩ := dispatch_exit s' exits (prepare_isFile prepared)
  refine ⟨journal, ?_⟩
  rw [call_eq, start_bind, prepared]
  simpa only [flushOf, streams.2] using dispatched

theorem call_exits {c : Call} (flushes : s.output.flush = none)
    (readies : Readies sh (sh.substitute left) .exit c s) :
    ∃ s', (sh.call (sh.substitute left) c).start s = some (.ok (.exit 0), s') ∧
      s'.output = s.output := by
  obtain ⟨ready, s₁, prepared, exits⟩ := readies
  obtain ⟨journal, called⟩ := call_exit prepared exits
  have passed : flushOf ready.streams s = none := by simp [flushOf, flushes]
  rw [passed] at called
  exact ⟨_, called, (prepare_apart sh left c prepared).2⟩

theorem stage_exits {c : Call} (flushes : s.output.flush = none)
    (readies : Readies sh (sh.substitute left) .exit c s) :
    ∃ s', (sh.stage (sh.substitute left) c).start s = some (.ok (.exit 0), s') := by
  obtain ⟨s', called, output⟩ := call_exits flushes readies
  have flushed : Act.flush.start s' = some (.ok (), s') := by
    rw [start_flush, output, flushes]
    rfl
  refine ⟨s', ?_⟩
  simp only [Shell.stage, start_bind, start_attempt, called, flushed, Option.map, start_ofExcept]

/-- Where a stage dispatches `exit`, one of the results asks for the end. -/
theorem exit_mem_stages {calls : List Call} (flushes : s.output.flush = none)
    (inside : InStage sh (sh.substitute left) .exit calls s) {results}
    (ran : (sh.stages (sh.substitute left) calls).start s = some (.ok results, s')) :
    .ok (.exit 0) ∈ results := by
  induction inside generalizing results s' with
  | @last c s readies =>
    obtain ⟨t, staged⟩ := stage_exits flushes readies
    simp only [Shell.stages, start_bind, start_attempt, staged, Option.map, start_pure] at ran
    cases ran
    exact List.mem_cons_self
  | @here c next rest s readies =>
    obtain ⟨t, exits⟩ := stage_exits rfl readies
    obtain ⟨result, _, later, _, staged, -, -, rfl⟩ := stages_cons ran
    rw [exits] at staged
    cases staged
    exact List.mem_cons_self
  | @later c next rest s t result staged inside ih =>
    obtain ⟨_, _, later, u, again, stages, -, rfl⟩ := stages_cons ran
    rw [staged] at again
    cases again
    exact List.mem_cons_of_mem _ (ih flushes stages)

end Flushed

/-! What the results of stages come to when one of them asks for the end. -/

/-- The failures that are looked for are all those of stages that did not stop
because the next one reads no further. -/
theorem stageFailures_complete (results : List (Except Failure Outcome)) (i : Nat) (s : Session) :
    ∃ failures journal,
      (Shell.stageFailures i results).start s = some (.ok failures, { s with journal }) ∧
      ∀ n e, results[n]? = some (.error e) →
        (n + 1 = results.length ∨ e.isBrokenPipe = false) → e ∈ failures := by
  induction results generalizing i s with
  | nil => exact ⟨[], s.journal, rfl, by simp⟩
  | cons result results ih =>
    cases result with
    | ok outcome =>
      obtain ⟨failures, journal, found, complete⟩ := ih (i + 1) s
      refine ⟨failures, journal, found, fun n e failed counts => ?_⟩
      cases n with
      | zero => cases failed
      | succ n => exact complete n e failed (counts.imp_left Nat.succ.inj)
    | error e =>
      unfold Shell.stageFailures
      split
      · rename_i stopped
        obtain ⟨failures, journal, found, complete⟩ := ih (i + 1) { s with
          journal := s.journal ++
            [⟨.debug, "stage " ++ toString i ++ " stopped early: " ++ e.message⟩] }
        refine ⟨failures, journal, ?_, fun n e' failed counts => ?_⟩
        · rw [start_bind, start_note]
          exact found
        · cases n with
          | zero =>
            cases failed
            simp only [Bool.and_eq_true, Bool.not_eq_true', List.isEmpty_eq_false_iff] at stopped
            rcases counts with last | unbroken
            · exact absurd (List.length_eq_zero_iff.mp (Nat.succ.inj last).symm) stopped.1
            · rw [stopped.2] at unbroken
              cases unbroken
          | succ n => exact complete n e' failed (counts.imp_left Nat.succ.inj)
      · obtain ⟨failures, journal, found, complete⟩ := ih (i + 1) s
        refine ⟨e :: failures, journal, ?_, fun n e' failed counts => ?_⟩
        · rw [start_bind, found]
          rfl
        · cases n with
          | zero =>
            cases failed
            exact List.mem_cons_self
          | succ n =>
            exact List.mem_cons_of_mem _ (complete n e' failed (counts.imp_left Nat.succ.inj))

theorem settle_exits {results : List (Except Failure Outcome)}
    (asked : Shell.exitCode? results = some 0) (s : Session) :
    ∃ s' reported, (Shell.settle results).start s = some (.ok (.exit 0), s') ∧
      s'.reports = s.reports ++ reported ∧
      ∀ n e, results[n]? = some (.error e) →
        (n + 1 = results.length ∨ e.isBrokenPipe = false) → e ∈ reported := by
  obtain ⟨failures, journal, found, complete⟩ := stageFailures_complete results 0 s
  obtain ⟨journal', reported⟩ := start_reportAll failures { s with journal }
  refine ⟨{ s with reports := s.reports ++ failures, journal := journal' }, failures, ?_, rfl, complete⟩
  rw [Shell.settle, start_bind, found, asked]
  dsimp only
  rw [start_bind, reported]
  rfl

section Flushed

variable {left : Nat} {s s' : Session}

/-- A pipe with a stage that dispatches `exit` ends the session, after the failures
of the other stages have been reported. -/
theorem pipe_exits {c next : Call} {rest : List Call} {results} (flushes : s.output.flush = none)
    (staged : (sh.stages (sh.substitute left) (c :: next :: rest)).start s = some (.ok results, s'))
    (inside : InStage sh (sh.substitute left) .exit (c :: next :: rest) s) :
    ∃ ended reported,
      (sh.pipe (sh.substitute left) (c :: next :: rest)).start s = some (.ok (.exit 0), ended) ∧
      ended.reports = s'.reports ++ reported ∧
      ∀ n e, results[n]? = some (.error e) →
        (n + 1 = results.length ∨ e.isBrokenPipe = false) → e ∈ reported := by
  have asked := exitCode?_fine (stages_fine _ staged) (exit_mem_stages flushes inside staged)
  obtain ⟨ended, reported, settled, counts⟩ := settle_exits asked s'
  have piped : sh.pipe (sh.substitute left) (c :: next :: rest) =
      sh.stages (sh.substitute left) (c :: next :: rest) >>= Shell.settle := rfl
  refine ⟨ended, reported, ?_, counts⟩
  rw [piped, start_bind, staged]
  exact settled

/-- Commands change nothing about what comes of a flush. -/
theorem sequence_flush {commands : List Command} {result}
    (ran : (sh.evaluateAll (sh.substitute left) commands).start s = some (result, s')) :
    s'.output.flush = s.output.flush := by
  have evaluated : (sh.evaluate (sh.substitute left) (.sequence commands)).start s =
      some (result, s') := ran
  exact evaluate_sameFlush sh left (.sequence commands) evaluated

/-- After a command that ends the session the rest of a sequence is not looked at. -/
theorem evaluateAll_stops {before rest : List Command} {command : Command} {code : Nat} {ended : Session}
    (proceeds : (sh.evaluateAll run before).start s = some (.ok .proceed, s'))
    (ends : (sh.evaluate run command).start s' = some (.ok (.exit code), ended)) :
    (sh.evaluateAll run (before ++ command :: rest)).start s = some (.ok (.exit code), ended) := by
  rw [evaluateAll_append, onProceed, start_bind, proceeds]
  dsimp only
  rw [Shell.evaluateAll, start_bind, start_attempt, ends]
  rfl

/-- A command that dispatches `exit` ends the session. -/
theorem evaluate_exits {command : Command} (flushes : s.output.flush = none)
    (dispatches : Dispatches sh (sh.substitute left) .exit command s) :
    ∃ s', (sh.evaluate (sh.substitute left) command).start s = some (.ok (.exit 0), s') := by
  induction dispatches with
  | call readies | single readies =>
    obtain ⟨s', called, -⟩ := call_exits flushes readies
    exact ⟨s', called⟩
  | pipe staged inside =>
    obtain ⟨ended, reported, piped, -⟩ := pipe_exits flushes staged inside
    exact ⟨ended, piped⟩
  | sequence proceeds dispatches ih =>
    have still := (sequence_flush proceeds).trans flushes
    obtain ⟨s', evaluated⟩ := ih still
    exact ⟨s', evaluateAll_stops proceeds evaluated⟩

/-- A line's last step is a flush of the output. -/
theorem line_of_evaluated {line : String} {command : Command} {outcome : Outcome} {ended : Session}
    (read : (Shell.parse line).start s = some (.ok command, s'))
    (evaluated : (sh.evaluateTop command).start s' = some (.ok outcome, ended)) :
    (sh.evaluateLine line).start s =
      some (match ended.output.flush with
        | none => .ok outcome
        | some e => .error (.io e), ended) := by
  rw [Shell.evaluateLine, start_bind, read]
  dsimp only
  rw [start_bind, evaluated]
  dsimp only
  rw [start_bind, start_mapError, start_flush]
  cases ended.output.flush <;> rfl

theorem line_exits {line : String} {command : Command} (flushes : s.output.flush = none)
    (read : (Shell.parse line).start s = some (.ok command, s'))
    (dispatches : Dispatches sh (sh.substitute sh.levels) .exit command s') :
    ∃ ended, (sh.evaluateLine line).start s = some (.ok (.exit 0), ended) := by
  have output : s'.output = s.output := (parse_makes apart_quiet line read).2
  have still : s'.output.flush = none := by rw [output, flushes]
  obtain ⟨ended, evaluated⟩ := evaluate_exits still dispatches
  have kept := (evaluate_sameFlush sh sh.levels command evaluated).trans still
  have line_ends := line_of_evaluated read evaluated
  rw [kept] at line_ends
  exact ⟨ended, line_ends⟩

/-- On an output that cannot be flushed every line fails, whatever it asked for. -/
theorem line_fails {line : String} {e : IoError} {result} (fails : s.output.flush = some e)
    (ran : (sh.evaluateLine line).start s = some (result, s')) : ∃ failure, result = .error failure := by
  rcases start_bind_eq_some_iff.mp ran with ⟨failure, -, failed⟩ | ⟨command, s₁, read, ran₁⟩
  · exact ⟨failure, failed⟩
  rcases start_bind_eq_some_iff.mp ran₁ with ⟨failure, -, failed⟩ | ⟨outcome, ended, evaluated, -⟩
  · exact ⟨failure, failed⟩
  have output : s₁.output = s.output := (parse_makes apart_quiet line read).2
  have still : s₁.output.flush = some e := by rw [output, fails]
  have kept := (evaluate_sameFlush sh sh.levels command evaluated).trans still
  rw [line_of_evaluated read evaluated, kept] at ran
  cases ran
  exact ⟨.io e, rfl⟩

end Flushed

/-- An `exit` that is dispatched outside of substitutions ends as the flush of its
output does. On a session whose output can be flushed, whatever becomes of its writes,
the call, the pipe, the sequence and the line around it all end with code zero; the
commands after it in a sequence make no difference, and the failures of the other
stages of a pipe are reported, but for those of stages that stopped because the next
one reads no further. On an output that cannot be flushed every line fails. -/
theorem exit_ends_session_if_output_flushes (sh : Shell) (s : Session) :
    (∀ left c ready s', (prepare sh (sh.substitute left) c).start s = some (.ok ready, s') →
      ready.app = .exit →
      ∃ journal, (sh.call (sh.substitute left) c).start s =
        some (exitResult (flushOf ready.streams s), { s' with journal })) ∧
    (s.output.flush = none →
      (∀ left command, Dispatches sh (sh.substitute left) .exit command s →
        ∃ s', (sh.evaluate (sh.substitute left) command).start s = some (.ok (.exit 0), s')) ∧
      (∀ left before command s₁,
        (sh.evaluateAll (sh.substitute left) before).start s = some (.ok .proceed, s₁) →
        Dispatches sh (sh.substitute left) .exit command s₁ →
        ∃ s', (sh.evaluate (sh.substitute left) command).start s₁ = some (.ok (.exit 0), s') ∧
          ∀ later, (sh.evaluate (sh.substitute left)
            (.sequence (before ++ command :: later))).start s = some (.ok (.exit 0), s')) ∧
      (∀ left c next rest results s₁,
        (sh.stages (sh.substitute left) (c :: next :: rest)).start s = some (.ok results, s₁) →
        InStage sh (sh.substitute left) .exit (c :: next :: rest) s →
        ∃ s' reported,
          (sh.evaluate (sh.substitute left) (.pipe (c :: next :: rest))).start s =
            some (.ok (.exit 0), s') ∧
          s'.reports = s₁.reports ++ reported ∧
          ∀ n e, results[n]? = some (.error e) →
            (n + 1 = results.length ∨ e.isBrokenPipe = false) → e ∈ reported) ∧
      ∀ line command s₁, (Shell.parse line).start s = some (.ok command, s₁) →
        Dispatches sh (sh.substitute sh.levels) .exit command s₁ →
        ∃ s', (sh.evaluateLine line).start s = some (.ok (.exit 0), s')) ∧
    ∀ e, s.output.flush = some e → ∀ line result s',
      (sh.evaluateLine line).start s = some (result, s') → ∃ failure, result = .error failure := by
  refine ⟨fun left c ready s' prepared exits => call_exit prepared exits,
    fun flushes => ⟨fun left command dispatches => evaluate_exits flushes dispatches, ?_, ?_, ?_⟩,
    fun e fails line result s' ran => line_fails fails ran⟩
  · intro left before command s₁ proceeds dispatches
    have still := (sequence_flush proceeds).trans flushes
    obtain ⟨s', evaluated⟩ := evaluate_exits still dispatches
    exact ⟨s', evaluated, fun later => evaluateAll_stops proceeds evaluated⟩
  · intro left c next rest results s₁ staged inside
    exact pipe_exits flushes staged inside
  · intro line command s₁ read dispatches
    exact line_exits flushes read dispatches

/-- In `nosuch | exit` the second stage dispatches `exit`, and the first one's failure
is reported. -/
theorem exit_after_unknown_stage :
    ∃ s', (({} : Shell).evaluate (({} : Shell).substitute 1)
        (.pipe [⟨["nosuch"]⟩, ⟨["exit"]⟩])).start {} = some (.ok (.exit 0), s') ∧
      .commandNotFound "nosuch" ∈ s'.reports := by
  have fails : ((({} : Shell).stages (({} : Shell).substitute 1)
      [⟨["nosuch"]⟩, ⟨["exit"]⟩]).start {}).map
        (fun ended => ended.1.toOption.bind (·[0]?)) =
      some (some (.error (.commandNotFound "nosuch"))) := by
    decide +kernel
  obtain ⟨⟨result, s₁⟩, staged, failed⟩ := Option.map_eq_some_iff.mp fails
  cases result with
  | error e => cases failed
  | ok results =>
    have readied : ((({} : Shell).stage (({} : Shell).substitute 1) ⟨["nosuch"]⟩).start {}).map
        (fun ended => ((prepare {} (({} : Shell).substitute 1) ⟨["exit"]⟩).start
          { ended.2 with input := .stream ended.2.output.taken none, output := .unlimited }).map
            (fun prepared => prepared.1.toOption.map (·.app))) = some (some (some .exit)) := by
      decide +kernel
    obtain ⟨⟨_, t⟩, first, readied⟩ := Option.map_eq_some_iff.mp readied
    obtain ⟨⟨prepared, t'⟩, prepares, exits⟩ := Option.map_eq_some_iff.mp readied
    cases prepared with
    | error e => cases exits
    | ok ready =>
      have inside : InStage {} (({} : Shell).substitute 1) .exit [⟨["nosuch"]⟩, ⟨["exit"]⟩] {} :=
        .later first (.last ⟨ready, t', prepares, Option.some.inj exits⟩)
      obtain ⟨s', reported, ended, reports, counts⟩ :=
        ((exit_ends_session_if_output_flushes {} {}).2.1 rfl).2.2.1 1 _ _ _ _ _ staged inside
      refine ⟨s', ended, ?_⟩
      rw [reports]
      exact List.mem_append_right _ (counts 0 _ failed (.inr rfl))

/-- Where the output cannot be flushed the line `exit; echo later` fails, after `echo`
has run. -/
theorem exit_lost_where_flush_fails :
    ((({} : Shell).evaluateLine "exit; echo later").start
        { output := .outlet { flushFails := true } }).map
        (fun ended => (ended.1.toOption, ended.2.output.taken)) =
      some (none, "later\n".toUTF8.toList) := by
  decide +kernel

end LineShell.ExitOutcome
