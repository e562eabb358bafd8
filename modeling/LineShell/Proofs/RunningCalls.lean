import LineShell.Proofs.EchoLine
import LineShell.Proofs.InterleavedSteps
import LineShell.Shell.Concurrent

/-! Runs of calls in which nothing is special. Such a call asks for its application in one
access, whatever the substitution and the disk, and goes on with the accesses of the
application. An application that has run is flushed, and so is a stage that has. -/
namespace LineShell.RunningCalls
open InterleavedSteps EchoLine

variable {sh : Shell} {run : RunningSubstitution} {p p' p₁ : Streams} {steps later : List Step}

/-- A token that stands for itself and is no sign. -/
structure Spelled (token : String) : Prop where
  filled : token ≠ ""
  ordinary : token.toList.all ordinary = true
  signless : Token.redirect? token = none

instance (token : String) : Decidable (Spelled token) :=
  decidable_of_iff (token ≠ "" ∧ token.toList.all ordinary = true ∧ Token.redirect? token = none)
    ⟨fun ⟨filled, ordinary, signless⟩ => ⟨filled, ordinary, signless⟩,
      fun ⟨filled, ordinary, signless⟩ => ⟨filled, ordinary, signless⟩⟩

theorem extractFrom_unsigned {expand : String → Run Failure (List String)} {tokens : List String}
    (signless : ∀ token ∈ tokens, Token.redirect? token = none) (r : Redirection) :
    Concurrent.extractFrom expand r tokens = pure { r with rest := r.rest.reverse ++ tokens } := by
  induction tokens generalizing r with
  | nil => simp [Concurrent.extractFrom]
  | cons token tokens ih =>
    obtain ⟨first, others⟩ := List.forall_mem_cons.mp signless
    cases tokens with
    | nil => simp [Concurrent.extractFrom, first]
    | cons operand tokens => simp [Concurrent.extractFrom, first, ih others]

theorem expandAll_spelled {tokens : List String} (spelled : ∀ token ∈ tokens, Spelled token) :
    Word.expandAll run Concurrent.glob tokens = pure tokens := by
  induction tokens with
  | nil => rfl
  | cons token tokens ih =>
    obtain ⟨first, others⟩ := List.forall_mem_cons.mp spelled
    rw [Word.expandAll, expand_ordinary run Concurrent.glob first.filled first.ordinary, ih others]
    simp

/-- An access that changes nothing. -/
def still (w : World) : Step := { before := w, after := w }

/-- The access by which a record goes to the journal. -/
def noting (level : Level) (text : String) (w : World) : Step :=
  { before := w, after := { w with journal := w.journal ++ [⟨level, text⟩] } }

/-- The record of a call. -/
def running (words : List String) (w : World) : Step :=
  noting .debug ("run: " ++ Text.ShellWord.line words) w

/-- A call without redirections expands its tokens, asks for its application and runs it. -/
theorem call_does {tokens : List String} {name : String} {args : List String} {app : Application}
    {result : Except Failure Outcome} (signless : ∀ token ∈ tokens, Token.redirect? token = none)
    (expands : (Word.expandAll run Concurrent.glob tokens).Does p steps (.ok (name :: args)) p₁)
    (found : sh.find? name = some app) (w : World)
    (does : (Concurrent.launch app args).Does p₁ later result p') :
    (Concurrent.call sh run ⟨tokens⟩).Does p (steps ++ running (name :: args) w :: later) result
      p' := by
  rw [Concurrent.call, extractFrom_unsigned signless, pure_bind]
  refine does_bind expands ?_
  simp only [found, Concurrent.within]
  exact does_access (StepAgreement.start_note _ _ (p₁.over w)) does

/-- An output that passes on what it took is flushed. -/
theorem flush_does (flushes : p.output.flush = none) (w : World) :
    (Run.access Act.flush).Does p [still w] (.ok ()) p := by
  refine ⟨w, p.over w, ?_, rfl, rfl⟩
  rw [start_flush]
  simp only [Streams.over, flushes, Option.elim]

theorem launch_does {app : Application} {args : List String} {result : Except Complaint Outcome}
    (ran : (Concurrent.run app args).Does p steps result p') (flushes : p'.output.flush = none)
    (w : World) :
    (Concurrent.launch app args).Does p (steps ++ [still w])
      (result.mapError (.application app.name)) p' := by
  have flushed := flush_does flushes w
  cases result with
  | error c => exact does_attempt ran (does_attempt flushed (does_throw _ _))
  | ok outcome => exact does_attempt ran (does_attempt flushed (does_pure _ _))

theorem stage_does {c : Call} {result : Except Failure Outcome}
    (called : (Concurrent.call sh run c).Does p steps result p') (flushes : p'.output.flush = none)
    (w : World) : (Concurrent.stage sh run c).Does p (steps ++ [still w]) result p' := by
  have flushed := flush_does flushes w
  cases result with
  | error e => exact does_attempt called (does_attempt flushed ⟨rfl, rfl, rfl⟩)
  | ok outcome => exact does_attempt called (does_attempt flushed ⟨rfl, rfl, rfl⟩)

/-- A stage runs its application on the streams that are left by the expansion of its tokens. -/
theorem expanded_stage_does {tokens : List String} {name : String} {args : List String}
    {app : Application} {result : Except Complaint Outcome}
    (signless : ∀ token ∈ tokens, Token.redirect? token = none)
    (expands : (Word.expandAll run Concurrent.glob tokens).Does p steps (.ok (name :: args)) p₁)
    (found : sh.find? name = some app) (ran : (Concurrent.run app args).Does p₁ later result p')
    (flushes : p'.output.flush = none) (w w₁ w₂ : World) :
    (Concurrent.stage sh run ⟨tokens⟩).Does p
      (steps ++ running (name :: args) w :: (later ++ [still w₁, still w₂]))
      (result.mapError (.application app.name)) p' := by
  have called := call_does signless expands found w (launch_does ran flushes w₁)
  have does := stage_does called flushes w₂
  rwa [List.append_assoc, List.cons_append, List.append_assoc] at does

/-- The same where all tokens stand for themselves. -/
theorem spelled_stage_does {name : String} {args : List String} {app : Application}
    {result : Except Complaint Outcome} (spelled : ∀ token ∈ name :: args, Spelled token)
    (found : sh.find? name = some app) (ran : (Concurrent.run app args).Does p steps result p')
    (flushes : p'.output.flush = none) (w w₁ w₂ : World) :
    (Concurrent.stage sh run ⟨name :: args⟩).Does p
      (running (name :: args) w :: (steps ++ [still w₁, still w₂]))
      (result.mapError (.application app.name)) p' := by
  have expands : (Word.expandAll run Concurrent.glob (name :: args)).Does p []
      (.ok (name :: args)) p := by
    rw [expandAll_spelled spelled]
    exact does_pure _ p
  exact expanded_stage_does (fun token held => (spelled token held).signless) expands found ran flushes
    w w₁ w₂

/-! Two stages. -/

theorem last_stage_does {c : Call} {result : Except Failure Outcome}
    (does : (Concurrent.stage sh run c).Does p steps result p') :
    (Concurrent.stages sh run [c]).Does p steps (.ok [result]) p' := by
  have ends : (Concurrent.stages sh run [c]).Does p (steps ++ []) (.ok [result]) p' :=
    does_attempt does (does_pure [result] p')
  rwa [List.append_nil] at ends

/-- What two stages come to whose accesses are made in any order, if the second reads all that the
first writes. -/
theorem two_stages_do {c₁ c₂ : Call} {result₁ result₂ : Except Failure Outcome} {p₂ : Streams}
    {both : List Step} (first : (Concurrent.stage sh run c₁).Does { p with output := .unlimited } steps
      result₁ p₁)
    (second : (Concurrent.stage sh run c₂).Does { p with input := .stream p₁.output.taken none } later
      result₂ p₂)
    (order : Interleaved steps later both) :
    (Concurrent.stages sh run [c₁, c₂]).Does p both (.ok [result₁, result₂])
      { p₂ with input := p₁.input } :=
  ⟨none, result₁, p₁, steps, _, p₂, later, first, last_stage_does second, nofun, order, rfl, rfl⟩

/-! Lines. -/

/-- A pipe comes to what the results of its stages are settled to. -/
theorem pipe_does {c₁ c₂ : Call} {results : List (Except Failure Outcome)}
    {result : Except Failure Outcome}
    (does : (Concurrent.stages sh run [c₁, c₂]).Does p steps (.ok results) p₁)
    (settled : (Concurrent.settle results).Does p₁ later result p') :
    (Concurrent.pipe sh run [c₁, c₂]).Does p (steps ++ later) result p' :=
  does_bind does settled

/-- Stages that all proceed. -/
theorem settle_proceeds (p : Streams) :
    (Concurrent.settle [.ok .proceed, .ok .proceed]).Does p [] (.ok .proceed) p := by
  have settles : Concurrent.settle [.ok .proceed, .ok .proceed] = pure .proceed := by
    simp only [Concurrent.settle, Concurrent.stageFailures, pure_bind, Shell.exitCode?]
  rw [settles]
  exact does_pure _ p

/-- A stage whose reader went away does not count. -/
theorem settle_stopped {e : Failure} (broken : e.isBrokenPipe = true) (p : Streams) (w : World) :
    (Concurrent.settle [.error e, .ok .proceed]).Does p
      [noting .debug ("stage 0 stopped early: " ++ e.message) w] (.ok .proceed) p := by
  have settles : Concurrent.settle [.error e, .ok .proceed] = (do
      Run.access (Act.note .debug ("stage 0 stopped early: " ++ e.message))
      pure .proceed) := by
    simp only [Concurrent.settle, Concurrent.stageFailures, broken]
    simp [Shell.exitCode?]
    rfl
  rw [settles]
  exact does_access (StepAgreement.start_note _ _ (p.over w)) (does_pure _ p)

/-- Any other failure of a stage counts. -/
theorem settle_fails {e : Failure} (broken : e.isBrokenPipe = false) (p : Streams) :
    (Concurrent.settle [.error e, .ok .proceed]).Does p [] (.error e) p := by
  have settles : Concurrent.settle [.error e, .ok .proceed] = throw e := by
    simp only [Concurrent.settle, Concurrent.stageFailures, broken]
    simp [Shell.exitCode?]
  rw [settles]
  exact does_throw _ p

/-- A line that is one pipe and proceeds: it is read, its pipe is run, and the output is flushed. -/
theorem evaluateLine_does {line : String} {calls : List Call}
    (parsed : Command.parse line = .ok (.sequence [.pipe calls])) (w : World)
    (does : (Concurrent.pipe sh (Concurrent.substitute sh sh.levels) calls).Does p steps
      (.ok .proceed) p')
    (flushes : p'.output.flush = none) (w' : World) :
    (Concurrent.evaluateLine sh line).Does p
      (noting .debug ("parsed: " ++ (Command.sequence [.pipe calls]).text) w :: (steps ++ [still w']))
      (.ok .proceed) p' := by
  let parses := noting .debug ("parsed: " ++ (Command.sequence [.pipe calls]).text) w
  have reads : (Shell.parse line).start (p.over w) =
      some (.ok (.sequence [.pipe calls]), p.over parses.after) := by
    rw [Shell.parse, parsed]
    rfl
  have evaluates : (Concurrent.evaluateTop sh (.sequence [.pipe calls])).Does p (steps ++ [])
      (.ok .proceed) p' := does_attempt does (does_pure _ _)
  rw [List.append_nil] at evaluates
  have flushed : (Run.mapError Failure.io (Run.access Act.flush)).Does p' [still w'] (.ok ()) p' :=
    ⟨_, flush_does flushes w', rfl⟩
  exact does_access reads (does_bind evaluates (does_bind flushed (does_pure _ _)))

end LineShell.RunningCalls
