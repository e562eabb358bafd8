import LineShell.Proofs.PipeIntoCat

/-! Lines that are a pipe of two stages. A call of an application by its name, with words
in which nothing is special, runs the application with these words. So if both
applications succeed, the line does what they do one after the other: the second one
reads what the first one wrote. -/
namespace LineShell.PipedStages
open EchoLine LineRoundTrip StepAgreement Text

/-- A token that stands for itself. -/
structure Plain (token : String) : Prop where
  isWord : IsWord token
  ordinary : token.toList.all ordinary = true

instance (token : String) : Decidable (Plain token) :=
  decidable_of_iff (IsWord token ∧ token.toList.all ordinary = true)
    ⟨fun ⟨isWord, plain⟩ => ⟨isWord, plain⟩, fun plain => ⟨plain.isWord, plain.ordinary⟩⟩

variable {sh : Shell} {run : Substitution} {app : Application} {args : List String}
  {s t : Session} {calls : List Call} {line : String}

/-- A step does the same to a session whatever is in the journal, and comes to a result. -/
def Ends (act : Act Failure Outcome) (s : Session) (result : Except Failure Outcome)
    (t : Session) : Prop :=
  ∀ journal, ∃ journal', act.start (noted s journal) = some (result, noted t journal')

/-- A step does the same to a session whatever is in the journal, and succeeds. -/
def Proceeds (act : Act Failure Outcome) (s t : Session) : Prop :=
  ∀ journal, ∃ journal', act.start (noted s journal) = some (.ok .proceed, noted t journal')

theorem expandAll_plain (run : Substitution) (plain : ∀ arg ∈ args, Plain arg) :
    Word.expandAll run Shell.glob args = pure args := by
  induction args with
  | nil => rfl
  | cons arg args ih =>
    obtain ⟨first, rest⟩ := List.forall_mem_cons.mp plain
    have some : arg ≠ "" := first.isWord.nonempty
    have expanded := expand_ordinary run Shell.glob some first.ordinary
    simp only [Word.expandAll, expanded, ih rest, pure_bind]
    rfl

/-- A call comes to what its application comes to. -/
theorem call_ends {c : Call} {note : String} {result : Except Complaint Outcome}
    (called : sh.call run c = (do Act.note .debug note; Shell.launch app args))
    (ran : ∀ journal, (app.run args).start (noted s journal) = some (result, noted t journal))
    (flushes : ∀ outcome, result = .ok outcome → t.output.flush = none) :
    Ends (sh.call run c) s (result.mapError (.application app.name)) t := by
  intro journal
  let journal' := journal ++ [⟨.debug, note⟩]
  have noting : (Act.note .debug note : Act Failure Unit).start (noted s journal) =
      some (.ok (), noted s journal') := rfl
  have flushed : Act.flush.start (noted t journal') =
      some (t.output.flush.elim (.ok ()) .error, noted t journal') := start_flush _
  refine ⟨journal', ?_⟩
  simp only [called, Shell.launch, start_bind, start_attempt, noting, ran, flushed, Option.map]
  cases result with
  | error e => rfl
  | ok outcome =>
    rw [flushes outcome rfl]
    rfl

/-- A stage comes to what its call comes to, if what succeeds is passed on. -/
theorem stage_ends {c : Call} {result : Except Failure Outcome}
    (called : Ends (sh.call run c) s result t)
    (flushes : ∀ outcome, result = .ok outcome → t.output.flush = none) :
    Ends (sh.stage run c) s result t := by
  intro journal
  obtain ⟨journal', ran⟩ := called journal
  have flushed : Act.flush.start (noted t journal') =
      some (t.output.flush.elim (.ok ()) .error, noted t journal') := start_flush _
  refine ⟨journal', ?_⟩
  simp only [Shell.stage, start_bind, start_attempt, ran, flushed, Option.map]
  cases result with
  | error e => rfl
  | ok outcome =>
    rw [flushes outcome rfl]
    rfl

/-- An application that succeeds makes its stage succeed. -/
theorem stage_proceeds (enabled : app ∈ sh.applications) (plain : ∀ arg ∈ args, Plain arg)
    (ran : ∀ journal, (app.run args).start (noted s journal) =
      some (.ok .proceed, noted t journal)) (flushes : t.output.flush = none) :
    Proceeds (sh.stage run ⟨app.name :: args⟩) s t := by
  have called := @call_named sh args run app enabled fun arg member => (plain arg member).isWord
  rw [expandAll_plain run plain, pure_bind] at called
  exact stage_ends (call_ends called ran fun _ _ => flushes) fun _ _ => flushes

/-- What a pipe comes to whose first stage succeeds. -/
theorem settle_proceed (result : Except Failure Outcome) :
    Shell.settle [.ok .proceed, result] = Act.ofExcept result := by
  rcases result with e | _ | code <;> rfl

/-- Two stages, of which the second reads what the first one wrote. -/
theorem pipe_ends {first second : Call} {m : Session} {bs : Bytes}
    {result : Except Failure Outcome}
    (wrote : Proceeds (sh.stage run first) { s with output := .unlimited } m)
    (taken : m.output.taken = bs)
    (ran : Ends (sh.stage run second)
      { m with output := s.output, input := .stream bs none } result t) :
    Ends (sh.pipe run [first, second]) s result { t with input := m.input } := by
  intro journal
  obtain ⟨journal₁, one⟩ := wrote journal
  obtain ⟨journal₂, two⟩ := ran journal₁
  refine ⟨journal₂, ?_⟩
  simp only [noted] at one two ⊢
  simp only [Shell.pipe, Shell.stages, start_bind, start_collect, start_withInput, start_attempt,
    one, taken, two, Option.map, start_pure, settle_proceed, start_ofExcept]

theorem pipe_proceeds {first second : Call} {m : Session} {bs : Bytes}
    (wrote : Proceeds (sh.stage run first) { s with output := .unlimited } m)
    (taken : m.output.taken = bs)
    (ran : Proceeds (sh.stage run second)
      { m with output := s.output, input := .stream bs none } t) :
    Proceeds (sh.pipe run [first, second]) s { t with input := m.input } :=
  pipe_ends wrote taken ran

/-- A line of plain tokens with blanks and bars between them is a pipe. -/
theorem parse_pipe (some : calls ≠ [])
    (plain : ∀ call ∈ calls, call.tokens ≠ [] ∧ ∀ token ∈ call.tokens, Plain token)
    (text : line.toList = joinWith [' ', '|', ' ']
      (calls.map fun call => joinWith [' '] (call.tokens.map String.toList))) :
    Command.parse line = .ok (.sequence [.pipe calls]) := by
  have wellFormed (call : Call) (member : call ∈ calls) : WellFormedCall call :=
    ⟨(plain call member).1, fun token held =>
      .inr (.inr (.inr ((plain call member).2 token held).isWord))⟩
  have written : (Command.sequence [.pipe calls]).text = line := by
    rw [← String.toList_inj, sequence_toList, List.map_singleton, pipe_toList, text]
    simp [joinWith, call_toList]
  rw [← written]
  exact parse_text_of_wellFormed ⟨_, rfl, by simpa [WellFormedPipe, some] using wellFormed⟩

/-- A line that is one pipe does what the pipe does. -/
theorem line_proceeds (parsed : Command.parse line = .ok (.sequence [.pipe calls]))
    (ran : Proceeds (sh.pipe (sh.substitute sh.levels) calls) s t)
    (flushes : t.output.flush = none) : Proceeds (sh.evaluateLine line) s t := by
  intro journal
  let journal₁ := journal ++ [⟨.debug, "parsed: " ++ (Command.sequence [.pipe calls]).text⟩]
  have read : (Shell.parse line).start (noted s journal) =
      some (.ok (.sequence [.pipe calls]), noted s journal₁) := by
    rw [Shell.parse, parsed]
    rfl
  obtain ⟨journal₂, piped⟩ := ran journal₁
  have flushed : Act.flush.start (noted t journal₂) = some (.ok (), noted t journal₂) := by
    rw [start_flush]
    simp only [noted, flushes]
    rfl
  refine ⟨journal₂, ?_⟩
  simp only [Shell.evaluateLine, Shell.evaluateTop, Shell.evaluate, Shell.evaluateAll, start_bind,
    start_attempt, start_mapError, read, piped, flushed, Option.map, Except.mapError, start_pure]

end LineShell.PipedStages
