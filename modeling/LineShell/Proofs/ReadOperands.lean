import LineShell.Proofs.RedirectedOutput

/-! Applications that read all their operands before they write lines. Operands are read
one after the other, a file from the disk and `-` from what is left of the input, and
nothing else of the session is touched. What is written is known from the lines, whatever
the output makes of them. -/
namespace LineShell.ReadOperands
open EchoLine OpenedTargets RedirectedOutput StepAgreement

/-- What operands give that are read one after the other from an input, and the input
that is left. -/
inductive Reads (d : Disk) (cwd : Place) : Source → List String → List Bytes → Source → Prop where
  | done {input : Source} : Reads d cwd input [] [] input
  | input {input rest : Source} {names : List String} {inputs : List Bytes}
      (sound : input.fault = none)
      (later : Reads d cwd (input.skip (input.held d).length) names inputs rest) :
      Reads d cwd input ("-" :: names) (input.held d :: inputs) rest
  | file {input rest : Source} {name : String} {names : List String} {bs : Bytes}
      {inputs : List Bytes} (named : name ≠ "-")
      (held : contentAt? d (Path.resolve cwd name) = some bs)
      (later : Reads d cwd input names inputs rest) :
      Reads d cwd input (name :: names) (bs :: inputs) rest

/-- A run that leaves `rest` of the input, writes lines, passes them on and goes on, unless
they cannot be written or passed on. -/
def PrintsLines (act : Job Outcome) (s : Session) (rest : Source) (ls : List String) : Prop :=
  act.start s =
    match s.output.write s.disk (Text.unlines ls) with
    | (disk, output, none) =>
      some (output.flush.elim (.ok .proceed) (fun e => .error (.io e)),
        { s with disk, output, input := rest })
    | (disk, output, some e) => some (.error (.io e), { s with disk, output, input := rest })

variable {s : Session} {name : String} {names ls : List String} {bs : Bytes} {inputs : List Bytes}
  {rest : Source} {o : Options} {args : List String} {p : Outlet}

/-! Reading. -/

theorem start_options {legal : String} (parsed : Options.parse legal.toList args = .ok o) :
    (Job.options legal args).start s = some (.ok o, s) := by
  rw [Job.options, parsed]
  rfl

theorem operandsOr_some (operands : o.operands = names) (nonempty : names ≠ [])
    (instead : String) : o.operandsOr instead = names := by
  rw [Options.operandsOr, operands, if_neg (by simpa using nonempty)]

theorem operandsOr_none (none : o.operands = []) (instead : String) :
    o.operandsOr instead = [instead] := by
  rw [Options.operandsOr, none]
  rfl

theorem start_readOperand_input (sound : s.input.fault = none) :
    (Job.readOperand "-").start s = some (.ok (s.input.held s.disk),
      { s with input := s.input.skip (s.input.held s.disk).length }) := by
  rw [Job.readOperand, if_pos rfl, Job.ofIo, start_mapError, start_readAll, Source.drain, sound]
  rfl

theorem start_readOperand_file (named : name ≠ "-")
    (held : contentAt? s.disk (Path.resolve s.cwd name) = some bs) :
    (Job.readOperand name).start s = some (.ok bs, s) := by
  unfold contentAt? at held
  split at held
  · rename_i id leads
    obtain ⟨q, ends⟩ := lead?_eq_file.mp leads
    cases held
    rw [Job.readOperand, if_neg named, start_bind, start_openOperand, ends]
    rfl
  · cases held

theorem start_readOperand (reads : Reads s.disk s.cwd s.input [name] [bs] rest) :
    (Job.readOperand name).start s = some (.ok bs, { s with input := rest }) := by
  cases reads with
  | input sound later =>
    cases later
    exact start_readOperand_input sound
  | file named held later =>
    cases later
    exact start_readOperand_file named held

theorem start_readAllOperands {input : Source}
    (reads : Reads s.disk s.cwd input names inputs rest) :
    (Job.readAllOperands names).start { s with input } =
      some (.ok inputs, { s with input := rest }) := by
  induction reads with
  | done => rfl
  | @input input _ _ _ sound _ ih =>
    have first := start_readOperand_input (s := { s with input }) sound
    simp only [Job.readAllOperands, start_bind, first, ih, start_pure]
  | @file input _ _ _ _ _ named held _ ih =>
    have first := start_readOperand_file (s := { s with input }) named held
    simp only [Job.readAllOperands, start_bind, first, ih, start_pure]

/-! Writing. -/

theorem printsLines_of_start {act : Job Outcome}
    (same : act.start s =
      (do Job.writeLines ls; return Outcome.proceed : Job Outcome).start { s with input := rest }) :
    PrintsLines act s rest ls := by
  have wrote : (Act.write (Text.unlines ls)).start { s with input := rest } =
      match s.output.write s.disk (Text.unlines ls) with
      | (disk, output, none) => some (.ok (), { s with disk, output, input := rest })
      | (disk, output, some e) => some (.error e, { s with disk, output, input := rest }) := rfl
  rw [PrintsLines, same]
  simp only [Job.writeLines, Job.write, Job.flush, Job.ofIo, start_bind, start_mapError, wrote]
  rcases s.output.write s.disk (Text.unlines ls) with ⟨disk, output, _ | e⟩
  · simp only [Option.map, Except.mapError, start_flush]
    cases output.flush <;> rfl
  · rfl

/-- An output with room for the lines takes them. -/
theorem PrintsLines.taken {act : Job Outcome} (prints : PrintsLines act s rest ls)
    (output : s.output = .outlet p) (takes : Takes p (Text.unlines ls)) :
    act.start s = some (.ok .proceed,
      { s with input := rest, output := .outlet (p.write (Text.unlines ls)).1 }) := by
  have flushes : (p.write (Text.unlines ls)).1.flush = none :=
    (flush_write p _).trans (flush_of_takes takes)
  rw [prints, output]
  simp only [Sink.write, (write_of_takes takes).2, Sink.flush, flushes]
  rfl

end LineShell.ReadOperands
