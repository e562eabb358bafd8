import LineShell.Proofs.CopiedInputs
import LineShell.Proofs.JoinedLines

/-! Numbered lines. Each operand is written on its own, and its lines go on with the numbers
of those before it. An outlet takes what comes in parts as it takes the whole, also if there
is not room for all of it: once it is full it takes nothing more, and the first failure is the
one that counts. So numbered operands come to the same as the numbered lines of all of them. -/
namespace LineShell.NumberedLines
open CopiedInputs EchoLine JoinedLines ReadOperands StepAgreement Text

variable {p : Outlet} {xs ys bs : Bytes} {e : IoError} {s s' : Session} {name : String}
  {names args : List String} {inputs : List Bytes} {o : Options} {last : Nat}

/-! Writes in parts. -/

/-- There is room for all of the bytes. -/
def Fits (p : Outlet) (bs : Bytes) : Prop := ∀ room, p.room = some room → bs.length ≤ room

theorem write_of_fits (fits : Fits p bs) :
    p.write bs = ({ p with taken := p.taken ++ bs, room := p.room.map (· - bs.length) }, none) := by
  unfold Outlet.write
  cases room : p.room with
  | none => simp
  | some n =>
    have enough := fits n room
    simp [enough, List.take_of_length_le enough]

/-- An outlet without room for all of the bytes is full after them. -/
theorem write_of_over {n : Nat} (room : p.room = some n) (exceeds : n < bs.length) :
    p.write bs = ({ p with taken := p.taken ++ bs.take n, room := some 0 },
      some (.described "sink full" p.broken)) := by
  have short : (bs.take n).length = n := List.length_take_of_le (Nat.le_of_lt exceeds)
  simp [Outlet.write, room, Nat.not_le.mpr exceeds, short]

theorem fits_or_over (p : Outlet) (bs : Bytes) :
    Fits p bs ∨ ∃ n, p.room = some n ∧ n < bs.length := by
  rcases room : p.room with _ | n
  · exact .inl fun _ some => nomatch room.symm.trans some
  · rcases Nat.lt_or_ge n bs.length with exceeds | enough
    · exact .inr ⟨n, rfl, exceeds⟩
    · refine .inl fun n' some => ?_
      rwa [← Option.some.inj (room.symm.trans some)]

/-- What comes after bytes that fit is written after them. -/
theorem write_append (fits : Fits p xs) (ys : Bytes) :
    p.write (xs ++ ys) = (p.write xs).1.write ys := by
  rw [write_of_fits fits]
  rcases fits_or_over p (xs ++ ys) with both | ⟨n, room, exceeds⟩
  · have rest : Fits { p with taken := p.taken ++ xs, room := p.room.map (· - xs.length) } ys := by
      intro left known
      obtain ⟨n, room, rfl⟩ := Option.map_eq_some_iff.mp known
      have enough := both n room
      rw [List.length_append] at enough
      omega
    rw [write_of_fits both, write_of_fits rest]
    simp [Function.comp_def, Nat.sub_sub]
  · have enough := fits n room
    rw [List.length_append] at exceeds
    have rest : p.room.map (· - xs.length) = some (n - xs.length) := by rw [room]; rfl
    rw [write_of_over room (by rw [List.length_append]; omega),
      write_of_over (p := { p with
        taken := p.taken ++ xs
        room := p.room.map (· - xs.length) }) rest (by omega)]
    simp [List.take_append, List.take_of_length_le enough]

/-- A full outlet takes nothing more. -/
theorem write_append_over {n : Nat} (room : p.room = some n) (exceeds : n < xs.length)
    (ys : Bytes) : p.write (xs ++ ys) = p.write xs := by
  have longer : n < (xs ++ ys).length := by
    rw [List.length_append]
    omega
  rw [write_of_over room exceeds, write_of_over room longer,
    List.take_append_of_le_length (Nat.le_of_lt exceeds)]

theorem write_full (full : p.room = some 0) (ys : Bytes) : (p.write ys).1 = p := by
  obtain ⟨taken, room, flushFails, broken⟩ := p
  cases full
  simp [Outlet.write]

/-! Numbered operands. -/

theorem unlines_append (xs ys : List String) : unlines (xs ++ ys) = unlines xs ++ unlines ys :=
  List.flatMap_append

/-- The lines of an operand are written with their numbers, and give the last of these. -/
theorem start_numberOperand (last : Nat) (output : s.output = .outlet p)
    (read : (Job.readOperand name).start s = some (.ok bs, s')) (same : s'.output = s.output) :
    (Cat.numberOperand last name).start s =
      some (match (p.write (unlines (Cat.numberLines last (lines bs)))).2 with
        | none => .ok (last + (lines bs).length)
        | some e => .error (.io e),
        { s' with
          output := .outlet (p.write (unlines (Cat.numberLines last (lines bs)))).1 }) := by
  have wrote : (Act.write (unlines (Cat.numberLines last (lines bs)))).start s' = _ :=
    start_write (same.trans output)
  simp only [Cat.numberOperand, start_bind, read, Job.write, Job.ofIo, start_mapError, wrote,
    Option.map]
  cases (p.write (unlines (Cat.numberLines last (lines bs)))).2 <;> rfl

/-- What numbered operands come to on an outlet before it is flushed. -/
def emitted (result : Outlet × Option IoError) (s : Session) :
    Option (Except Complaint (Option Complaint) × Session) :=
  some (match result.2 with
    | none => .ok none
    | some e => if e.isBrokenPipe then .error (.io e) else .ok (some (.io e)),
    { s with output := .outlet result.1 })

/-- A full outlet whose reader has not gone away lets the rest of the operands be read. -/
theorem emitted_full (full : p.room = some 0) (unbroken : p.broken = false) (bs : Bytes)
    (s : Session) :
    ∃ complaint, emitted (p.write bs) s = some (.ok complaint, { s with output := .outlet p }) := by
  rw [emitted, write_full full]
  rcases fits_or_over p bs with fits | ⟨n, room, exceeds⟩
  · rw [write_of_fits fits]
    exact ⟨_, rfl⟩
  · rw [write_of_over room exceeds]
    refine ⟨some (.io (.described "sink full" p.broken)), ?_⟩
    simp [IoError.isBrokenPipe, unbroken]

/-- Numbered operands come to the same as their numbered lines written at once. -/
theorem start_emitAll_number (last : Nat) (files : FilesHold s.disk s.cwd names inputs) :
    (Cat.emitAll Cat.numberOperand last names).start { s with output := .outlet p } =
      emitted (p.write (unlines (Cat.numberLines last (inputs.flatMap lines)))) s := by
  induction files generalizing p last with
  | nil =>
    have nothing : Fits p [] := fun _ _ => Nat.zero_le _
    have empty : unlines (Cat.numberLines last ([].flatMap lines)) = [] := rfl
    rw [empty, write_of_fits nothing]
    simp [Cat.emitAll, emitted]
  | @cons name bs names inputs here later ih =>
    have read := start_readOperand_file (s := { s with output := .outlet p }) here.1 here.2
    have first := start_numberOperand last rfl read rfl
    have rest (p : Outlet) := ih (p := p) (last + (lines bs).length)
    rw [List.flatMap_cons, numberLines_append, unlines_append]
    generalize unlines (Cat.numberLines last (lines bs)) = written at first ⊢
    generalize unlines (Cat.numberLines (last + (lines bs).length) (inputs.flatMap lines)) = more
      at rest ⊢
    rcases fits_or_over p written with fits | ⟨n, room, exceeds⟩
    · rw [write_append fits]
      rw [write_of_fits fits] at first ⊢
      simp only [Cat.emitAll, start_bind, start_attempt, first, Option.map, rest]
    · rw [write_append_over room exceeds]
      rw [write_of_over room exceeds] at first ⊢
      simp only [Cat.emitAll, start_bind, start_attempt, first, Option.map, emitted,
        Complaint.isBrokenPipe, IoError.isBrokenPipe]
      cases broken : p.broken with
      | true => rfl
      | false =>
        -- The numbers of the rest no longer matter.
        obtain ⟨complaint, left⟩ := emitted_full
          (p := ⟨p.taken ++ written.take n, some 0, p.flushFails, false⟩) rfl rfl
          (unlines (Cat.numberLines last (inputs.flatMap lines))) s
        simp only [Bool.false_eq_true, if_false, start_bind, ih, left, start_pure]

/-! The run. -/

/-- What bytes come to that are written to an outlet which is then flushed. -/
def passing (p : Outlet) (failure : IoError → IoError) (bs : Bytes) : Except Complaint Outcome :=
  match (p.write bs).2 with
  | none => p.flush.elim (.ok .proceed) fun e => .error (.io e)
  | some e => .error (.io (failure e))

/-- What numbered lines come to: a failure to flush counts more than one to write, unless the
reader has gone away. -/
def numbering (p : Outlet) (ls : List String) : Except Complaint Outcome :=
  passing p (fun e => if e.isBrokenPipe then e else p.flush.getD e)
    (unlines (Cat.numberLines 0 ls))

/-- `cat -n` flushes what its operands come to and settles it. -/
theorem start_run_number (parsed : Options.parse "n".toList args = .ok o)
    (numbers : o.has 'n' = true) {ls : List String} (rest : Source)
    (emits : (Cat.emitAll Cat.numberOperand 0 (o.operandsOr "-")).start s =
      emitted (p.write (unlines (Cat.numberLines 0 ls))) { s with input := rest }) :
    (Cat.run args).start s = some (numbering p ls, { s with
      input := rest
      output := .outlet (p.write (unlines (Cat.numberLines 0 ls))).1 }) := by
  have flushed := flush_write p (unlines (Cat.numberLines 0 ls))
  simp only [Cat.run, start_bind, start_options parsed, numbers, if_true, emits, emitted, numbering,
    passing]
  generalize p.write (unlines (Cat.numberLines 0 ls)) = written at flushed ⊢
  obtain ⟨p', _ | e⟩ := written
  · simp only [Job.flush, Job.ofIo, start_mapError, start_flush, Sink.flush, flushed, Option.map]
    cases p.flush <;> rfl
  · cases broken : e.isBrokenPipe with
    | true => simp [broken]
    | false =>
      simp only [broken, Bool.false_eq_true, if_false, Job.flush, Job.ofIo, start_mapError,
        start_flush, Sink.flush, flushed, Option.map]
      cases p.flush <;> rfl

/-- `cat -n` of files. -/
theorem start_number_files (output : s.output = .outlet p)
    (parsed : Options.parse "n".toList args = .ok o) (numbers : o.has 'n' = true)
    (operands : o.operands = names) (nonempty : names ≠ [])
    (files : FilesHold s.disk s.cwd names inputs) :
    (Cat.run args).start s = some (numbering p (inputs.flatMap lines), { s with
      output := .outlet (p.write (unlines (Cat.numberLines 0 (inputs.flatMap lines)))).1 }) := by
  have given := operandsOr_some operands nonempty "-"
  have emits := start_emitAll_number (p := p) 0 files
  have here : { s with output := .outlet p } = s := by rw [← output]
  rw [here, ← given] at emits
  exact start_run_number parsed numbers s.input emits

/-- `cat -n` of the input. -/
theorem start_number_input (output : s.output = .outlet p)
    (parsed : Options.parse "n".toList args = .ok o) (numbers : o.has 'n' = true)
    (operands : o.operands = []) (sound : s.input.fault = none) :
    (Cat.run args).start s = some (numbering p (lines (s.input.held s.disk)), { s with
      input := s.input.skip (s.input.held s.disk).length
      output := .outlet
        (p.write (unlines (Cat.numberLines 0 (lines (s.input.held s.disk))))).1 }) := by
  have given := operandsOr_none operands "-"
  apply start_run_number parsed numbers _
  have read := start_readOperand_input sound
  have first := start_numberOperand 0 output read rfl
  rw [given]
  simp only [Cat.emitAll, start_bind, start_attempt, first, Option.map, emitted]
  cases (p.write (unlines (Cat.numberLines 0 (lines (s.input.held s.disk))))).2 with
  | none => rfl
  | some e =>
    have known : (Complaint.io e).isBrokenPipe = e.isBrokenPipe := rfl
    dsimp only
    by_cases broken : e.isBrokenPipe = true
    · rw [if_pos (known.trans broken), if_pos broken, start_throw]
    · rw [if_neg (known ▸ broken), if_neg broken]
      rfl

end LineShell.NumberedLines
