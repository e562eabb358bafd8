import LineShell.Proofs.NumberedLines

/-! Copies whose output may be the file that they read. A copy reads where it got to and writes
where its output stands, so it is fed by what it writes if the next write goes to a later place of
the same file than the next read. Then it finds something to read after every write and never ends.
Otherwise no write reaches what is still to be read, and the copy ends with what its input held. -/
namespace LineShell.CopyRounds
open AmbientStreams ApplicationAgreement CopiedInputs EchoLine NumberedLines OpenedTargets
open SessionBonds StepAgreement

/-- A copy reads what it writes: its output is the file that it reads, of which something is left,
and writes go to the end or to a later place than reads. -/
def FeedsItself (d : Disk) : Sink → Source → Prop
  | .file id next, .file id' reached =>
    id' = id ∧ reached < (d.content id).length ∧ ∀ place, next = some place → reached < place
  | _, _ => False

/-- The bytes that an output takes of those that it is given. -/
def accepted : Sink → Bytes → Bytes
  | .outlet p, bs => p.room.elim bs (bs.take ·)
  | .file _ _, bs => bs

/-- The session after its output has taken some bytes, if any. -/
def wrote (s : Session) (bs : Bytes) : Session :=
  if bs = [] then s
  else { s with
    disk := (s.output.write s.disk bs).1
    output := (s.output.write s.disk bs).2.1 }

/-- Copies the input to the output in so many rounds at most. -/
def copying (rounds : Nat) : Act IoError Unit := Job.pump (fun () bs => Act.write bs) rounds ()

/-- Why a copy fails, if it does: what the input held does not fit into the output, or the input
fails in place of its end. -/
def failure? (s : Session) : Option IoError :=
  (s.output.write s.disk (s.input.held s.disk)).2.2.or s.input.fault

variable {d : Disk} {s : Session} {source : Source} {sink : Sink} {p : Outlet} {id : FileId}
  {block bs rest : Bytes} {rounds : Nat}

/-! Files. -/

theorem content_setContent_self (held : id < d.contents.length) (bs : Bytes) :
    (d.setContent id bs).content id = bs := by
  rw [content_setContent bs id held, if_pos rfl]

theorem content_setContent_other {other : FileId} (differs : other ≠ id) (bs : Bytes) :
    (d.setContent id bs).content other = d.content other := by
  simp [Disk.content, Disk.setContent, List.getD_eq_getElem?_getD, Ne.symm differs]

theorem lt_of_content (some : d.content id ≠ []) : id < d.contents.length := by
  by_contra beyond
  refine some ?_
  rw [Disk.content, List.getD_eq_getElem?_getD,
    List.getElem?_eq_none (Nat.le_of_not_lt beyond)]
  rfl

theorem content_append (some : d.content id ≠ []) (bs : Bytes) :
    (d.append id bs).content id = d.content id ++ bs :=
  content_setContent_self (lt_of_content some) _

theorem content_overwrite (some : d.content id ≠ []) (place : Nat) (bs : Bytes) :
    (d.overwrite id place bs).content id =
      (d.content id).take place ++ List.replicate (place - (d.content id).length) 0 ++ bs ++
        (d.content id).drop (place + bs.length) :=
  content_setContent_self (lt_of_content some) _

theorem append_append (d : Disk) (id : FileId) (block rest : Bytes) :
    (d.append id block).append id rest = d.append id (block ++ rest) := by
  rcases Nat.lt_or_ge id d.contents.length with held | beyond
  · have written : (d.append id block).content id = d.content id ++ block :=
      content_setContent_self held _
    rw [Disk.append, written, List.append_assoc]
    simp [Disk.append, Disk.setContent]
  · simp [Disk.append, Disk.setContent, List.set_eq_of_length_le beyond]

theorem overwrite_overwrite (d : Disk) (id : FileId) (place : Nat) (block rest : Bytes) :
    (d.overwrite id place block).overwrite id (place + block.length) rest =
      d.overwrite id place (block ++ rest) := by
  rcases Nat.lt_or_ge id d.contents.length with held | beyond
  · have written : (d.overwrite id place block).content id =
        ((d.content id).take place ++ List.replicate (place - (d.content id).length) 0 ++ block) ++
          (d.content id).drop (place + block.length) := content_setContent_self held _
    obtain ⟨first, start⟩ : ∃ first, first = (d.content id).take place ++
        List.replicate (place - (d.content id).length) 0 ++ block := ⟨_, rfl⟩
    have long : first.length = place + block.length := by
      simp only [start, List.length_append, List.length_take, List.length_replicate]
      omega
    rw [← start] at written
    have filled : place + block.length - (d.overwrite id place block |>.content id).length = 0 := by
      rw [written, List.length_append, long]
      omega
    have later : (first ++ (d.content id).drop first.length).drop (first.length + rest.length) =
        (d.content id).drop (place + (block ++ rest).length) := by
      rw [List.drop_append, List.drop_eq_nil_of_le (Nat.le_add_right _ _), Nat.add_sub_cancel_left,
        List.drop_drop, List.length_append, ← Nat.add_assoc, long, List.nil_append]
    rw [Disk.overwrite, filled, written, ← long, List.take_left, later, start]
    simp [Disk.overwrite, Disk.setContent]
  · simp [Disk.overwrite, Disk.setContent, List.set_eq_of_length_le beyond]

/-! Writes. -/

theorem write_nil (p : Outlet) : p.write [] = (p, none) := by
  have nothing : Fits p [] := fun _ _ => Nat.zero_le _
  rw [write_of_fits nothing]
  simp

theorem wrote_nil (s : Session) : wrote s [] = s := if_pos rfl

theorem wrote_outlet (output : s.output = .outlet p) (bs : Bytes) :
    wrote s bs = { s with output := .outlet (p.write bs).1 } := by
  unfold wrote
  split
  · rename_i nothing
    rw [nothing, write_nil, ← output]
  · rw [output]
    rfl

/-- An outlet takes what it accepts. -/
theorem write_accepted (p : Outlet) (bs : Bytes) :
    (p.write (accepted (.outlet p) bs)).1 = (p.write bs).1 := by
  rcases fits_or_over p bs with fits | ⟨n, room, exceeds⟩
  · cases room : p.room with
    | none => rw [accepted, room, Option.elim]
    | some n => rw [accepted, room, Option.elim, List.take_of_length_le (fits n room)]
  · have enough : Fits p (bs.take n) := fun n' some => by
      rw [← Option.some.inj (room.symm.trans some)]
      exact List.length_take_le n bs
    have short : (bs.take n).length = n := List.length_take_of_le (Nat.le_of_lt exceeds)
    rw [accepted, room, Option.elim, write_of_fits enough, write_of_over room exceeds]
    simp only [room, short, Option.map_some, Nat.sub_self]

theorem fits_of_took (output : s.output = .outlet p)
    (took : (s.output.write s.disk block).2.2 = none) : Fits p block := by
  rcases fits_or_over p block with fits | ⟨n, room, exceeds⟩
  · exact fits
  · rw [output, Sink.write, write_of_over room exceeds] at took
    cases took

theorem accepted_of_took (took : (s.output.write s.disk block).2.2 = none) :
    accepted s.output block = block := by
  cases output : s.output with
  | outlet p =>
    have fits := fits_of_took output took
    cases room : p.room with
    | none => rw [accepted, room, Option.elim]
    | some n => rw [accepted, room, Option.elim, List.take_of_length_le (fits n room)]
  | file id next => rfl

theorem wrote_end (output : s.output = .file id none) (filled : bs ≠ []) :
    wrote s bs = { s with disk := s.disk.append id bs, output := .file id none } := by
  rw [wrote, if_neg filled, output]
  rfl

theorem wrote_place {place : Nat} (output : s.output = .file id (some place)) (filled : bs ≠ []) :
    wrote s bs = { s with
      disk := s.disk.overwrite id place bs
      output := .file id (some (place + bs.length)) } := by
  rw [wrote, if_neg filled, output]
  rfl

/-- A block is written as far as the output takes it. -/
theorem start_write_block (filled : block ≠ []) (s : Session) :
    (Act.write block).start s =
      some ((s.output.write s.disk block).2.2.elim (.ok ()) .error,
        wrote s (accepted s.output block)) := by
  cases output : s.output with
  | outlet p =>
    rw [start_write output, wrote_outlet output, write_accepted]
    rfl
  | file id next =>
    rw [accepted, wrote, if_neg filled, output]
    cases next <;> simp only [Act.start, Act.write, ExceptT.run, output] <;> rfl

/-- What comes after a block that is taken is written after it. -/
theorem wrote_wrote (took : (s.output.write s.disk block).2.2 = none) (filled : block ≠ [])
    (rest : Bytes) :
    wrote (wrote s block) (accepted (wrote s block).output rest) =
      wrote s (accepted s.output (block ++ rest)) := by
  have both : block ++ rest ≠ [] := by simp [filled]
  cases output : s.output with
  | outlet p =>
    rw [wrote_outlet output, wrote_outlet output, wrote_outlet rfl, write_accepted, write_accepted,
      write_append (fits_of_took output took)]
  | file id next =>
    by_cases nothing : rest = []
    · subst nothing
      cases next with
      | none => rw [wrote_end output filled, accepted, wrote_nil, accepted, List.append_nil,
          wrote_end output filled]
      | some place => rw [wrote_place output filled, accepted, wrote_nil, accepted, List.append_nil,
          wrote_place output filled]
    · cases next with
      | none => rw [wrote_end output filled, accepted, wrote_end rfl nothing, append_append,
          accepted, wrote_end output both]
      | some place => rw [wrote_place output filled, accepted, wrote_place rfl nothing,
          overwrite_overwrite, Nat.add_assoc, ← List.length_append, accepted,
          wrote_place output both]

theorem failed_later (took : (s.output.write s.disk block).2.2 = none) (filled : block ≠ [])
    (rest : Bytes) :
    ((wrote s block).output.write (wrote s block).disk rest).2.2 =
      (s.output.write s.disk (block ++ rest)).2.2 := by
  cases output : s.output with
  | outlet p =>
    rw [wrote_outlet output]
    simp only [Sink.write, write_append (fits_of_took output took)]
  | file id next =>
    cases next with
    | none =>
      rw [wrote_end output filled]
      rfl
    | some place =>
      rw [wrote_place output filled]
      rfl

/-- An output that does not take all of a block takes nothing after it. -/
theorem failed_already {e : IoError} (failed : (s.output.write s.disk block).2.2 = some e)
    (rest : Bytes) :
    (s.output.write s.disk (block ++ rest)).2.2 = some e ∧
      accepted s.output (block ++ rest) = accepted s.output block := by
  cases output : s.output with
  | outlet p =>
    rw [output] at failed
    rcases fits_or_over p block with fits | ⟨n, room, exceeds⟩
    · rw [Sink.write, write_of_fits fits] at failed
      cases failed
    · refine ⟨?_, ?_⟩
      · rw [← failed]
        simp only [Sink.write, write_append_over room exceeds]
      · rw [accepted, accepted, room, Option.elim, Option.elim,
          List.take_append_of_le_length (Nat.le_of_lt exceeds)]
  | file id next =>
    rw [output] at failed
    cases next <;> cases failed

theorem wrote_input (s : Session) (input : Source) (bs : Bytes) :
    wrote { s with input } bs = { wrote s bs with input } := by
  unfold wrote
  split <;> rfl

/-! What a block leaves to be read. -/

/-- What is further on in a file than a block that is written is still there. -/
theorem drop_overwrite {place reached : Nat} (file : d.content id ≠ []) (before : place ≤ reached)
    (block : Bytes) :
    ((d.overwrite id place block).content id).drop (reached + block.length) =
      (d.content id).drop (reached + block.length) := by
  rw [content_overwrite file]
  generalize front : (d.content id).take place ++
    List.replicate (place - (d.content id).length) 0 ++ block = first
  have long : first.length = place + block.length := by
    simp only [← front, List.length_append, List.length_take, List.length_replicate]
    omega
  rw [List.drop_append, List.drop_eq_nil_of_le (by omega), List.nil_append, List.drop_drop, long]
  congr 1
  omega

theorem length_overwrite (file : d.content id ≠ []) (place : Nat) (block : Bytes) :
    place + block.length ≤ ((d.overwrite id place block).content id).length := by
  simp only [content_overwrite file, List.length_append, List.length_take, List.length_replicate,
    List.length_drop]
  omega

theorem content_wrote_other {next : Option Nat} {other : FileId} (output : s.output = .file id next)
    (differs : other ≠ id) (filled : block ≠ []) :
    (wrote s block).disk.content other = s.disk.content other := by
  cases next with
  | none =>
    rw [wrote_end output filled]
    exact content_setContent_other differs _
  | some place =>
    rw [wrote_place output filled]
    exact content_setContent_other differs _

/-- A copy that does not feed itself goes on so after a block, and with what is left. -/
theorem apart_wrote (apart : ¬FeedsItself s.disk s.output s.input) (filled : block ≠ [])
    (held : s.input.held s.disk = block ++ rest) :
    (s.input.skip block.length).held (wrote s block).disk = rest ∧
      ¬FeedsItself (wrote s block).disk (wrote s block).output (s.input.skip block.length) := by
  have skipped : (s.input.skip block.length).held s.disk = rest := by
    rw [held_skip, held, List.drop_left]
  cases input : s.input with
  | stream bytes fault =>
    rw [input] at skipped
    refine ⟨skipped, ?_⟩
    cases (wrote s block).output <;> exact id
  | file read reached =>
    rw [input] at skipped held apart
    cases output : s.output with
    | outlet p =>
      rw [wrote_outlet output]
      exact ⟨skipped, id⟩
    | file id next =>
      by_cases same : read = id
      · -- The output is the file that is read, so the next write goes no further than the next read.
        subst same
        have left : reached < (s.disk.content read).length := by
          have positive := List.length_pos_iff.mpr filled
          have total := congrArg List.length held
          rw [Source.held, List.length_drop, List.length_append] at total
          omega
        have file : s.disk.content read ≠ [] := List.ne_nil_of_length_pos (by omega)
        obtain ⟨place, rfl, before⟩ : ∃ place, next = some place ∧ place ≤ reached := by
          by_contra none
          refine apart (output ▸ ⟨rfl, left, fun place there => ?_⟩)
          by_contra later
          exact none ⟨place, there, Nat.le_of_not_lt later⟩
        rw [wrote_place output filled]
        refine ⟨(drop_overwrite file before block).trans skipped, fun feeds => ?_⟩
        have later := feeds.2.2 _ rfl
        omega
      · refine ⟨?_, ?_⟩
        · rw [Source.skip, Source.held, content_wrote_other output same filled]
          exact skipped
        · cases next with
          | none =>
            rw [wrote_end output filled]
            exact fun feeds => same feeds.1
          | some place =>
            rw [wrote_place output filled]
            exact fun feeds => same feeds.1

/-- A copy that feeds itself goes on so after every block. -/
theorem feeds_wrote (feeds : FeedsItself s.disk s.output s.input) (filled : block ≠ []) :
    (s.output.write s.disk block).2.2 = none ∧
      FeedsItself (wrote s block).disk (wrote s block).output (s.input.skip block.length) := by
  cases input : s.input with
  | stream bytes fault =>
    rw [input] at feeds
    cases output : s.output <;> rw [output] at feeds <;> cases feeds
  | file read reached =>
    cases output : s.output with
    | outlet p =>
      rw [input, output] at feeds
      cases feeds
    | file id next =>
      rw [input, output] at feeds
      obtain ⟨rfl, left, later⟩ := feeds
      have file : s.disk.content read ≠ [] := List.ne_nil_of_length_pos (by omega)
      cases next with
      | none =>
        rw [wrote_end output filled]
        refine ⟨rfl, rfl, ?_, nofun⟩
        rw [content_append file, List.length_append]
        omega
      | some place =>
        have before := later place rfl
        have long := length_overwrite file place block
        rw [wrote_place output filled]
        refine ⟨rfl, rfl, Nat.lt_of_lt_of_le (Nat.add_lt_add_right before _) long, ?_⟩
        rintro _ ⟨⟩
        omega

/-! Rounds. -/

/-- A round ends the copy if nothing is left, and otherwise writes a block and goes on. -/
theorem start_copying_succ (rounds : Nat) (s : Session) :
    (s.input.held s.disk = [] ∧
      (copying (rounds + 1)).start s = some (ended s.input.fault (), s)) ∨
    ∃ block rest, block ≠ [] ∧ s.input.held s.disk = block ++ rest ∧
      (copying (rounds + 1)).start s =
        match (s.output.write s.disk block).2.2 with
        | some e => some (.error e,
          { wrote s (accepted s.output block) with input := s.input.skip block.length })
        | none => (copying rounds).start
          { wrote s block with input := s.input.skip block.length } := by
  have positive : 0 < Job.chunk := by decide
  rw [copying, Job.pump, start_bind, start_read, read_eq _ positive]
  by_cases nothing : s.input.held s.disk = []
  · refine .inl ⟨nothing, ?_⟩
    rw [if_pos nothing]
    cases s.input.fault <;> rfl
  · rw [if_neg nothing]
    obtain ⟨block, taken⟩ : ∃ block, block = (s.input.held s.disk).take Job.chunk := ⟨_, rfl⟩
    have filled : block ≠ [] := by
      rw [taken]
      simpa [nothing] using Nat.ne_of_gt positive
    refine .inr ⟨block, (s.input.held s.disk).drop Job.chunk, filled, ?_, ?_⟩
    · rw [taken, List.take_append_drop]
    · have some : block.isEmpty = false := by simpa using filled
      rw [← taken]
      dsimp only
      rw [some, if_neg Bool.false_ne_true, start_bind, start_write_block filled, wrote_input]
      dsimp only
      cases written : (s.output.write s.disk block).2.2 with
      | none =>
        rw [accepted_of_took written]
        rfl
      | some e => rfl

theorem held_of_feeds (feeds : FeedsItself d sink source) : source.held d ≠ [] := by
  cases source with
  | stream bytes fault => cases sink <;> cases feeds
  | file read reached =>
    cases sink with
    | outlet p => cases feeds
    | file id next =>
      obtain ⟨rfl, left, -⟩ := feeds
      simpa [Source.held] using left

/-- A copy that feeds itself does not end in any number of rounds. -/
theorem start_copying_fed (feeds : FeedsItself s.disk s.output s.input) (rounds : Nat) :
    (copying rounds).start s = none := by
  induction rounds generalizing s with
  | zero => rfl
  | succ rounds ih =>
    rcases start_copying_succ rounds s with ⟨nothing, -⟩ | ⟨block, rest, filled, -, round⟩
    · exact absurd nothing (held_of_feeds feeds)
    · obtain ⟨took, still⟩ := feeds_wrote feeds filled
      rw [round, took]
      exact ih still

/-- Any other copy ends, in as many rounds as its input holds bytes and one more. All that the
output takes of what the input holds is written; if that is all, all is read. -/
theorem start_copying_apart (apart : ¬FeedsItself s.disk s.output s.input)
    (enough : (s.input.held s.disk).length < rounds) :
    ∃ n, ((s.output.write s.disk (s.input.held s.disk)).2.2 = none →
        n = (s.input.held s.disk).length) ∧
      (copying rounds).start s =
        some ((failure? s).elim (.ok ()) .error,
          { wrote s (accepted s.output (s.input.held s.disk)) with input := s.input.skip n }) := by
  induction rounds generalizing s with
  | zero => omega
  | succ rounds ih =>
    rcases start_copying_succ rounds s with ⟨nothing, round⟩ | ⟨block, rest, filled, held, round⟩
    · have takesNothing : (s.output.write s.disk []).2.2 = none := by
        cases output : s.output with
        | outlet p => rw [Sink.write, write_nil]
        | file id next => cases next <;> rfl
      refine ⟨0, fun _ => by rw [nothing]; rfl, ?_⟩
      rw [round, failure?, nothing, takesNothing, accepted_of_took takesNothing, wrote_nil, skip_zero]
      cases s.input.fault <;> rfl
    · rw [round, failure?, held]
      -- A block that is not taken ends the copy; after any other the copy goes on with the rest.
      cases written : (s.output.write s.disk block).2.2 with
      | some e =>
        obtain ⟨failed, same⟩ := failed_already written rest
        refine ⟨block.length, fun took => ?_, by rw [failed, same]; rfl⟩
        rw [failed] at took
        cases took
      | none =>
        obtain ⟨left, still⟩ := apart_wrote apart filled held
        have fewer : rest.length < rounds := by
          have positive := List.length_pos_iff.mpr filled
          rw [held, List.length_append] at enough
          omega
        obtain ⟨n, whole, copied⟩ :=
          ih (s := { wrote s block with input := s.input.skip block.length }) still
            (by rw [left]; exact fewer)
        dsimp only at whole
        rw [left, failed_later written filled] at whole
        refine ⟨block.length + n, fun took => by rw [whole took, List.length_append],
          copied.trans ?_⟩
        rw [failure?]
        dsimp only
        rw [left, failed_later written filled, fault_skip, skip_skip, wrote_input (wrote s block),
          wrote_wrote written filled]

end LineShell.CopyRounds
