import LineShell.Proofs.AmbientStreams
import LineShell.Proofs.PipeIntoCat
import LineShell.Proofs.ReadOperands

/-! Copies of an input. A copy reads in blocks until its input ends or fails, and hands
each block to a step. What the step carries from the bytes before a block to those with
it, the copy carries to the whole input, whatever the blocks are. So `cat` writes the
bytes of the files that its operands name, one file after the other. -/
namespace LineShell.CopiedInputs
open AmbientStreams ApplicationAgreement EchoLine OpenedTargets PipeIntoCat ReadOperands
open RedirectedOutput SessionBonds StepAgreement

/-- What a copy comes to once its input has ended, or failed in place of the end. -/
def ended {σ : Type} (fault : Option IoError) (state : σ) : Except IoError σ :=
  fault.elim (.ok state) .error

/-- What a copy does whose reads give these blocks before its input ends or fails. -/
def feed {σ : Type} (step : σ → Bytes → Act IoError σ) (fault : Option IoError) :
    List Bytes → σ → Act IoError σ
  | [], state => Act.ofExcept (ended fault state)
  | bs :: rest, state => do
    let state ← step state bs
    feed step fault rest state

/-- What holds of a copy all the time, with the bytes that it has passed on: a step
carries it on and leaves the input alone, nothing of it is about the input, and a file
that is the source keeps what it held on the disk `d`. -/
structure Carries {σ : Type} (step : σ → Bytes → Act IoError σ) (d : Disk) (source : Source)
    (P : σ → Bytes → Session → Prop) : Prop where
  step : ∀ {state passed s} bs, P state passed s →
    ∃ state' s', (step state bs).start s = some (.ok state', s') ∧ s'.input = s.input ∧
      P state' (passed ++ bs) s'
  apart : ∀ {state passed s} input, P state passed s → P state passed { s with input }
  kept : ∀ {state passed s} id pos, P state passed s → source = .file id pos →
    s.disk.content id = d.content id

variable {σ : Type} {step : σ → Bytes → Act IoError σ} {d : Disk} {source : Source}
  {P : σ → Bytes → Session → Prop} {state : σ} {passed : Bytes} {s : Session}

/-! Reading on. -/

/-- A read of at least one byte gives a block, or there is nothing left. -/
theorem read_eq (d : Disk) {n : Nat} (positive : 0 < n) (source : Source) :
    source.read d n =
      if source.held d = [] then (ended source.fault [], source)
      else (.ok ((source.held d).take n), source.skip ((source.held d).take n).length) := by
  by_cases nothing : source.held d = []
  · rw [if_pos nothing, Source.read, nothing, List.take_nil]
    cases source.fault <;> rfl
  · have block : (source.held d).take n ≠ [] := by
      simpa [nothing] using Nat.ne_of_gt positive
    simp only [Source.read, List.isEmpty_iff, block, nothing, if_false]

namespace Carries

theorem skip (carries : Carries step d source P) (n : Nat) : Carries step d (source.skip n) P where
  step := carries.step
  apart := carries.apart
  kept id pos holds same := by
    cases source with
    | stream => cases same
    | file id' pos' =>
      cases same
      exact carries.kept id pos' holds rfl

theorem held (carries : Carries step d source P) (holds : P state passed s) :
    source.held s.disk = source.held d := by
  cases source with
  | stream => rfl
  | file id pos => exact congrArg (List.drop pos) (carries.kept id pos holds rfl)

/-- A copy with rounds enough passes its whole input on. -/
theorem pump (carries : Carries step d source P) {rounds : Nat} (holds : P state passed s)
    (input : s.input = source) (enough : (source.held d).length < rounds) :
    ∃ state' s', (Job.pump step rounds state).start s = some (ended source.fault state', s') ∧
      s'.input = source.skip (source.held d).length ∧
      P state' (passed ++ source.held d) s' := by
  induction rounds generalizing source state passed s with
  | zero => omega
  | succ rounds ih =>
    have positive : 0 < Job.chunk := by decide
    have read : s.input.read s.disk Job.chunk = source.read s.disk Job.chunk := by rw [input]
    rw [Job.pump, start_bind, start_read, read, read_eq _ positive, carries.held holds]
    by_cases nothing : source.held d = []
    · -- The input has ended: the state is the result, or the failure is.
      rw [if_pos nothing]
      refine ⟨state, { s with input := source }, ?_, ?_, ?_⟩
      · cases source.fault <;> rfl
      · rw [nothing, List.length_nil, skip_zero]
      · rw [nothing, List.append_nil]
        exact carries.apart source holds
    · rw [if_neg nothing]
      obtain ⟨block, taken⟩ : ∃ block, block = (source.held d).take Job.chunk := ⟨_, rfl⟩
      have some : block ≠ [] := by
        rw [taken]
        simpa [nothing] using Nat.ne_of_gt positive
      have filled : block.isEmpty = false := by simpa using some
      have whole : block ++ (source.held d).drop block.length = source.held d := by
        rw [taken, List.length_take, List.take_eq_take_min, List.take_append_drop]
      rw [← taken]
      dsimp only
      rw [filled, if_neg Bool.false_ne_true, start_bind]
      obtain ⟨state₁, s₁, stepped, same, holds₁⟩ :=
        carries.step block (carries.apart (source.skip block.length) holds)
      have rest : ((source.skip block.length).held d).length < rounds := by
        have shorter := congrArg List.length whole
        have positive := List.length_pos_iff.mpr some
        rw [List.length_append] at shorter
        rw [held_skip]
        omega
      obtain ⟨state', s', pumped, left, holds'⟩ :=
        ih (carries.skip block.length) holds₁ same rest
      rw [stepped]
      refine ⟨state', s', ?_, ?_, ?_⟩
      · rw [fault_skip] at pumped
        exact pumped
      · rw [left, skip_skip, held_skip, ← List.length_append, whole]
      · rwa [List.append_assoc, held_skip, whole] at holds'

/-- A copy passes its whole input on. -/
theorem pumpAll (carries : Carries step d source P) (holds : P state passed s)
    (input : s.input = source) :
    ∃ state' s', (Job.pumpAll step state).start s = some (ended source.fault state', s') ∧
      s'.input = source.skip (source.held d).length ∧
      P state' (passed ++ source.held d) s' := by
  have held : s.input.held s.disk = source.held d := by rw [input, carries.held holds]
  rw [start_pumpAll, held]
  exact carries.pump holds input (Nat.lt_succ_of_le (Nat.le_add_right _ _))

/-- So does one whose reads give the input in other blocks. -/
theorem feed (carries : Carries step d source P) (fault : Option IoError) (blocks : List Bytes)
    (holds : P state passed s) :
    ∃ state' s', (CopiedInputs.feed step fault blocks state).start s =
        some (ended fault state', s') ∧
      s'.input = s.input ∧ P state' (passed ++ blocks.flatten) s' := by
  induction blocks generalizing state passed s with
  | nil => exact ⟨state, s, rfl, rfl, by rwa [List.flatten_nil, List.append_nil]⟩
  | cons bs blocks ih =>
    obtain ⟨state₁, s₁, stepped, same, holds₁⟩ := carries.step bs holds
    obtain ⟨state', s', fed, left, holds'⟩ := ih holds₁
    refine ⟨state', s', ?_, left.trans same, ?_⟩
    · rw [CopiedInputs.feed, start_bind, stepped]
      exact fed
    · rwa [List.append_assoc, ← List.flatten_cons] at holds'

end Carries

/-! `cat` of files. -/

/-- The files that operands name hold these bytes. -/
def FilesHold (d : Disk) (cwd : Place) : List String → List Bytes → Prop :=
  List.Forall₂ fun name bs => name ≠ "-" ∧ contentAt? d (Path.resolve cwd name) = some bs

variable {p : Outlet} {name : String} {names args : List String} {bs : Bytes}
  {inputs : List Bytes} {o : Options}

theorem reads_files {cwd : Place} {input : Source} (files : FilesHold d cwd names inputs) :
    Reads d cwd input names inputs input := by
  induction files with
  | nil => exact .done
  | cons here _ ih => exact .file here.1 here.2 ih

/-- What is copied to an output that takes everything is added to what it has taken. -/
theorem carries_write (unlimited : Unlimited p) (s : Session) (source : Source) :
    Carries (fun () bs => Act.write bs) s.disk source
      fun () passed t => t = { s with output := .outlet (fed p passed), input := t.input } where
  step {_ passed t} bs holds := by
    have wrote := start_write_unlimited (unlimited.fed passed) (s := t)
      (by rw [holds]) bs
    rw [fed_fed] at wrote
    refine ⟨(), _, wrote, rfl, ?_⟩
    rw [holds]
  apart {_ passed t} input holds := by
    rw [holds]
  kept {_ passed t} id pos holds _ := by
    rw [holds]

/-- A file is copied to an output that takes everything. -/
theorem start_copyOperand (unlimited : Unlimited p) (output : s.output = .outlet p)
    (named : name ≠ "-") (held : contentAt? s.disk (Path.resolve s.cwd name) = some bs) :
    (Cat.copyOperand name).start s = some (.ok (), { s with output := .outlet (fed p bs) }) := by
  unfold contentAt? at held
  split at held
  · rename_i id leads
    obtain ⟨q, ends⟩ := lead?_eq_file.mp leads
    cases held
    have carries := carries_write unlimited { s with input := .file id 0 } (.file id 0)
    obtain ⟨_, s', copied, -, same⟩ := @Carries.pumpAll _ _ _ _ _ () []
      { s with input := .file id 0 } carries (by rw [fed_nil, ← output]) rfl
    rw [List.nil_append, Source.held, List.drop_zero] at same
    rw [Cat.copyOperand, if_neg named, start_bind, start_openOperand, ends]
    simp only [opening, start_withInput, Cat.copy, Job.ofIo, start_mapError, copied, Option.map]
    rw [same]
    rfl
  · cases held

/-- What `cat` does with an operand whose lines it does not number. -/
def copyNext (last : Nat) (name : String) : Job Nat := do
  Cat.copyOperand name
  return last

theorem start_emitAll_copy (unlimited : Unlimited p) (last : Nat)
    (files : FilesHold s.disk s.cwd names inputs) :
    (Cat.emitAll copyNext last names).start { s with output := .outlet p } =
      some (.ok none, { s with output := .outlet (fed p inputs.flatten) }) := by
  induction files generalizing p with
  | nil =>
    rw [List.flatten_nil, fed_nil]
    rfl
  | @cons name bs names inputs here later ih =>
    have copied := start_copyOperand unlimited (s := { s with output := .outlet p }) rfl here.1
      here.2
    have rest := ih (unlimited.fed bs)
    rw [fed_fed, ← List.flatten_cons] at rest
    simp only [Cat.emitAll, copyNext, start_bind, start_attempt, copied, start_pure, Option.map,
      rest]

/-- `cat` of files writes what they hold, one after the other. -/
theorem start_cat_files (unlimited : Unlimited p) (output : s.output = .outlet p)
    (parsed : Options.parse "n".toList args = .ok o) (plain : o.has 'n' = false)
    (operands : o.operands = names) (nonempty : names ≠ [])
    (files : FilesHold s.disk s.cwd names inputs) :
    (Cat.run args).start s =
      some (.ok .proceed, { s with output := .outlet (fed p inputs.flatten) }) := by
  have given := operandsOr_some operands nonempty "-"
  have copied := start_emitAll_copy unlimited 0 files
  have here : { s with output := .outlet p } = s := by rw [← output]
  rw [here] at copied
  have flushed := start_flush_unlimited (unlimited.fed inputs.flatten)
    (s := { s with output := .outlet (fed p inputs.flatten) }) rfl
  have steps : (fun last name => (do Cat.copyOperand name; return last : Job Nat)) = copyNext := rfl
  simp only [Cat.run, start_bind, start_options parsed, given, plain, Bool.false_eq_true, if_false,
    steps, copied, Job.flush, Job.ofIo, start_mapError, flushed, Option.map, Except.mapError]
  rfl

end LineShell.CopiedInputs
