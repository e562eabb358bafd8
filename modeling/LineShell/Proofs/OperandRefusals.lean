import LineShell.Proofs.AmbientStreams
import LineShell.Proofs.ReadOperands

/-! Operands that cannot be read. A path is refused if it leads to no entry or to a directory,
and the input if it fails in place of its end. What can be read and what is left of the input
does not depend on the operands read before, but for the input itself, which is read once. -/
namespace LineShell.OperandRefusals
open AmbientStreams ApplicationAgreement OpenedTargets ReadOperands RedirectedOutput SessionBonds
open StepAgreement

/-- Why an operand cannot be read, if it cannot: the input fails, or there is no entry or a
directory at the path. -/
def refusal? (s : Session) (name : String) : Option Complaint :=
  if name = "-" then s.input.fault.map .io
  else if !s.disk.reaches (Path.resolve s.cwd name) then some (.noSuchFile name)
  else if s.disk.isDir (Path.resolve s.cwd name) then some (.isDirectory name)
  else none

/-- What is left of the input after operands: nothing if it is one of them. -/
def leftOver (s : Session) (names : List String) : Source :=
  if "-" ∈ names then s.input.skip (s.input.held s.disk).length else s.input

variable {d : Disk} {s : Session} {name : String} {names before later : List String} {e : Complaint}

/-! Paths. -/

/-- A walk that follows the last link does not end at a link. -/
theorem stride_not_link (d : Disk) (dir : Place) (names : List String) (q : Place)
    (target : String) : d.stride true dir names ≠ .ends (.found q (.link target)) := by
  induction names generalizing dir with
  | nil => rintro ⟨⟩
  | cons name rest ih =>
    unfold Disk.stride
    split
    · exact ih dir
    · split
      · exact ih dir.dropLast
      · split
        · rintro ⟨⟩
        · dsimp only
          split
          · split <;> rintro ⟨⟩
          · exact ih _
          · split <;> rintro ⟨⟩
          · rw [Bool.not_true, Bool.and_false, if_neg Bool.false_ne_true]
            rintro ⟨⟩

theorem walk_not_link (d : Disk) (links : Nat) (dir : Place) (names : List String) (q : Place)
    (target : String) : d.walk true links dir names ≠ .ok (.found q (.link target)) := by
  induction links generalizing dir names with
  | zero =>
    unfold Disk.walk
    split
    · rename_i spot ends
      rintro ⟨⟩
      exact stride_not_link d dir names q target ends
    · rintro ⟨⟩
    · rintro ⟨⟩
  | succ links ih =>
    unfold Disk.walk
    split
    · rename_i spot ends
      rintro ⟨⟩
      exact stride_not_link d dir names q target ends
    · rintro ⟨⟩
    · exact ih _ _

theorem locate_not_link (d : Disk) (p q : Place) (target : String) :
    d.locate true p ≠ .ok (.found q (.link target)) := by
  unfold Disk.locate
  split
  · rintro ⟨⟩
  · split
    · rintro ⟨⟩
    · exact walk_not_link d _ _ _ q target

/-- A path leads to a file, or it is refused. -/
theorem start_openOperand_cases (named : name ≠ "-") (s : Session) :
    (∃ id, lead? s.disk (Path.resolve s.cwd name) = some (.file id) ∧ refusal? s name = none ∧
        (Job.openOperand name).start s = some (.ok id, s)) ∨
      ∃ e, contentAt? s.disk (Path.resolve s.cwd name) = none ∧ refusal? s name = some e ∧
        (Job.openOperand name).start s = some (.error e, s) := by
  rw [start_openOperand]
  rcases located : s.disk.locate true (Path.resolve s.cwd name) with
    fault | ⟨q, _ | id | target⟩ | q <;>
    simp [refusal?, named, Disk.reaches, Disk.find, Disk.isDir, located, Disk.require,
      Disk.endsAtDir, Except.isOk, Except.toBool, contentAt?, lead?, Lead.of?, spot?,
      Except.toOption, opening]
  exact locate_not_link _ _ q target located

theorem start_openOperand_refused (named : name ≠ "-") (refused : refusal? s name = some e) :
    (Job.openOperand name).start s = some (.error e, s) := by
  rcases start_openOperand_cases named s with ⟨id, -, fine, -⟩ | ⟨e', -, refused', failed⟩
  · rw [fine] at refused
    cases refused
  · rw [refused'] at refused
    cases refused
    exact failed

theorem refusal?_input : refusal? s "-" = s.input.fault.map .io := if_pos rfl

/-- Unless the input fails, no complaint about an operand says that nobody reads any more. -/
theorem unbroken_of_refusal (sound : s.input.fault = none) (refused : refusal? s name = some e) :
    e.isBrokenPipe = false := by
  unfold refusal? at refused
  split at refused
  · rw [sound] at refused
    cases refused
  · split at refused
    · cases refused
      rfl
    · split at refused <;> cases refused
      rfl

/-! The input that is left. -/

theorem leftOver_none (none : "-" ∉ names) : leftOver s names = s.input := if_neg none

theorem leftOver_some (some : "-" ∈ names) :
    leftOver s names = s.input.skip (s.input.held s.disk).length := if_pos some

theorem leftOver_named (named : name ≠ "-") : leftOver s [name] = s.input :=
  leftOver_none (by simpa using Ne.symm named)

theorem leftOver_cons_named (named : name ≠ "-") (names : List String) :
    leftOver s (name :: names) = leftOver s names := by
  simp only [leftOver, List.mem_cons, Ne.symm named, false_or]

theorem fault_leftOver (s : Session) (names : List String) :
    (leftOver s names).fault = s.input.fault := by
  unfold leftOver
  split
  · exact fault_skip _ _
  · rfl

/-- What was read before makes no difference to what can be read. -/
theorem refusal?_leftOver (s : Session) (names : List String) (name : String) :
    refusal? { s with input := leftOver s names } name = refusal? s name := by
  simp only [refusal?, fault_leftOver]

theorem held_leftOver (some : "-" ∈ names) : (leftOver s names).held s.disk = [] := by
  rw [leftOver_some some, held_skip, List.drop_length]

theorem leftOver_append (s : Session) (before names : List String) :
    leftOver { s with input := leftOver s before } names = leftOver s (before ++ names) := by
  by_cases first : "-" ∈ before
  · rw [leftOver_some (List.mem_append_left names first)]
    by_cases again : "-" ∈ names
    · rw [leftOver_some again]
      dsimp only
      rw [held_leftOver first, List.length_nil, skip_zero, leftOver_some first]
    · rw [leftOver_none again]
      exact leftOver_some first
  · have same : "-" ∈ before ++ names ↔ "-" ∈ names := by simp [first]
    rw [leftOver_none first]
    by_cases again : "-" ∈ names
    · rw [leftOver_some again, leftOver_some (same.mpr again)]
    · rw [leftOver_none again, leftOver_none (mt same.mp again)]

/-! Reading. -/

theorem start_readOperand_refused (refused : refusal? s name = some e) :
    (Job.readOperand name).start s =
      some (.error e, { s with input := leftOver s [name] }) := by
  by_cases input : name = "-"
  · subst input
    rw [refusal?_input] at refused
    obtain ⟨fault, fails, rfl⟩ := Option.map_eq_some_iff.mp refused
    rw [leftOver_some (List.mem_singleton_self _), Job.readOperand, if_pos rfl, Job.ofIo,
      start_mapError, start_readAll, Source.drain, fails]
    rfl
  · rw [leftOver_named input, Job.readOperand, if_neg input, start_bind,
      start_openOperand_refused input refused]

/-- An operand that is not refused gives its bytes. -/
theorem start_readOperand_fine (fine : refusal? s name = none) :
    ∃ bs, (Job.readOperand name).start s = some (.ok bs, { s with input := leftOver s [name] }) := by
  by_cases input : name = "-"
  · subst input
    rw [refusal?_input, Option.map_eq_none_iff] at fine
    rw [leftOver_some (List.mem_singleton_self _)]
    exact ⟨_, start_readOperand_input fine⟩
  · rw [leftOver_named input]
    rcases start_openOperand_cases input s with ⟨id, leads, -, -⟩ | ⟨e', -, refused, -⟩
    · exact ⟨_, start_readOperand_file input (contentAt?_of_lead leads)⟩
    · rw [refused] at fine
      cases fine

/-- The first operand that is refused ends the reading. -/
theorem start_readAllOperands_refused (fine : ∀ name ∈ before, refusal? s name = none)
    (refused : refusal? s name = some e) (later : List String) :
    (Job.readAllOperands (before ++ name :: later)).start s =
      some (.error e, { s with input := leftOver s (before ++ [name]) }) := by
  induction before generalizing s with
  | nil =>
    rw [List.nil_append, List.nil_append, Job.readAllOperands, start_bind,
      start_readOperand_refused refused]
  | cons first before ih =>
    obtain ⟨here, others⟩ := List.forall_mem_cons.mp fine
    obtain ⟨bs, read⟩ := start_readOperand_fine here
    have rest := ih (s := { s with input := leftOver s [first] })
      (fun name member => (refusal?_leftOver s [first] name).trans (others name member))
      ((refusal?_leftOver s [first] name).trans refused)
    rw [leftOver_append] at rest
    rw [List.cons_append, Job.readAllOperands, start_bind, read]
    dsimp only
    rw [start_bind, rest]
    rfl

end LineShell.OperandRefusals
