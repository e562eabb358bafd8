import LineShell.Proofs.EvaluationAgreement

/-! What leaves the directory of a session alone: every step that agrees with itself in
each directory, so every application but `cd`. -/
namespace LineShell.KeptDirectory
open StepAgreement SessionBonds ApplicationAgreement EvaluationAgreement

variable {ε α : Type}

/-- The session of a run on its own, as long as it is in the directory `cwd`. -/
def within (cwd : Place) : Bond := .free fun s t => s = t ∧ s.cwd = cwd

theorem within_like (cwd : Place) : (within cwd).Like where
  disk := by rintro s _ ⟨rfl, -⟩; rfl
  cwd := by rintro s _ ⟨rfl, -⟩; rfl
  input := by rintro s _ ⟨rfl, -⟩; rfl
  fault := fun _ _ _ _ _ _ _ => trivial
  setInput := by
    rintro s _ ⟨rfl, here⟩ input -
    exact ⟨rfl, here⟩
  write := by
    rintro bs s _ ⟨rfl, here⟩
    simp only [Act.start, Act.write, ExceptT.run]
    split
    · exact .both (admits_ok ()) ⟨rfl, here⟩
    · exact .both (fun _ _ _ _ => trivial) ⟨rfl, here⟩
  flush := by
    rintro s _ ⟨rfl, here⟩
    simp only [Act.start, Act.flush, ExceptT.run]
    split
    · exact .both (admits_ok ()) ⟨rfl, here⟩
    · exact .both (fun _ _ _ _ => trivial) ⟨rfl, here⟩
  unfed := .inl trivial

theorem within_disks (cwd : Place) : DiskFree (within cwd).Rel := by
  rintro s _ ⟨rfl, here⟩ disk
  exact ⟨rfl, here⟩

/-- A step that agrees with itself in every directory leaves it alone. -/
theorem cwd_of_agrees [Fault ε] {act : Act ε α} {s s' : Session} {result : Except ε α}
    (agrees : (within s.cwd).Agrees act act) (ran : act.start s = some (result, s')) :
    s'.cwd = s.cwd := by
  have ends := agrees (s := s) (t := s) ⟨rfl, rfl⟩
  rw [ran] at ends
  cases ends with
  | both _ rel => exact rel.2

/-- Every application but `cd` agrees with itself in each directory. -/
theorem run_agrees_within {app : Application} (other : app ≠ .cd) (args : List String)
    (cwd : Place) : (within cwd).Agrees (app.run args) (app.run args) := by
  have like := within_like cwd
  have disks := within_disks cwd
  cases app with
  | cd => exact absurd rfl other
  | cp => exact cp_agrees like.toLook disks args
  | mv => exact mv_agrees like.toLook disks args
  | rm => exact rm_agrees like.toLook disks args
  | tee => exact tee_agrees like disks trivial args
  | uniq => exact uniq_agrees like disks args
  | _ => exact reader_agrees like (by decide) args

theorem flush_cwd {s s' : Session} {result : Except IoError Unit}
    (ran : Act.flush.start s = some (result, s')) : s'.cwd = s.cwd :=
  cwd_of_agrees (within_like s.cwd).flush ran

theorem openInput_cwd {name : String} {s s' : Session} {result : Except Failure Source}
    (ran : (Redirection.openInput name).start s = some (result, s')) : s'.cwd = s.cwd :=
  cwd_of_agrees (openInput_agrees (within_like s.cwd) name) ran

theorem openOutput_cwd {name : String} {keep : Bool} {s s' : Session} {result : Except Failure Sink}
    (ran : (Redirection.openOutput name keep).start s = some (result, s')) : s'.cwd = s.cwd :=
  cwd_of_agrees (openOutput_agrees (within_like s.cwd) (within_disks s.cwd) name keep) ran

theorem run_cwd {app : Application} (other : app ≠ .cd) {args : List String} {s s' : Session}
    {result : Except Complaint Outcome} (ran : (app.run args).start s = some (result, s')) :
    s'.cwd = s.cwd :=
  cwd_of_agrees (run_agrees_within other args s.cwd) ran

end LineShell.KeptDirectory
