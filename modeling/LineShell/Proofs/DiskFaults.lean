import LineShell.Proofs.SessionBonds

/-! The disk has no readers that could go away: whatever is done to it, a failure
tells of no trouble with a stream. -/
namespace LineShell.DiskFaults
open SessionBonds

/-- A failure, if it is one, that tells of no trouble. -/
def Calm {α : Type} (result : Except IoError α) : Prop :=
  ∀ e, result = .error e → Fault.trouble? e = none

variable {α β : Type} {result : Except IoError α} {next : α → Except IoError β}

namespace Calm

theorem ok (a : α) : Calm (.ok a) := nofun

theorem error {e : IoError} (calm : Fault.trouble? e = none) :
    Calm (.error e : Except IoError α) := by
  rintro _ ⟨⟩
  exact calm

theorem bind (first : Calm result) (rest : ∀ a, Calm (next a)) : Calm (result >>= next) := by
  cases result with
  | error e => exact error (first e rfl)
  | ok a => exact rest a

theorem ite {c : Prop} [Decidable c] {yes no : Except IoError α} (first : Calm yes)
    (second : Calm no) : Calm (if c then yes else no) := by
  split
  · exact first
  · exact second

/-- An operation that may stop with a failure before it goes on. -/
theorem guard {c : Prop} [Decidable c] {e : IoError} {k : PUnit → Except IoError α}
    (calm : Fault.trouble? e = none) (goesOn : Calm result) :
    Calm (if c then throw e >>= k else result) :=
  ite (error calm) goesOn

end Calm

/-! Walking. -/

theorem stride_calm (d : Disk) (followLast : Bool) (dir : Place) (names : List String) (e : IoError)
    (failed : d.stride followLast dir names = .fails e) : Fault.trouble? e = none := by
  fun_induction Disk.stride d followLast dir names with
  | case1 => cases failed
  | case2 dir rest ih => exact ih failed
  | case3 dir rest _ ih => exact ih failed
  | case4 => cases failed; rfl
  | case5 => cases failed
  | case6 => cases failed; rfl
  | case7 dir name rest _ _ _ here _ ih => exact ih failed
  | case8 => cases failed
  | case9 => cases failed; rfl
  | case10 => cases failed
  | case11 => cases failed

theorem walk_calm (d : Disk) (followLast : Bool) (links : Nat) (dir : Place) (names : List String) :
    Calm (d.walk followLast links dir names) := by
  induction links generalizing dir names with
  | zero =>
    unfold Disk.walk
    split
    · exact .ok _
    · exact .error (stride_calm d followLast dir names _ (by assumption))
    · exact .error rfl
  | succ links ih =>
    unfold Disk.walk
    split
    · exact .ok _
    · exact .error (stride_calm d followLast dir names _ (by assumption))
    · exact ih _ _

theorem locate_calm (d : Disk) (followLast : Bool) (p : Place) : Calm (d.locate followLast p) :=
  .ite (.error rfl) (.ite (.error rfl) (walk_calm d followLast _ _ _))

theorem require_calm {found : Except IoError Spot} (calm : Calm found) :
    Calm (Disk.require found) := by
  unfold Disk.require
  split
  · exact .error (calm _ rfl)
  · exact .error rfl
  · exact .ok _

theorem find_calm (d : Disk) (p : Place) : Calm (d.find p) := require_calm (locate_calm d true p)

/-! Opening and changing. -/

theorem openFile_calm (d : Disk) (p : Place) : Calm (d.openFile p) := by
  refine .bind (find_calm d p) fun (_, entry) => ?_
  cases entry with
  | file id => exact .ok id
  | dir => exact .error rfl
  | link target => exact .error rfl

theorem openForWriting_calm (d : Disk) (p : Place) (keep : Bool) :
    Calm (d.openForWriting p keep) := by
  refine .bind (locate_calm d true p) fun spot => ?_
  cases spot with
  | free q => exact .ok _
  | found q entry =>
    cases entry with
    | file id => exact .ok _
    | dir => exact .error rfl
    | link target => exact .error rfl

theorem makeDir_calm (d : Disk) (p : Place) : Calm (d.makeDir p) := by
  refine .bind (locate_calm d false p) fun spot => ?_
  cases spot with
  | free q => exact .ok _
  | found q entry => exact .error rfl

theorem makeDirHere_calm (d : Disk) (p : Place) : Calm (d.makeDirHere p) := by
  have made := makeDir_calm d p
  unfold Disk.makeDirHere
  split
  · exact .ok _
  · exact .ite (.ok _) (.error (made _ (by assumption)))

theorem makeDirsUp_calm (d : Disk) (names : List String) (d' : Disk) (e : IoError)
    (failed : d.makeDirsUp names = (d', some e)) : Fault.trouble? e = none := by
  induction names generalizing d d' e with
  | nil => cases failed
  | cons name parents ih =>
    unfold Disk.makeDirsUp at failed
    dsimp only at failed
    split at failed
    · cases failed
    · split at failed
      · cases failed
        exact ih _ _ _ (by assumption)
      · split at failed
        · cases failed
        · cases failed
          exact makeDirHere_calm _ _ _ (by assumption)
    · split at failed
      · cases failed
      · cases failed
        exact makeDir_calm _ _ _ (by assumption)

theorem unlink_calm (d : Disk) (p : Place) : Calm (d.unlink p) := by
  refine .bind (require_calm (locate_calm d false p)) fun (_, entry) => ?_
  cases entry with
  | dir => exact .error rfl
  | file id => exact .ok _
  | link target => exact .ok _

theorem removeDir_calm (d : Disk) (p : Place) : Calm (d.removeDir p) := by
  refine .bind (require_calm (locate_calm d false p)) fun (_, entry) => ?_
  cases entry with
  | dir => exact .ite (.ok _) (.error rfl)
  | file id => exact .error rfl
  | link target => exact .error rfl

theorem removeTree_calm (d : Disk) (p : Place) : Calm (d.removeTree p) :=
  .bind (require_calm (locate_calm d false p)) fun _ => .ok _

theorem copyFile_calm (d : Disk) (p q : Place) : Calm (d.copyFile p q) := by
  refine .bind (find_calm d p) fun (_, entry) => ?_
  cases entry with
  | file id => exact .bind (openForWriting_calm d q false) fun _ => .ok _
  | dir => exact .error rfl
  | link target => exact .error rfl

theorem rename_calm (d : Disk) (p q : Place) : Calm (d.rename p q) := by
  refine .bind (require_calm (locate_calm d false p)) fun (_, kind) =>
    .bind (locate_calm d false q) fun target => .guard rfl ?_
  cases target with
  | free place => exact .guard rfl (.ok _)
  | found place other =>
    refine .guard rfl (.ite (.ok _) (.guard rfl (.guard rfl ?_)))
    cases kind with
    | dir =>
      cases other with
      | dir => exact .ite (.ok _) (.error rfl)
      | file id => exact .error rfl
      | link target => exact .error rfl
    | file id =>
      cases other with
      | dir => exact .error rfl
      | file id => exact .ite (.ok _) (.ok _)
      | link target => exact .ok _
    | link target =>
      cases other with
      | dir => exact .error rfl
      | file id => exact .ok _
      | link target => exact .ok _

end LineShell.DiskFaults
