import LineShell.Proofs.EchoLine
import LineShell.Proofs.SessionChanges

/-! Runs on outlets end. An outlet is no file, so what is written to it is not
read again, and every round of a copy leaves less to be read. Only `tee` writes to
files while it reads, and it could be reading one of them: its runs end on a
stream. -/
namespace LineShell.OutletRuns
open StepAgreement SessionBonds ApplicationAgreement SessionChanges EchoLine

variable {ε α β : Type}

/-- The session of a run on its own, whose output is an outlet. -/
def onOutlet : Bond where
  Rel s t := s = t ∧ ∃ p, s.output = .outlet p
  May trouble := trouble ≠ .endless

/-- No failure of a stream or an application tells of a run that does not end. -/
theorem onOutlet_bears (c : Complaint) : onOutlet.Bears c := by
  rintro _ told rfl
  simp only [Fault.trouble?] at told
  split at told <;> cases told

theorem onOutlet_like : onOutlet.Like where
  disk := by rintro s _ ⟨rfl, -⟩; rfl
  cwd := by rintro s _ ⟨rfl, -⟩; rfl
  input := by rintro s _ ⟨rfl, -⟩; rfl
  fault := fun _ _ _ e _ => onOutlet_bears (.io e)
  setInput := by
    rintro s _ ⟨rfl, outlet⟩ input -
    exact ⟨rfl, outlet⟩
  write := by
    rintro bs s _ ⟨rfl, p, output⟩
    rw [start_write output]
    exact .both (fun e _ => onOutlet_bears (.io e)) ⟨rfl, _, rfl⟩
  flush := by
    rintro s _ ⟨rfl, outlet⟩
    rw [start_flush]
    exact .both (fun e _ => onOutlet_bears (.io e)) ⟨rfl, outlet⟩
  unfed := .inr fun s _ rel => rel.2

theorem onOutlet_disks : DiskFree onOutlet.Rel := by
  rintro s _ ⟨rfl, outlet⟩ disk
  exact ⟨rfl, outlet⟩

theorem onOutlet_cwds : CwdFree onOutlet.Rel := by
  rintro s _ ⟨rfl, outlet⟩ cwd
  exact ⟨rfl, outlet⟩

theorem onOutlet_journal : JournalFree onOutlet.Rel := by
  rintro s _ ⟨rfl, outlet⟩ record
  exact ⟨rfl, outlet⟩

theorem ends_of_agrees [Fault ε] {act : Act ε α} {s : Session} (agrees : onOutlet.Agrees act act)
    (outlet : ∃ p, s.output = .outlet p) :
    ∃ result s', act.start s = some (result, s') ∧ ∃ p, s'.output = .outlet p := by
  have ends := agrees (s := s) ⟨rfl, outlet⟩
  generalize act.start s = ended at ends ⊢
  cases ends with
  | never may => exact absurd rfl may
  | both _ rel => exact ⟨_, _, rfl, rel.2⟩

/-- A stream read on is a stream, what was read is gone from it, and nothing is
read only at its end. -/
theorem read_stream (d : Disk) {n : Nat} (positive : 0 < n) (rest : Bytes)
    (fault : Option IoError) :
    ∃ result rest', (Source.stream rest fault).read d n = (result, .stream rest' fault) ∧
      (∀ bs, result = .ok bs → bs ++ rest' = rest) ∧
      ((∀ bs, result = .ok bs → bs = []) → rest' = []) := by
  cases rest with
  | nil =>
    have ended : ∃ result, (Source.stream [] fault).read d n = (result, .stream [] fault) := by
      cases fault <;> exact ⟨_, by simp only [Source.read, Source.held, List.take_nil]; rfl⟩
    obtain ⟨result, ended⟩ := ended
    exact ⟨result, [], ended, fun bs read => held_read (by rw [ended, read]), fun _ => rfl⟩
  | cons b rest =>
    obtain ⟨n, rfl⟩ := Nat.exists_eq_succ_of_ne_zero (Nat.ne_of_gt positive)
    have found : (Source.stream (b :: rest) fault).read d (n + 1) =
        (.ok (b :: rest.take n), (Source.stream (b :: rest) fault).skip (b :: rest.take n).length) := by
      simp only [Source.read]
      rfl
    refine ⟨_, _, found, fun bs read => ?_, fun none => ?_⟩
    · cases read
      exact held_read found
    · cases none _ rfl

theorem sameInput_quiet : Quiet fun s t : Session => t.input = s.input where
  refl _ := rfl
  trans _ _ _ first second := second.trans first
  disk _ _ := rfl
  cwd _ _ := rfl
  journal _ _ := rfl

theorem spread_keeps_input {sinks : List Sink} {bs : Bytes} {s s' : Session}
    {result : Except IoError (List Sink)} (outlet : ∃ p, s.output = .outlet p)
    (ran : (Tee.spread sinks bs).start s = some (result, s')) : s'.input = s.input := by
  obtain ⟨p, output⟩ := outlet
  have written {result : Except IoError Unit} {s₁ : Session}
      (wrote : (Act.write bs).start s = some (result, s₁)) : s₁.input = s.input := by
    rw [start_write output] at wrote
    rw [← (Prod.mk.inj (Option.some.inj wrote)).2]
  rcases start_bind_eq_some_iff.mp ran with ⟨e, failed, -⟩ | ⟨_, s₁, wrote, spread⟩
  · exact written failed
  · exact (writeEach_makes sameInput_quiet bs sinks spread).trans (written wrote)

/-- A copy of a stream to an outlet and to files ends: each round takes something
off the stream, and nothing is put back. -/
theorem pump_spread_ends (rounds : Nat) {sinks : List Sink} {s : Session} {rest : Bytes}
    {fault : Option IoError} (files : ∀ sink ∈ sinks, IsFile sink)
    (outlet : ∃ p, s.output = .outlet p) (input : s.input = .stream rest fault)
    (enough : rest.length < rounds) :
    ∃ result s', (Job.pump Tee.spread rounds sinks).start s = some (result, s') ∧
      ∃ p, s'.output = .outlet p := by
  induction rounds generalizing sinks s rest with
  | zero => omega
  | succ rounds ih =>
    obtain ⟨result, rest', read, less, -⟩ :=
      read_stream s.disk (show 0 < Job.chunk by decide) rest fault
    rw [Job.pump, start_bind, start_read, input, read]
    cases result with
    | error e => exact ⟨_, _, rfl, outlet⟩
    | ok bs =>
      dsimp only
      by_cases none : bs.isEmpty = true
      · rw [if_pos none]
        exact ⟨_, _, rfl, outlet⟩
      · have writes : onOutlet.Agrees (Tee.spread sinks bs) (Tee.spread sinks bs) :=
          .bind (onOutlet_like.write bs) fun _ =>
            writeEach_agrees onOutlet_like.toLook onOutlet_disks bs sinks files
        obtain ⟨result, s₁, ran, outlet₁⟩ :=
          ends_of_agrees (s := { s with input := .stream rest' fault }) writes outlet
        rw [if_neg none, start_bind, ran]
        cases result with
        | error e => exact ⟨_, _, rfl, outlet₁⟩
        | ok sinks' =>
          have shorter := congrArg List.length (less bs rfl)
          have some : bs.length ≠ 0 := by simpa using none
          rw [List.length_append] at shorter
          exact ih (spread_isFile files ⟨_, _, ran⟩) outlet₁
            (spread_keeps_input (s := { s with input := .stream rest' fault }) outlet ran) (by omega)

theorem ends_bind {act : Act ε α} {next : α → Act ε β} {s : Session}
    (first : ∃ result s₁, act.start s = some (result, s₁))
    (rest : ∀ a s₁, act.start s = some (.ok a, s₁) →
      ∃ result s', (next a).start s₁ = some (result, s')) :
    ∃ result s', (act >>= next).start s = some (result, s') := by
  obtain ⟨result, s₁, ran⟩ := first
  rw [start_bind, ran]
  cases result with
  | error e => exact ⟨_, _, rfl⟩
  | ok a => exact rest a s₁ ran

theorem tee_ends {s : Session} {rest : Bytes} {fault : Option IoError}
    (outlet : ∃ p, s.output = .outlet p) (input : s.input = .stream rest fault)
    (args : List String) : ∃ result s', (Tee.run args).start s = some (result, s') := by
  refine ends_bind ⟨_, s, rfl⟩ fun o _ parsed => ?_
  obtain ⟨-, rfl⟩ := Prod.mk.inj (Option.some.inj parsed)
  have opens := forEach_agrees (k := pure)
    (openTarget_agrees onOutlet_like.toLook onOutlet_disks (o.has 'a')) o.operands
    fun results _ _ => .pure (K := onOutlet) results
  rw [bind_pure] at opens
  obtain ⟨targets, s₁, opened, outlet₁⟩ := ends_of_agrees opens outlet
  have input₁ : s₁.input = .stream rest fault :=
    (forEach_makes sameInput_quiet (openTarget_makes sameInput_quiet _) _ opened).trans input
  refine ends_bind ⟨targets, s₁, opened⟩ fun results _ ran => ?_
  obtain ⟨rfl, rfl⟩ := Prod.mk.inj (Option.some.inj (opened.symm.trans ran))
  have files := opened_isFile (forEach_given ⟨s, s₁, ran⟩)
  obtain ⟨result, s₂, pumped, outlet₂⟩ :=
    pump_spread_ends (rest.length + s₁.output.room?.getD 0 + 1) files outlet₁ input₁ (by omega)
  have copied : (Job.ofIo (Job.pumpAll Tee.spread (Tee.opened results))).start s₁ =
      some (result.mapError .io, s₂) := by
    rw [Job.ofIo, start_mapError, start_pumpAll, input₁]
    dsimp only [Source.held]
    rw [pumped]
    rfl
  refine ends_bind ⟨_, s₂, copied⟩ fun _ _ ran => ?_
  obtain ⟨-, rfl⟩ := Prod.mk.inj (Option.some.inj (copied.symm.trans ran))
  have last : onOutlet.Agrees (do Job.flush; Job.settle (Job.firstComplaint? results))
      (do Job.flush; Job.settle (Job.firstComplaint? results)) :=
    .bind (flush_agrees (like_serves onOutlet_like)) fun _ => settle_agrees fun c _ => onOutlet_bears c
  obtain ⟨result, s', ended, -⟩ := ends_of_agrees last outlet₂
  exact ⟨result, s', ended⟩

/-- Every run on an outlet ends, but for `tee` on a file. -/
theorem run_ends {app : Application} {s : Session} (args : List String)
    (outlet : ∃ p, s.output = .outlet p)
    (apart : app = .tee → ∃ rest fault, s.input = .stream rest fault) :
    ∃ result s', (app.run args).start s = some (result, s') := by
  have like := onOutlet_like
  have of_agrees (app : Application) (agrees : onOutlet.Agrees (app.run args) (app.run args)) :
      ∃ result s', (app.run args).start s = some (result, s') := by
    obtain ⟨result, s', ran, -⟩ := ends_of_agrees agrees outlet
    exact ⟨result, s', ran⟩
  cases app with
  | cd => exact of_agrees .cd (cd_agrees like.toLook onOutlet_journal onOutlet_cwds args)
  | cp => exact of_agrees .cp (cp_agrees like.toLook onOutlet_disks args)
  | mv => exact of_agrees .mv (mv_agrees like.toLook onOutlet_disks args)
  | rm => exact of_agrees .rm (rm_agrees like.toLook onOutlet_disks args)
  | tee =>
    obtain ⟨rest, fault, input⟩ := apart rfl
    exact tee_ends outlet input args
  | uniq => exact of_agrees .uniq (uniq_agrees like onOutlet_disks args)
  | _ => exact of_agrees _ (reader_agrees like (by decide) args)

end LineShell.OutletRuns
