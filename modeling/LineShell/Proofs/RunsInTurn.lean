import LineShell.Proofs.ConcurrentEvaluation
import LineShell.Proofs.InterleavedSteps

/-! Evaluation in turn is one of the ways in which stages can run at the same time: each
starts when the one before has ended, and writes as much as it likes. -/
namespace LineShell.RunsInTurn
open StepAgreement SessionBonds ConcurrentEvaluation InterleavedSteps

variable {ε ε' α β : Type}

/-- Where a step ends, there is a run with the same effect in which nothing comes between
the accesses. -/
def Covered (act : Act ε α) (run : Run ε α) : Prop :=
  ∀ ⦃s result s'⦄, act.start s = some (result, s') →
    ∃ steps, Chain s.world steps s'.world ∧ run.Does s.streams steps result s'.streams

/-- A step as one access. -/
theorem covered_access (act : Act ε α) : Covered act (Run.access act) :=
  fun s _ s' ran => ⟨[{ before := s.world, after := s'.world }], ⟨rfl, rfl⟩, s.world, s', ran, rfl, rfl⟩

theorem covered_ofExcept (result : Except ε α) :
    Covered (Act.ofExcept result) (Run.ofExcept result) := by
  intro s result' s' ran
  cases ran
  exact ⟨[], rfl, rfl, rfl, rfl⟩

theorem covered_bind {act : Act ε α} {run : Run ε α} {next : α → Act ε β} {next' : α → Run ε β}
    (first : Covered act run) (rest : ∀ a, Gives act a → Covered (next a) (next' a)) :
    Covered (act >>= next) (run >>= next') := by
  intro s result s' ran
  rcases start_bind_eq_some_iff.mp ran with ⟨e, failed, rfl⟩ | ⟨a, s₁, ran₁, ran₂⟩
  · obtain ⟨steps, chain, does⟩ := first failed
    exact ⟨steps, chain, .inl ⟨e, does, rfl⟩⟩
  · obtain ⟨steps, chain, does⟩ := first ran₁
    obtain ⟨later, chain', does'⟩ := rest a ⟨s, s₁, ran₁⟩ ran₂
    exact ⟨steps ++ later, chain_append.mpr ⟨_, chain, chain'⟩,
      .inr ⟨a, _, steps, later, does, does', rfl⟩⟩

theorem covered_attempt {act : Act ε α} {run : Run ε α} (inner : Covered act run) :
    Covered (Act.attempt act : Act ε' (Except ε α)) (Run.attempt run) := by
  intro s result s' ran
  rw [start_attempt, Option.map_eq_some_iff] at ran
  obtain ⟨⟨result, s'⟩, ran, ended⟩ := ran
  cases ended
  obtain ⟨steps, chain, does⟩ := inner ran
  exact ⟨steps, chain, result, does, rfl⟩

theorem covered_mapError {f : ε → ε'} {act : Act ε α} {run : Run ε α} (inner : Covered act run) :
    Covered (Act.mapError f act) (Run.mapError f run) := by
  intro s result s' ran
  rw [start_mapError, Option.map_eq_some_iff] at ran
  obtain ⟨⟨result, s'⟩, ran, ended⟩ := ran
  cases ended
  obtain ⟨steps, chain, does⟩ := inner ran
  exact ⟨steps, chain, result, does, rfl⟩

theorem covered_withInput (input : Source) {act : Act ε α} {run : Run ε α}
    (inner : Covered act run) : Covered (Act.withInput input act) (Run.withInput input run) := by
  intro s result s' ran
  rw [start_withInput, Option.map_eq_some_iff] at ran
  obtain ⟨⟨result, s'⟩, ran, ended⟩ := ran
  cases ended
  obtain ⟨steps, chain, does⟩ := inner ran
  exact ⟨steps, chain, _, does, rfl⟩

theorem covered_withOutput (output : Sink) {act : Act ε α} {run : Run ε α}
    (inner : Covered act run) : Covered (Act.withOutput output act) (Run.withOutput output run) := by
  intro s result s' ran
  rw [start_withOutput, Option.map_eq_some_iff] at ran
  obtain ⟨⟨result, s'⟩, ran, ended⟩ := ran
  cases ended
  obtain ⟨steps, chain, does⟩ := inner ran
  exact ⟨steps, chain, _, does, rfl⟩

theorem covered_collect {act : Act ε α} {run : Run ε α} (inner : Covered act run) :
    Covered (Act.collect act : Act ε' (Except ε α × Bytes)) (Run.collect run) := by
  intro s result s' ran
  rw [start_collect, Option.map_eq_some_iff] at ran
  obtain ⟨⟨result, s'⟩, ran, ended⟩ := ran
  cases ended
  obtain ⟨steps, chain, does⟩ := inner ran
  exact ⟨steps, chain, _, _, does, rfl, rfl⟩

/-! Entering a directory. -/

/-- The accesses by which a directory is entered that a path leads to. -/
def enteringSteps (seen found w₁ w₂ : World) (path : String) : List Step :=
  let p := Path.resolve seen.cwd path
  [{ before := found, after := found },
    { before := w₁, after := { w₁ with journal := w₁.journal ++ [⟨.info, "cd " ++ p.text⟩] } },
    { before := w₂, after := { w₂ with cwd := p }, entered := some { path, seen, found } }]

/-- A directory that is there is entered, whatever comes between the accesses. -/
theorem enterFrom_does (seen found w₁ w₂ : World) {path : String} (p : Streams)
    (isDir : found.disk.isDir (Path.resolve seen.cwd path) = true) :
    (Concurrent.enterFrom seen path).Does p (enteringSteps seen found w₁ w₂ path)
      (.ok (Path.resolve seen.cwd path)) p := by
  refine does_view found ?_
  rw [Streams.world_over, if_pos isDir]
  refine does_access (start_note _ _ (p.over w₁)) ?_
  have enters : (Run.enter { path, seen, found } : Run IoError Unit).Does p
      [{ before := w₂, after := { w₂ with cwd := _ }, entered := some _ }] (.ok ()) p :=
    ⟨w₂, rfl, rfl, rfl⟩
  exact does_bind enters (does_pure _ _)

theorem enterFrom_fails (seen found : World) {path : String} (p : Streams)
    (missing : ¬ found.disk.isDir (Path.resolve seen.cwd path) = true) :
    (Concurrent.enterFrom seen path).Does p [{ before := found, after := found }]
      (.error (.described ((Path.resolve seen.cwd path).text ++ ": Not a directory") false)) p := by
  refine does_view found ?_
  rw [Streams.world_over, if_neg missing]
  exact does_throw _ _

/-- From a world that the path was seen in, the directory is entered as in turn. -/
theorem enterFrom_covers {path : String} {s s' : Session} {result : Except IoError Place}
    (ran : (Act.enterDir path).start s = some (result, s')) :
    ∃ steps, Chain s.world steps s'.world ∧
      (Concurrent.enterFrom s.world path).Does s.streams steps result s'.streams := by
  simp only [Act.enterDir, start_bind, start_resolve, start_view] at ran
  split at ran
  · rename_i isDir
    cases ran
    let noted : World := { s.world with
      journal := s.journal ++ [⟨.info, "cd " ++ (Path.resolve s.cwd path).text⟩] }
    exact ⟨enteringSteps s.world s.world s.world noted path, ⟨rfl, rfl, rfl, rfl⟩,
      enterFrom_does s.world s.world s.world noted s.streams isDir⟩
  · rename_i missing
    cases ran
    exact ⟨[{ before := s.world, after := s.world }], ⟨rfl, rfl⟩,
      enterFrom_fails s.world s.world s.streams missing⟩

theorem covered_enterDir (path : String) : Covered (Act.enterDir path) (Concurrent.enterDir path) := by
  intro s result s' ran
  obtain ⟨steps, chain, does⟩ := enterFrom_covers ran
  exact ⟨{ before := s.world, after := s.world } :: steps, ⟨rfl, chain⟩, does_view s.world does⟩

/-- The first accesses of `cd`: its path is seen, and looked up twice. -/
def lookingSteps (seen w₁ w₂ : World) : List Step :=
  [{ before := seen, after := seen }, { before := w₁, after := w₁ }, { before := w₂, after := w₂ }]

/-- `cd` goes on to enter the directory that it has found twice. -/
theorem cd_does (seen w₁ w₂ : World) {path : String} {p p' : Streams} {steps : List Step}
    {result : Except IoError Place} (some : path ≠ "")
    (reaches : w₁.disk.reaches (Path.resolve seen.cwd path) = true)
    (isDir : w₂.disk.isDir (Path.resolve seen.cwd path) = true)
    (enters : (Concurrent.enterFrom seen path).Does p steps result p') :
    (Concurrent.cd [path]).Does p (lookingSteps seen w₁ w₂ ++ steps)
      ((result.mapError Complaint.io).map fun _ => .proceed) p' := by
  have ends : (Run.mapError Complaint.io (Concurrent.enterFrom seen path) >>= fun _ =>
      pure Outcome.proceed : Run Complaint Outcome).Does p steps
        ((result.mapError Complaint.io).map fun _ => .proceed) p' := by
    cases result with
    | error e => exact .inl ⟨.io e, ⟨_, enters, rfl⟩, rfl⟩
    | ok place =>
      have entered : (Run.mapError Complaint.io (Concurrent.enterFrom seen path)).Does p steps
          (.ok place) p' := ⟨_, enters, rfl⟩
      have proceeds : (Run.mapError Complaint.io (Concurrent.enterFrom seen path) >>= fun _ =>
          pure Outcome.proceed : Run Complaint Outcome).Does p (steps ++ []) (.ok .proceed) p' :=
        does_bind entered (does_pure _ p')
      rwa [List.append_nil] at proceeds
  simp only [Concurrent.cd, if_neg some]
  refine does_view seen (does_view w₁ ?_)
  rw [Streams.world_over, Streams.disk_over, if_pos reaches]
  refine does_view w₂ ?_
  rw [Streams.disk_over, if_pos isDir]
  exact ends

theorem covered_cd (args : List String) : Covered (Application.run .cd args) (Concurrent.cd args) := by
  intro s result s' ran
  have refused {c : Complaint} (steps : List Step) (ran : some (.error c, s) = some (result, s'))
      (chain : Chain s.world steps s.world)
      (does : (Concurrent.cd args).Does s.streams steps (.error c) s.streams) :
      ∃ steps, Chain s.world steps s'.world ∧
        (Concurrent.cd args).Does s.streams steps result s'.streams := by
    cases ran
    exact ⟨steps, chain, does⟩
  match args with
  | [] => exact refused [] ran rfl (does_throw _ _)
  | [path] =>
    by_cases empty : path = ""
    · subst empty
      exact refused [] ran rfl (does_throw _ _)
    · simp only [Application.run, Cd.run, if_neg empty, start_bind, start_resolve, start_view] at ran
      by_cases reaches : s.disk.reaches (Path.resolve s.cwd path) = true
      · by_cases isDir : s.disk.isDir (Path.resolve s.cwd path) = true
        · simp only [reaches, isDir, Bool.not_true, Bool.false_eq_true, if_false, start_bind,
            Job.ofIo, start_mapError] at ran
          cases entered : (Act.enterDir path).start s with
          | none =>
            rw [entered] at ran
            cases ran
          | some ended =>
            obtain ⟨entering, s₁⟩ := ended
            obtain ⟨steps, chain, does⟩ := enterFrom_covers entered
            have ended : ((entering.mapError Complaint.io).map fun _ => Outcome.proceed) = result ∧
                s₁ = s' := by
              rw [entered] at ran
              cases entering <;> cases ran <;> exact ⟨rfl, rfl⟩
            obtain ⟨rfl, rfl⟩ := ended
            exact ⟨lookingSteps s.world s.world s.world ++ steps, ⟨rfl, rfl, rfl, chain⟩,
              cd_does s.world s.world s.world empty reaches isDir does⟩
        · simp only [reaches, isDir] at ran
          refine refused [⟨s.world, s.world, none⟩, ⟨s.world, s.world, none⟩, ⟨s.world, s.world, none⟩]
            ran ⟨rfl, rfl, rfl, rfl⟩ ?_
          simp only [Concurrent.cd, if_neg empty]
          refine does_view s.world (does_view s.world ?_)
          rw [Session.over_world, Session.cwd_world, if_pos reaches]
          refine does_view s.world ?_
          rw [Session.over_world, if_neg isDir]
          exact does_throw _ _
      · simp only [reaches] at ran
        refine refused [⟨s.world, s.world, none⟩, ⟨s.world, s.world, none⟩] ran ⟨rfl, rfl, rfl⟩ ?_
        simp only [Concurrent.cd, if_neg empty]
        refine does_view s.world (does_view s.world ?_)
        rw [Session.over_world, Session.cwd_world, if_neg reaches]
        exact does_throw _ _
  | _ :: _ :: _ => exact refused [] ran rfl (does_throw _ _)

theorem covered_run (app : Application) (args : List String) :
    Covered (app.run args) (Concurrent.run app args) := by
  unfold Concurrent.run
  split
  · rename_i isCd
    subst isCd
    exact covered_cd args
  · exact covered_access _

/-! Evaluation. -/

/-- A pipe whose stages run in turn. -/
theorem covered_beside {act : Act Failure Outcome} {run : Run Failure Outcome}
    {later : Act Failure (List (Except Failure Outcome))}
    {later' : Run Failure (List (Except Failure Outcome))} (first : Covered act run)
    (rest : Covered later later') : Covered (inTurn act later) (Run.beside run later') := by
  intro s results s' ran
  rw [start_inTurn] at ran
  split at ran
  · cases ran
  · rename_i result s₁ ran₁
    obtain ⟨⟨results, s₂⟩, ran₂, ended⟩ := Option.map_eq_some_iff.mp ran
    cases ended
    obtain ⟨steps, chain, does⟩ := first ran₁
    obtain ⟨steps', chain', does'⟩ := rest ran₂
    exact ⟨steps ++ steps', chain_append.mpr ⟨_, chain, chain'⟩, none, result, s₁.streams, steps,
      results, s₂.streams, steps', does, does', nofun, interleaved_append _ _, rfl, rfl⟩

/-- The relation that every way to put steps together keeps. -/
def covering : Tie := fun _ _ _ act run Q => Covered act run ∧ ∀ a, Gives act a → Q a

theorem gives_ofExcept {result : Except ε α} {a : α} (given : Gives (Act.ofExcept result) a) :
    result = .ok a := by
  obtain ⟨s, s', ran⟩ := given
  cases ran
  rfl

theorem covering_ties (sh : Shell) (Fit : String → Prop) : Ties sh Fit (fun _ _ => True) covering where
  ofExcept known := ⟨covered_ofExcept _, fun a given => known a (gives_ofExcept given)⟩
  leaf _ known := ⟨covered_access _, known⟩
  apps _ args := ⟨covered_run _ args, fun _ _ => trivial⟩
  bind first rest := by
    refine ⟨covered_bind first.1 fun a given => (rest a (first.2 a given)).1, fun b given => ?_⟩
    obtain ⟨a, given, later⟩ := gives_bind given
    exact (rest a (first.2 a given)).2 b later
  attempt inner := ⟨covered_attempt inner.1, fun _ _ => trivial⟩
  mapError inner := ⟨covered_mapError inner.1, fun _ _ => trivial⟩
  withInput input inner := ⟨covered_withInput input inner.1, fun _ _ => trivial⟩
  withOutput output _ inner := ⟨covered_withOutput output inner.1, fun _ _ => trivial⟩
  collect inner := ⟨covered_collect inner.1, fun _ _ => trivial⟩
  beside first rest _ := ⟨covered_beside first.1 rest.1, fun _ _ => trivial⟩

/-- What is in back quotes comes to the same in turn. -/
theorem covering_known (sh : Shell) (token : String) :
    Known (fun _ => True) covering (sh.substitute sh.levels) (Concurrent.substitute sh sh.levels)
      token :=
  ⟨trivial, fun _ _ _ => (covering_ties sh fun _ => True).substitute (fun _ _ _ _ _ _ _ _ => trivial)
    sh.levels (fun _ _ _ _ => allGood_of_forall (fun _ _ => trivial) _ _ _) fun _ _ _ _ => trivial⟩

theorem covered_expandAll (sh : Shell) (tokens : List String) :
    Covered (Word.expandAll (sh.substitute sh.levels) Shell.glob tokens)
      (Word.expandAll (Concurrent.substitute sh sh.levels) Concurrent.glob tokens) :=
  ((covering_ties sh fun _ => True).expandAll (o := {}) fun token _ text member =>
    (covering_known sh token).2 text member {}).1

theorem covered_stage (sh : Shell) (c : Call) :
    Covered (sh.stage (sh.substitute sh.levels) c)
      (Concurrent.stage sh (Concurrent.substitute sh sh.levels) c) :=
  ((covering_ties sh fun _ => True).stage (o := {}) fun token _ => covering_known sh token).1

/-- Evaluation in turn is one of the runs of a command. -/
theorem covered_evaluateTop (sh : Shell) (command : Command) :
    Covered (sh.evaluateTop command) (Concurrent.evaluateTop sh command) :=
  ((covering_ties sh fun _ => True).evaluateTop (o := {}) (fun _ _ _ _ _ _ _ _ => trivial)
    (allGood_of_forall (fun _ _ => trivial) _ _ _) fun _ _ => trivial).1

/-- Evaluation in turn is one of the runs of a line. -/
theorem covered_evaluateLine (sh : Shell) (line : String) :
    Covered (sh.evaluateLine line) (Concurrent.evaluateLine sh line) :=
  ((covering_ties sh fun _ => True).evaluateLine (o := {}) (fun _ _ _ _ _ _ _ _ => trivial)
    (fun _ _ => allGood_of_forall (fun _ _ => trivial) _ _ _) fun _ _ _ _ => trivial).1

end LineShell.RunsInTurn
