import LineShell.CommandLine
import LineShell.Proofs.PipeIntoCat
import LineShell.Proofs.PipedStages
import LineShell.Proofs.ReadOnlyRuns
import LineShell.Proofs.RunningCalls
import LineShell.Proofs.RunsInTurn

/-! Commands that only read, whose stages run at the same time. Their accesses leave the disk
and the directory alone, so each meets what it would meet in turn, in whatever order they are
made. What can still differ is how much of its output a stage gets rid of before the next one
has stopped reading. Where every stage after the first reads its input to the end, all runs
come to the same, but for the order of what stages report. -/
namespace LineShell.SharedReads
open StepAgreement SessionBonds ApplicationAgreement EvaluationAgreement TokenRegions
  ReadOnlyRuns ConcurrentEvaluation InterleavedSteps RunsInTurn RunningCalls

variable {ε ε' α β : Type} {p p' : Streams} {steps : List Step}

/-! Steps that only read. -/

/-- From sessions that look the same the step ends, with the same result and the same effect. -/
def Alike (act : Act ε α) : Prop :=
  ∀ ⦃left right s t⦄, Parallel left right s t →
    ∃ result s' t', act.start s = some (result, s') ∧ act.start t = some (result, t') ∧
      Parallel left right s' t'

theorem alike_of_agrees [Fault ε] {act : Act ε α}
    (agrees : ∀ left right, (parallel left right).Agrees act act) : Alike act := by
  intro left right s t rel
  have ends := agrees left right rel
  generalize act.start s = ended at ends ⊢
  generalize act.start t = ended' at ends ⊢
  cases ends with
  | never endless => exact absurd rfl endless
  | @both result s' t' _ rel' => exact ⟨result, s', t', rfl, rfl, rel'⟩

theorem leaf_alike {act : Act ε α} (leaf : Leaf Unsigned act) : Alike act := by
  cases leaf with
  | note level text =>
    exact fun _ _ _ _ rel => ⟨_, _, _, rfl, rfl, parallel_journal rel _⟩
  | report failure =>
    exact fun _ _ _ _ rel => ⟨_, _, _, rfl, rfl, Parallel.report (parallel_journal rel _) failure⟩
  | flush => exact alike_of_agrees fun _ _ => parallel_like.flush
  | parse line => exact alike_of_agrees fun _ _ => parse_agrees parallel_journal line
  | glob word => exact alike_of_agrees fun _ _ => glob_agrees parallel_like parallel_journal word
  | add fit read r name =>
    exact alike_of_agrees fun _ _ => add_agrees parallel_like read
      (fun opens => absurd opens (not_opens_of_unsigned fit)) r name

theorem reader_alike {app : Application} (reads : app ∈ readers) (args : List String) :
    Alike (app.run args) :=
  alike_of_agrees fun _ _ => reader_agrees parallel_like reads args

theorem evaluateTop_alike {sh : Shell} (onlyReaders : ∀ app ∈ sh.applications, app ∈ readers)
    {command : Command} (unsigned : ∀ token ∈ tokensOf command, Unsigned token) :
    Alike (sh.evaluateTop command) :=
  alike_of_agrees fun _ _ => evaluateTop_parallel onlyReaders unsigned

/-! What accesses leave. -/

/-- An access that leaves the disk and the directory alone, and only adds to what is reported. -/
structure Keeps (step : Step) : Prop where
  disk : step.after.disk = step.before.disk
  cwd : step.after.cwd = step.before.cwd
  reports : step.before.reports <+: step.after.reports

/-- What is reported in an access. -/
def told (step : Step) : List Failure := step.after.reports.drop step.before.reports.length

theorem Keeps.told {step : Step} (keeps : Keeps step) :
    step.after.reports = step.before.reports ++ told step := by
  obtain ⟨new, added⟩ := keeps.reports
  rw [SharedReads.told, ← added, List.drop_left]

/-- Along a chain of such accesses all meet the same disk and directory. -/
theorem kept_along {w w' : World} (keep : ∀ step ∈ steps, Keeps step) (chain : Chain w steps w') :
    (∀ step ∈ steps, step.before.disk = w.disk ∧ step.before.cwd = w.cwd) ∧
      w'.disk = w.disk ∧ w'.cwd = w.cwd ∧ w'.reports = w.reports ++ steps.flatMap told := by
  induction steps generalizing w with
  | nil =>
    cases chain
    exact ⟨nofun, rfl, rfl, (List.append_nil _).symm⟩
  | cons step steps ih =>
    obtain ⟨rfl, rest⟩ := chain
    obtain ⟨first, others⟩ := List.forall_mem_cons.mp keep
    obtain ⟨met, disk, cwd, reports⟩ := ih others rest
    refine ⟨List.forall_mem_cons.mpr ⟨⟨rfl, rfl⟩, fun step made => ?_⟩, disk.trans first.disk,
      cwd.trans first.cwd, ?_⟩
    · exact ⟨(met step made).1.trans first.disk, (met step made).2.trans first.cwd⟩
    · rw [reports, first.told, List.append_assoc, List.flatMap_cons]

/-- The access of a step that only reads. -/
theorem access_keeps {act : Act ε α} (alike : Alike act) {result : Except ε α} {q : Outlet}
    (output : p.output = .outlet q) (does : (Run.access act).Does p steps result p') :
    (∀ step ∈ steps, Keeps step) ∧ ∃ bs, p'.output = .outlet (grown q bs) := by
  obtain ⟨w, s', ran, rfl, rfl⟩ := does
  have start : Parallel (p.over w) (p.over w) (p.over w) (p.over w) :=
    parallel_start rfl rfl rfl output output ⟨rfl, rfl, rfl⟩
  obtain ⟨_, _, _, ran', -, rel⟩ := alike start
  cases ran.symm.trans ran'
  obtain ⟨q', -, written, out, -, -, out', -⟩ := rel.outputs
  obtain ⟨new, reports, -⟩ := rel.reports
  cases out.symm.trans output
  exact ⟨List.forall_mem_singleton.mpr ⟨rel.disks.1, rel.cwds.1, new, reports.symm⟩, written, out'⟩

/-- The accesses of the run leave the disk and the directory alone, and its output is written to. -/
def keeping : Tie := fun _ _ _ _ run Q =>
  ∀ p steps result p' q, run.Does p steps result p' → p.output = .outlet q →
    (∀ step ∈ steps, Keeps step) ∧ (∃ bs, p'.output = .outlet (grown q bs)) ∧
      ∀ a, result = .ok a → Q a

section Keeping

variable {sh : Shell} (onlyReaders : ∀ app ∈ sh.applications, app ∈ readers)

include onlyReaders

/-- An application of such a shell runs in one access. -/
theorem run_eq_access {app : Application} (member : app ∈ sh.applications) (args : List String) :
    Concurrent.run app args = Run.access (app.run args) := by
  refine if_neg ?_
  rintro rfl
  exact absurd (onlyReaders _ member) (by decide)

theorem keeping_ties : Ties sh Unsigned (fun _ _ => True) keeping where
  ofExcept known := by
    rintro p _ _ _ q ⟨rfl, rfl, rfl⟩ output
    exact ⟨nofun, ⟨[], by rw [grown_nil, output]⟩, known⟩
  leaf leaf known := by
    intro p steps result p' q does output
    obtain ⟨keep, grows⟩ := access_keeps (leaf_alike leaf) output does
    obtain ⟨w, s', ran, -⟩ := does
    refine ⟨keep, grows, ?_⟩
    rintro a rfl
    exact known a ⟨_, _, ran⟩
  apps member args := by
    intro p steps result p' q does output
    rw [run_eq_access onlyReaders member] at does
    obtain ⟨keep, grows⟩ := access_keeps (reader_alike (onlyReaders _ member) args) output does
    exact ⟨keep, grows, fun _ _ => trivial⟩
  bind first rest := by
    rintro p _ _ p' q (⟨e, failed, rfl⟩ | ⟨a, p₁, begun, later, done, does, rfl⟩) output
    · obtain ⟨keep, grows, -⟩ := first _ _ _ _ q failed output
      exact ⟨keep, grows, nofun⟩
    · obtain ⟨keep, ⟨bs, between⟩, known⟩ := first _ _ _ _ q done output
      obtain ⟨keep', ⟨more, after⟩, known'⟩ := rest a (known a rfl) _ _ _ _ _ does between
      exact ⟨List.forall_mem_append.mpr ⟨keep, keep'⟩, ⟨bs ++ more, by rw [after, grown_grown]⟩,
        known'⟩
  attempt inner := by
    rintro p _ _ _ q ⟨result, does, rfl⟩ output
    obtain ⟨keep, grows, -⟩ := inner _ _ _ _ q does output
    exact ⟨keep, grows, fun _ _ => trivial⟩
  mapError inner := by
    rintro p _ _ _ q ⟨result, does, rfl⟩ output
    obtain ⟨keep, grows, -⟩ := inner _ _ _ _ q does output
    exact ⟨keep, grows, fun _ _ => trivial⟩
  withInput input inner := by
    rintro p _ _ _ q ⟨p₁, does, rfl⟩ output
    obtain ⟨keep, grows, -⟩ := inner _ _ _ _ q does output
    exact ⟨keep, grows, fun _ _ => trivial⟩
  withOutput _ opens _ := by
    obtain ⟨token, unsigned, opens⟩ := opens
    exact absurd opens (not_opens_of_unsigned unsigned)
  collect inner := by
    rintro p _ _ _ q ⟨result, p₁, does, rfl, rfl⟩ output
    obtain ⟨keep, -, -⟩ := inner _ _ _ _ {} does rfl
    exact ⟨keep, ⟨[], by rw [grown_nil, output]⟩, fun _ _ => trivial⟩
  beside first rest _ := by
    rintro p _ _ _ q
      ⟨room, result, p₁, steps₁, results, p₂, steps₂, does₁, does₂, -, order, rfl, rfl⟩ output
    obtain ⟨keep, -, -⟩ := first _ _ _ _ _ does₁ rfl
    obtain ⟨keep', grows, -⟩ := rest _ _ _ _ q does₂ output
    exact ⟨fun step made => ((mem_of_interleaved order).mp made).elim (keep step) (keep' step),
      grows, fun _ _ => trivial⟩

end Keeping

/-! The same in turn. -/

/-- An outlet is like another one after some bytes. -/
def Becomes (o q : Outlet) : Prop := ∃ bs, SameKind (grown o bs) q

/-- In turn the step comes to the same from every world with this disk and directory, and reports
the same in some order. -/
def SameInTurn (d : Disk) (cwd : Place) (act : Act ε α) (p : Streams) (steps : List Step)
    (result : Except ε α) (p' : Streams) : Prop :=
  ∀ w : World, w.disk = d → w.cwd = cwd → ∃ w' new,
    act.start (p.over w) = some (result, p'.over w') ∧ w'.disk = d ∧ w'.cwd = cwd ∧
      w'.reports = w.reports ++ new ∧ new.Perm (steps.flatMap told)

/-- The stages read their input to its end, whatever they get, on this disk, in this directory, and
on whatever the outlet becomes. -/
def Drains (d : Disk) (cwd : Place) (o : Outlet)
    (later : Act Failure (List (Except Failure Outcome))) : Prop :=
  ∀ (s : Session) (bytes : Bytes) (q : Outlet), s.disk = d → s.cwd = cwd →
    s.input = .stream bytes none → s.output = .outlet q → Becomes o q →
    ∀ result s', later.start s = some (result, s') → s'.input = .stream [] none

/-- Runs whose accesses meet this disk and directory come to the same as the step in turn. -/
def agreeing (d : Disk) (cwd : Place) : Tie := fun o _ _ act run Q =>
  ∀ p steps result p' q, run.Does p steps result p' → p.output = .outlet q → Becomes o q →
    (∀ step ∈ steps, step.before.disk = d ∧ step.before.cwd = cwd) →
    SameInTurn d cwd act p steps result p' ∧ (∃ q', p'.output = .outlet q' ∧ Becomes o q') ∧
      ∀ a, result = .ok a → Q a

theorem becomes_refl (o : Outlet) : Becomes o o := ⟨[], by rw [grown_nil]; exact ⟨rfl, rfl, rfl⟩⟩

theorem Becomes.grown {o q : Outlet} (becomes : Becomes o q) (bs : Bytes) :
    Becomes o (grown q bs) := by
  obtain ⟨before, kind⟩ := becomes
  refine ⟨before ++ bs, ?_⟩
  rw [← grown_grown]
  exact kind.grown bs

variable {d : Disk} {cwd : Place} {result : Except ε α}

theorem access_agrees {act : Act ε α} (alike : Alike act) {q : Outlet} (output : p.output = .outlet q)
    (does : (Run.access act).Does p steps result p')
    (met : ∀ step ∈ steps, step.before.disk = d ∧ step.before.cwd = cwd) :
    SameInTurn d cwd act p steps result p' := by
  obtain ⟨w₀, s', ran, rfl, rfl⟩ := does
  obtain ⟨rfl, rfl⟩ := met _ List.mem_cons_self
  intro w disk cwd
  have start : Parallel (p.over w₀) (p.over w) (p.over w₀) (p.over w) :=
    parallel_start disk cwd rfl output output ⟨rfl, rfl, rfl⟩
  obtain ⟨_, _, t', ran₁, ran₂, rel⟩ := alike start
  cases ran.symm.trans ran₁
  have same : t'.streams = s'.streams := by
    obtain ⟨q₁, q₂, written, out₁, out₂, -, out, out'⟩ := rel.outputs
    cases out₁.symm.trans out₂
    simp only [Session.streams, rel.input, out, out']
  obtain ⟨new, new₁, new₂⟩ := rel.reports
  refine ⟨t'.world, new, ?_, rel.disks.2, rel.cwds.2, new₂, ?_⟩
  · rw [ran₂, ← same, Session.over_world]
  · have added : told ⟨w₀, s'.world, none⟩ = new := by
      rw [told]
      change s'.reports.drop _ = new
      rw [new₁]
      exact List.drop_left
    rw [List.flatMap_cons, List.flatMap_nil, List.append_nil, added]

theorem sameInTurn_bind {act : Act ε α} {next : α → Act ε β} {p₁ : Streams} {begun later : List Step}
    {a : α} {result : Except ε β} (first : SameInTurn d cwd act p begun (.ok a) p₁)
    (rest : SameInTurn d cwd (next a) p₁ later result p') :
    SameInTurn d cwd (act >>= next) p (begun ++ later) result p' := by
  intro w disk here
  obtain ⟨w₁, new, ran, disk₁, here₁, reports, perm⟩ := first w disk here
  obtain ⟨w₂, more, ran', disk₂, here₂, reports', perm'⟩ := rest w₁ disk₁ here₁
  refine ⟨w₂, new ++ more, ?_, disk₂, here₂, ?_, ?_⟩
  · rw [start_bind, ran]
    exact ran'
  · rw [reports', reports, List.append_assoc]
  · rw [List.flatMap_append]
    exact perm.append perm'

/-- What the end of a step is passed through does not matter to the disk, the directory and the
reports. -/
theorem sameInTurn_map {act : Act ε α} {act' : Act ε' β} {p₁ p₁' : Streams} {result' : Except ε' β}
    (inner : SameInTurn d cwd act p₁ steps result p₁')
    (ends : ∀ w w', act.start (p₁.over w) = some (result, p₁'.over w') →
      act'.start (p.over w) = some (result', p'.over w')) :
    SameInTurn d cwd act' p steps result' p' := by
  intro w disk here
  obtain ⟨w', new, ran, rest⟩ := inner w disk here
  exact ⟨w', new, ends w w' ran, rest⟩

/-- A reader that takes all there is to take has not stopped short. -/
theorem not_stopsShort {later : Act Failure (List (Except Failure Outcome))}
    {later' : Run Failure (List (Except Failure Outcome))} {bytes : Bytes} {o q : Outlet}
    {results : Except Failure (List (Except Failure Outcome))} (drains : Drains d cwd o later)
    (becomes : Becomes o q)
    (agrees : ∀ p p', p.output = .outlet q → later'.Does p steps results p' →
      SameInTurn d cwd later p steps results p') :
    ¬ later'.StopsShort bytes (.outlet q) steps results p' := by
  rintro ⟨left, -, short⟩
  obtain ⟨w', new, ran, -⟩ := agrees _ _ rfl (short [0] none) { disk := d, cwd } rfl rfl
  have ends := drains _ (bytes ++ [0]) q rfl rfl rfl rfl becomes _ _ ran
  have more : Source.stream (left ++ [0]) none = .stream [] none := ends
  simp at more

section Agreeing

variable {sh : Shell} (onlyReaders : ∀ app ∈ sh.applications, app ∈ readers)

include onlyReaders

theorem agreeing_ties (d : Disk) (cwd : Place) : Ties sh Unsigned (Drains d cwd) (agreeing d cwd) where
  ofExcept known := by
    rintro p _ _ _ q ⟨rfl, rfl, rfl⟩ output becomes met
    exact ⟨fun w disk here => ⟨w, [], rfl, disk, here, (List.append_nil _).symm, .refl _⟩,
      ⟨q, output, becomes⟩, known⟩
  leaf leaf known := by
    intro p steps result p' q does output becomes met
    have alike := leaf_alike leaf
    obtain ⟨-, bs, output'⟩ := access_keeps alike output does
    refine ⟨access_agrees alike output does met, ⟨_, output', becomes.grown bs⟩, ?_⟩
    obtain ⟨w, s', ran, -⟩ := does
    rintro a rfl
    exact known a ⟨_, _, ran⟩
  apps member args := by
    intro p steps result p' q does output becomes met
    rw [run_eq_access onlyReaders member] at does
    have alike := reader_alike (onlyReaders _ member) args
    obtain ⟨-, bs, output'⟩ := access_keeps alike output does
    exact ⟨access_agrees alike output does met, ⟨_, output', becomes.grown bs⟩, fun _ _ => trivial⟩
  bind first rest := by
    rintro p _ _ p' q (⟨e, failed, rfl⟩ | ⟨a, p₁, begun, later, done, does, rfl⟩) output becomes met
    · obtain ⟨same, becomes', -⟩ := first _ _ _ _ q failed output becomes met
      refine ⟨sameInTurn_map same fun w w' ran => ?_, becomes', nofun⟩
      rw [start_bind, ran]
    · obtain ⟨met, met'⟩ := List.forall_mem_append.mp met
      obtain ⟨same, ⟨q₁, output₁, becomes₁⟩, known⟩ := first _ _ _ _ q done output becomes met
      obtain ⟨same', rest⟩ := rest a (known a rfl) _ _ _ _ q₁ does output₁ becomes₁ met'
      exact ⟨sameInTurn_bind same same', rest⟩
  attempt inner := by
    rintro p _ _ _ q ⟨result, does, rfl⟩ output becomes met
    obtain ⟨same, becomes', -⟩ := inner _ _ _ _ q does output becomes met
    refine ⟨sameInTurn_map same fun w w' ran => ?_, becomes', fun _ _ => trivial⟩
    rw [start_attempt, ran]
    rfl
  mapError inner := by
    rintro p _ _ _ q ⟨result, does, rfl⟩ output becomes met
    obtain ⟨same, becomes', -⟩ := inner _ _ _ _ q does output becomes met
    refine ⟨sameInTurn_map same fun w w' ran => ?_, becomes', fun _ _ => trivial⟩
    rw [start_mapError, ran]
    rfl
  withInput input inner := by
    rintro p _ _ _ q ⟨p₁, does, rfl⟩ output becomes met
    obtain ⟨same, becomes', -⟩ := inner _ _ _ _ q does output becomes met
    refine ⟨sameInTurn_map same fun w w' ran => ?_, becomes', fun _ _ => trivial⟩
    exact congrArg (Option.map _) ran
  withOutput _ opens _ := by
    obtain ⟨token, unsigned, opens⟩ := opens
    exact absurd opens (not_opens_of_unsigned unsigned)
  collect inner := by
    rintro p _ _ _ q ⟨result, p₁, does, rfl, rfl⟩ output becomes met
    obtain ⟨same, -, -⟩ := inner _ _ _ _ {} does rfl (becomes_refl _) met
    refine ⟨sameInTurn_map same fun w w' ran => ?_, ⟨q, output, becomes⟩, fun _ _ => trivial⟩
    exact congrArg (Option.map _) ran
  beside := by
    rintro o act run later later' _ _ first rest drains p steps _ _ q
      ⟨room, result, p₁, steps₁, results, p₂, steps₂, does₁, does₂, short, order, rfl, rfl⟩ output
      becomes met
    have met₁ : ∀ step ∈ steps₁, step.before.disk = d ∧ step.before.cwd = cwd :=
      fun step made => met step ((mem_of_interleaved order).mpr (.inl made))
    have met₂ : ∀ step ∈ steps₂, step.before.disk = d ∧ step.before.cwd = cwd :=
      fun step made => met step ((mem_of_interleaved order).mpr (.inr made))
    obtain rfl : room = none := by
      refine Option.not_isSome_iff_eq_none.mp fun limited => ?_
      have shortly := short limited
      rw [output] at shortly
      refine not_stopsShort drains becomes (fun p p' output does => ?_) shortly
      exact (rest _ _ _ _ q does output becomes met₂).1
    obtain ⟨same₁, -, -⟩ := first _ _ _ _ {} does₁ rfl (becomes_refl _) met₁
    obtain ⟨same₂, becomes', -⟩ := rest _ _ _ _ q does₂ output becomes met₂
    refine ⟨fun w disk here => ?_, becomes', fun _ _ => trivial⟩
    obtain ⟨w₁, new, ran, disk₁, here₁, reports, perm⟩ := same₁ w disk here
    obtain ⟨w₂, more, ran', disk₂, here₂, reports', perm'⟩ := same₂ w₁ disk₁ here₁
    refine ⟨w₂, new ++ more, ?_, disk₂, here₂, ?_, ?_⟩
    · have begins : act.start { p.over w with output := .unlimited } = some (result, p₁.over w₁) :=
        ran
      rw [start_inTurn, begins]
      exact congrArg (Option.map _) ran'
    · rw [reports', reports, List.append_assoc]
    · refine (perm.append perm').trans ?_
      rw [← List.flatMap_append]
      exact ((perm_of_interleaved order).flatMap_right told).symm

end Agreeing

/-! Redirections. -/

/-- What is left by the redirections among fit tokens, whatever the tokens stand for. -/
theorem extractFrom_leaves {Fit : String → Prop} {expand : String → Run Failure (List String)} :
    (tokens : List String) → (r r' : Redirection) → (p p' : Streams) → (steps : List Step) →
      (∀ token ∈ tokens, Fit token) → Prepared Fit r →
      (Concurrent.extractFrom expand r tokens).Does p steps (.ok r') p' → Prepared Fit r'
  | [], r, _, _, _, _, _, prepared, does => by
    obtain ⟨-, ⟨⟩, -⟩ := does
    exact { prepared with rest := fun token held => prepared.rest token (List.mem_reverse.mp held) }
  | [token], r, _, _, _, _, fits, prepared, does => by
    unfold Concurrent.extractFrom at does
    split at does
    · obtain ⟨-, ⟨⟩, -⟩ := does
      refine { prepared with rest := fun other held => ?_ }
      rcases List.mem_cons.mp (List.mem_reverse.mp held) with rfl | held
      · exact fits _ List.mem_cons_self
      · exact prepared.rest other held
    · obtain ⟨-, ⟨⟩, -⟩ := does
  | token :: operand :: tokens, r, r', p, p', steps, fits, prepared, does => by
    obtain ⟨first, others⟩ := List.forall_mem_cons.mp fits
    obtain ⟨second, rest⟩ := List.forall_mem_cons.mp others
    unfold Concurrent.extractFrom at does
    split at does
    · refine extractFrom_leaves (operand :: tokens) _ r' p p' steps others ?_ does
      exact { prepared with rest := List.forall_mem_cons.mpr ⟨first, prepared.rest⟩ }
    · rename_i sign read
      split at does
      · obtain ⟨_, _, _, _, thrown, -⟩ := does_bind_ok does
        obtain ⟨-, ⟨⟩, -⟩ := thrown
      · obtain ⟨name, _, _, _, -, does₁⟩ := does_bind_ok does
        obtain ⟨r₁, p₁, _, later, added, does₂⟩ := does_bind_ok does₁
        obtain ⟨w, s', ran, -⟩ := added
        exact extractFrom_leaves tokens r₁ r' p₁ p' later rest
          (add_prepared read first prepared ⟨_, s', ran⟩) does₂

/-! Commands. -/

section Commands

variable {sh : Shell} {command : Command} (onlyReaders : ∀ app ∈ sh.applications, app ∈ readers)
  (unsigned : ∀ token ∈ tokensOf command, Unsigned token)

include onlyReaders unsigned

theorem evaluateTop_keeps {q : Outlet} {result : Except Failure Outcome} (output : p.output = .outlet q)
    (does : (Concurrent.evaluateTop sh command).Does p steps result p') :
    (∀ step ∈ steps, Keeps step) ∧ ∃ bs, p'.output = .outlet (grown q bs) := by
  have tied := (keeping_ties onlyReaders).evaluateTop (o := q) unsigned_closed
    (allGood_of_forall (fun _ _ => trivial) _ _ _) unsigned
  obtain ⟨keep, grows, -⟩ := tied _ _ _ _ q does output
  exact ⟨keep, grows⟩

theorem evaluateTop_runs (w : World) {q : Outlet} (output : p.output = .outlet q) :
    ∃ steps result p' w', (Concurrent.evaluateTop sh command).Does p steps result p' ∧
      Chain w steps w' := by
  have start : Parallel (p.over w) (p.over w) (p.over w) (p.over w) :=
    parallel_start rfl rfl rfl output output ⟨rfl, rfl, rfl⟩
  obtain ⟨result, s', -, ran, -⟩ := evaluateTop_alike onlyReaders unsigned start
  obtain ⟨steps, chain, does⟩ := covered_evaluateTop sh command ran
  exact ⟨steps, result, s'.streams, s'.world, does, chain⟩

/-- All runs from a world that looks the same come to what the run in turn comes to. -/
theorem evaluateTop_repeats {w w₁ w' : World} {p₁ : Streams} {q q₁ : Outlet}
    {result result₁ : Except Failure Outcome} {s' : Session} {written : Bytes} {new : List Failure}
    (output : p.output = .outlet q)
    (good : AllGood (Drains w.disk w.cwd) sh sh.levels q command)
    (ran : (sh.evaluateTop command).start (p.over w) = some (result, s'))
    (grows : s'.output = .outlet (grown q written)) (reports : s'.reports = w.reports ++ new)
    (disk : w₁.disk = w.disk) (cwd : w₁.cwd = w.cwd) (input : p₁.input = p.input)
    (output₁ : p₁.output = .outlet q₁)
    (kind : SameKind q q₁) (does : (Concurrent.evaluateTop sh command).Does p₁ steps result₁ p')
    (chain : Chain w₁ steps w') :
    result₁ = result ∧ p'.input = s'.input ∧ p'.output.taken = q₁.taken ++ written ∧
      ∃ new₁, w'.reports = w₁.reports ++ new₁ ∧ new₁.Perm new := by
  have tied := (agreeing_ties onlyReaders w.disk w.cwd).evaluateTop unsigned_closed good unsigned
  obtain ⟨keep, -⟩ := evaluateTop_keeps onlyReaders unsigned output₁ does
  obtain ⟨met, -, -, adds⟩ := kept_along keep chain
  rw [disk, cwd] at met
  have becomes : Becomes q q₁ := ⟨[], by rwa [grown_nil]⟩
  obtain ⟨same, -, -⟩ := tied _ _ _ _ q₁ does output₁ becomes met
  obtain ⟨w₂, new₁, ran₁, -, -, told₁, perm⟩ := same w₁ disk cwd
  have start : Parallel (p.over w) (p₁.over w₁) (p.over w) (p₁.over w₁) :=
    parallel_start disk cwd input output output₁ kind
  obtain ⟨_, _, t', ran', ran₁', rel⟩ := evaluateTop_alike onlyReaders unsigned start
  cases ran.symm.trans ran'
  cases ran₁.symm.trans ran₁'
  obtain ⟨_, _, written', out, out₁, -, grows', grows₁⟩ := rel.outputs
  cases output.symm.trans out
  cases output₁.symm.trans out₁
  have bytes : written = written' :=
    List.append_cancel_left (congrArg Sink.taken (grows.symm.trans grows'))
  obtain ⟨new', inS, inT⟩ := rel.reports
  have same₁ : new₁ = new' := List.append_cancel_left (told₁.symm.trans inT)
  have same' : new = new' := List.append_cancel_left (reports.symm.trans inS)
  refine ⟨rfl, rel.input.symm, ?_, steps.flatMap told, adds, ?_⟩
  · exact (congrArg Sink.taken grows₁).trans (by rw [bytes]; rfl)
  · rw [same', ← same₁]
    exact perm.symm

end Commands

theorem not_later_single {c : Call} {later : List Call} : ¬ Later [c] later := by
  rintro ⟨some, before, suffix⟩
  obtain ⟨rest, split⟩ := suffix
  have lengths := congrArg List.length split
  have positive := List.length_pos_of_ne_nil some
  simp only [List.length_append, List.length_cons, List.length_nil] at lengths
  omega

theorem later_pair {c₁ c₂ : Call} {later : List Call} (comes : Later [c₁, c₂] later) :
    later = [c₂] := by
  obtain ⟨some, before, _ | ⟨first, rest⟩, split⟩ := comes
  · exact (List.cons.inj split).2
  · exact absurd ⟨some, before, rest, (List.cons.inj split).2⟩ not_later_single

/-- `cat` reads its input to the end. -/
theorem drains_cat {sh : Shell} (enabled : .cat ∈ sh.applications) (run : Substitution) (d : Disk)
    (cwd : Place) {o : Outlet} (unlimited : PipeIntoCat.Unlimited o) :
    Drains d cwd o (sh.stages run [PipeIntoCat.catCall]) := by
  intro s bytes q disk here input output becomes result s' ran
  obtain ⟨bs, kind⟩ := becomes
  have taking : PipeIntoCat.Unlimited q := by
    refine ⟨?_, kind.flushFails.symm.trans unlimited.flushes⟩
    rw [← kind.room, grown, unlimited.room]
    rfl
  obtain ⟨journal, copied⟩ := PipeIntoCat.start_stage_cat run enabled taking output input
  simp only [Shell.stages, start_bind, start_attempt, copied, Option.map, start_pure] at ran
  cases ran
  rfl

/-- A shell that only reads. -/
abbrev reading : Shell := { applications := readers }

/-- A file holds the sign for an output. -/
def signInFile : World where
  disk := { entries := [(["f"], .file 0)], contents := [Text.bytes ">"] }

/-- The words of one stage come out of that file, another stage copies what it writes. -/
def copied : Command := .pipe [⟨["echo", "x", "`cat f`", "out"]⟩, PipeIntoCat.catCall]

theorem copied_good : AllGood (Drains signInFile.disk signInFile.cwd) reading 8 {} copied := by
  refine ⟨.pipe fun later comes => ?_, fun token held text member inner parsed => ?_⟩
  · rw [later_pair comes]
    exact drains_cat (by decide) _ _ _ ⟨rfl, rfl⟩
  · have one : text ∈ (tokensOf copied).flatMap regions := List.mem_flatMap.mpr ⟨token, held, member⟩
    rw [show (tokensOf copied).flatMap regions = ["cat f"] by decide +kernel,
      List.mem_singleton] at one
    subst one
    have read : Command.parse "cat f" = .ok (.sequence [.pipe [⟨["cat", "f"]⟩]]) :=
      PipedStages.parse_pipe (by simp) (by decide) (by decide)
    cases parsed.symm.trans read
    refine ⟨.sequence fun c member => ?_, fun token held text member => ?_⟩
    · rw [List.mem_singleton.mp member]
      exact .pipe fun later comes => absurd comes not_later_single
    · have none : text ∈ (tokensOf (.sequence [.pipe [⟨["cat", "f"]⟩]])).flatMap regions :=
        List.mem_flatMap.mpr ⟨token, held, member⟩
      rw [show (tokensOf (.sequence [.pipe [⟨["cat", "f"]⟩]])).flatMap regions = [] by decide] at none
      cases none

/-- A stage that prints a word reads nothing. -/
theorem echo_stage_does (run : RunningSubstitution) (input : Source) (w w₁ w₂ w₃ : World) :
    (Concurrent.stage reading run ⟨["echo", "hi"]⟩).Does { input }
      [running ["echo", "hi"] w, still w₁, still w₂, still w₃] (.ok .proceed)
      { input, output := .outlet { taken := Text.bytes "hi\n" } } := by
  have ran : (Concurrent.run .echo ["hi"]).Does { input } [still w₁] (.ok .proceed)
      { input, output := .outlet { taken := Text.bytes "hi\n" } } := by
    have text : Text.bytes "hi\n" = Text.bytes (Text.join " " ["hi"] ++ "\n") := rfl
    obtain ⟨result, ran, proceeds⟩ := EchoLine.run_echo (s := ({ input } : Streams).over w₁) text rfl
    rw [proceeds ⟨nofun, rfl⟩] at ran
    exact ⟨w₁, _, ran, rfl, rfl⟩
  exact spelled_stage_does (by decide) (by decide) ran rfl w w₂ w₃

/-- A stage that writes and then fails, and one that does not read. -/
def hurried : Command := .pipe [⟨["cat", "f", "ghost"]⟩, ⟨["echo", "hi"]⟩]

/-- If the second stage is done before the first one writes, the failure of the first is lost. -/
theorem hurried_proceeds : ∃ steps p' w',
    (Concurrent.evaluateTop reading hurried).Does {} steps (.ok .proceed) p' ∧
      Chain signInFile steps w' := by
  let w₁ := (running ["echo", "hi"] signInFile).after
  let w₂ := (running ["cat", "f", "ghost"] w₁).after
  let steps₂ := [running ["echo", "hi"] signInFile, still w₁, still w₁, still w₁]
  have reader (input : Source) := last_stage_does
    (echo_stage_does (Concurrent.substitute reading 8) input signInFile w₁ w₁ w₁)
  have first : (Concurrent.stage reading (Concurrent.substitute reading 8) ⟨["cat", "f", "ghost"]⟩).Does
      { output := Run.writer (some 0) } [running ["cat", "f", "ghost"] w₁, still w₂, still w₂, still w₂]
      (.error (.application "cat" (.io (.described "sink full" true))))
      { output := Run.writer (some 0) } := by
    have ran : (Concurrent.run .cat ["f", "ghost"]).Does { output := Run.writer (some 0) } [still w₂]
        (.error (.io (.described "sink full" true))) { output := Run.writer (some 0) } := by
      refine ⟨w₂, ({ output := Run.writer (some 0) } : Streams).over w₂, ?_, rfl, rfl⟩
      decide +kernel
    exact spelled_stage_does (by decide) (by decide) ran rfl w₁ w₂ w₂
  have short : (Concurrent.stages reading (Concurrent.substitute reading 8)
      [⟨["echo", "hi"]⟩]).StopsShort [] .unlimited steps₂ (.ok [.ok .proceed])
      { input := .stream [] none, output := .outlet { taken := Text.bytes "hi\n" } } :=
    ⟨[], rfl, fun more fault => reader (.stream more fault)⟩
  have staged : (Concurrent.stages reading (Concurrent.substitute reading 8)
      [⟨["cat", "f", "ghost"]⟩, ⟨["echo", "hi"]⟩]).Does {} _ (.ok [.error _, .ok .proceed])
      { output := .outlet { taken := Text.bytes "hi\n" } } :=
    ⟨some 0, _, _, _, _, _, steps₂, first, reader _, fun _ => short,
      interleaved_symm (interleaved_append _ _), rfl, rfl⟩
  have does := pipe_does staged (settle_stopped rfl _ w₂)
  exact ⟨_, _, _, does, rfl, rfl, rfl, rfl, rfl, rfl, rfl, rfl, rfl, rfl⟩

/-- Two stages that each report a failure of theirs. -/
def telling : Command := .pipe [⟨["echo", "`nope; nada`"]⟩, ⟨["cat", "`exit | cat - h`"]⟩]

/-- What the first stage reports, and what the second one does. -/
def tellings : List Failure := [.commandNotFound "nada", .application "cat" (.noSuchFile "h")]

/-- If the second stage expands its tokens first, it is the first to report. -/
theorem telling_reversed : ∃ steps p' w',
    (Concurrent.evaluateTop reading telling).Does {} steps (.error (.commandNotFound "nope")) p' ∧
      Chain signInFile steps w' ∧ w'.reports = tellings.reverse := by
  have inTurn : ((Word.expandAll (reading.substitute 8) Shell.glob ["cat", "`exit | cat - h`"]).start
      (({} : Streams).over signInFile)).bind (fun begun =>
        ((reading.stage (reading.substitute 8) ⟨["echo", "`nope; nada`"]⟩).start
          (({} : Streams).over begun.2.world)).map fun ended =>
            (begun.1, begun.2.streams, ended.1, ended.2.streams, ended.2.reports)) =
      some (.ok ["cat"], {}, .error (.commandNotFound "nope"), {}, tellings.reverse) := by
    decide +kernel
  obtain ⟨⟨words, s₁⟩, ran₁, rest⟩ := Option.bind_eq_some_iff.mp inTurn
  obtain ⟨⟨result, s₂⟩, ran₂, ended⟩ := Option.map_eq_some_iff.mp rest
  simp only [Prod.mk.injEq] at ended
  obtain ⟨rfl, streams₁, rfl, streams₂, reports⟩ := ended
  obtain ⟨begun, chain₁, expands⟩ := covered_expandAll reading _ ran₁
  obtain ⟨steps, chain₂, first⟩ := covered_stage reading _ ran₂
  rw [streams₁, Streams.streams_over] at expands
  rw [streams₂, Streams.streams_over] at first
  let w := (running ["cat"] s₂.world).after
  have copies : (Concurrent.run .cat []).Does {} [still w] (.ok .proceed) {} :=
    ⟨w, _, PipeIntoCat.start_cat ⟨rfl, rfl⟩ rfl rfl, rfl, rfl⟩
  have second : (Concurrent.stage reading (Concurrent.substitute reading 8)
      ⟨["cat", "`exit | cat - h`"]⟩).Does {} _ (.ok .proceed) {} :=
    expanded_stage_does (by decide) expands (by decide) copies rfl s₂.world w w
  have staged := two_stages_do (p := {}) first second
    (interleaved_within begun (interleaved_append steps _))
  have does := pipe_does staged (settle_fails rfl _)
  refine ⟨_, _, w, does, ?_, reports⟩
  rw [List.append_nil]
  exact chain_append.mpr ⟨_, chain₁, chain_append.mpr ⟨_, chain₂, rfl, rfl, rfl, rfl, rfl⟩⟩

/-- A program that may only read, with settings that ask for a journal of all that it does. -/
def logged : Invocation where
  arguments := ["-c", "cat f"]
  disk :=
    { entries := [(["f"], .file 0), (["h"], .dir), (["h", ".config"], .dir),
        (["h", ".config", "tinysh"], .dir), (["h", ".config", "tinysh", "config.toml"], .file 1)]
      contents := [Text.bytes ">", Text.bytes
        "[settings]\nlog_level='debug'\n[applications]\nreplace=true\nenabled=['cat']\n"] }
  home := some "/h"

end LineShell.SharedReads
