import Mathlib.Data.List.Induction
import LineShell.Proofs.KeptDirectory
import LineShell.Proofs.PathNames
import LineShell.Proofs.PipedStages
import LineShell.Proofs.RunningCalls
import LineShell.Proofs.RunsInTurn

/-! The directory of a session, which all that runs at the same time shares. Of all
accesses only one by which a directory is entered changes it. Such an access comes last in
a `cd` that succeeds: the place entered is where its path leads from the directory of one
moment before, and was a directory at another. So in whatever order accesses are made, the
directory afterwards is where the last one led that entered a directory. -/
namespace LineShell.SharedDirectory
open StepAgreement SessionBonds ApplicationAgreement EvaluationAgreement PathNames
  ConcurrentEvaluation InterleavedSteps RunsInTurn RunningCalls KeptDirectory

variable {ε α β : Type} {p p' : Streams} {steps : List Step}

/-! Entering a directory. -/

/-- A directory is entered if it was found, and else nothing happens. -/
theorem enterFrom_cases {seen : World} {path : String} {result : Except IoError Place}
    (does : (Concurrent.enterFrom seen path).Does p steps result p') :
    (∃ found w₁ w₂, steps = enteringSteps seen found w₁ w₂ path ∧
      result = .ok (Path.resolve seen.cwd path) ∧
      found.disk.isDir (Path.resolve seen.cwd path) = true) ∨
    ∃ found e, steps = [{ before := found, after := found }] ∧ result = .error e := by
  obtain ⟨found, later, rfl, rest⟩ := view_cases does
  rw [Streams.world_over] at rest
  split at rest
  · rename_i isDir
    rcases rest with ⟨e, ⟨w, s', ran, -, -⟩, -⟩ |
      ⟨_, p₁, begun, last, ⟨w₁, s', ran, rfl, rfl⟩, rest, rfl⟩
    · cases ran
    · cases ran
      rcases rest with ⟨e, ⟨w, -, failed, -⟩, -⟩ | ⟨_, p₂, begun, last, ⟨w₂, rfl, -, rfl⟩, rest, rfl⟩
      · cases failed
      · obtain ⟨rfl, rfl, rfl⟩ := rest
        exact .inl ⟨found, w₁, w₂, rfl, rfl, isDir⟩
  · obtain ⟨rfl, rfl, rfl⟩ := rest
    exact .inr ⟨found, _, rfl, rfl⟩

/-- `cd` enters the directory that its only argument names, with its last access, or enters
none and does nothing else. -/
theorem cd_cases {args : List String} {result : Except Complaint Outcome}
    (does : (Concurrent.cd args).Does p steps result p') :
    (∃ path seen w₁ w₂ found w₃ w₄, args = [path] ∧ path ≠ "" ∧ result = .ok .proceed ∧
      steps = lookingSteps seen w₁ w₂ ++ enteringSteps seen found w₃ w₄ path ∧
      found.disk.isDir (Path.resolve seen.cwd path) = true) ∨
    (∃ c, result = .error c) ∧ ∀ step ∈ steps, step.entered = none ∧ step.after = step.before := by
  match args with
  | [] =>
    obtain ⟨rfl, rfl, rfl⟩ := does
    exact .inr ⟨⟨_, rfl⟩, nofun⟩
  | _ :: _ :: _ =>
    obtain ⟨rfl, rfl, rfl⟩ := does
    exact .inr ⟨⟨_, rfl⟩, nofun⟩
  | [path] =>
    by_cases empty : path = ""
    · subst empty
      obtain ⟨rfl, rfl, rfl⟩ := does
      exact .inr ⟨⟨_, rfl⟩, nofun⟩
    simp only [Concurrent.cd, if_neg empty] at does
    obtain ⟨seen, _, rfl, does₁⟩ := view_cases does
    obtain ⟨w₁, _, rfl, does₂⟩ := view_cases does₁
    rw [Streams.world_over] at does₂
    split at does₂
    · obtain ⟨w₂, later, rfl, does₃⟩ := view_cases does₂
      split at does₃
      · rcases does₃ with ⟨c, ⟨entering, enters, failed⟩, rfl⟩ |
          ⟨_, p₁, begun, last, ⟨entering, enters, done⟩, ⟨rfl, rfl, rfl⟩, rfl⟩
        · rcases enterFrom_cases enters with ⟨_, _, _, -, rfl, -⟩ | ⟨found, e, rfl, rfl⟩
          · cases failed
          · exact .inr ⟨⟨c, rfl⟩, by simp⟩
        · rcases enterFrom_cases enters with ⟨found, w₃, w₄, rfl, rfl, isDir⟩ | ⟨found, e, -, rfl⟩
          · refine .inl ⟨path, seen, w₁, w₂, found, w₃, w₄, rfl, empty, rfl, ?_, isDir⟩
            rw [List.append_nil]
            rfl
          · cases done
      · obtain ⟨rfl, rfl, rfl⟩ := does₃
        exact .inr ⟨⟨_, rfl⟩, by simp⟩
    · obtain ⟨rfl, rfl, rfl⟩ := does₂
      exact .inr ⟨⟨_, rfl⟩, by simp⟩

/-! What accesses do to the directory. -/

/-- An access that leaves the directory alone. -/
def Stays (step : Step) : Prop := step.entered = none ∧ step.after.cwd = step.before.cwd

theorem stays_of_still (still : ∀ step ∈ steps, step.entered = none ∧ step.after = step.before) :
    ∀ step ∈ steps, Stays step :=
  fun step made => ⟨(still step made).1, by rw [(still step made).2]⟩

/-- A `cd` with this argument makes these accesses and succeeds. -/
def ByCd (path : String) (made : List Step) : Prop :=
  path ≠ "" ∧ ∃ p p', (Concurrent.cd [path]).Does p made (.ok .proceed) p'

/-- The directory of this path is entered by these accesses. -/
def ByEntering (path : String) (made : List Step) : Prop :=
  ∃ p place p', (Concurrent.enterDir path).Does p made (.ok place) p'

/-- What is asked of an access that others went before: it leaves the directory alone, or it
enters the place that a path led to from the directory of one access before, and that was a
directory at another one since. Together with some of those before, it is then all that was
done for this path, as `By` says. -/
def Fits (By : String → List Step → Prop) (past : List Step) (step : Step) : Prop :=
  match step.entered with
  | none => step.after.cwd = step.before.cwd
  | some e => step.after.cwd = e.place ∧ e.found.disk.isDir e.place = true ∧
    ∃ own, own.Sublist past ∧ [e.seen, e.found].Sublist (own.map Step.before) ∧
      By e.path (own ++ [step])

variable {By : String → List Step → Prop}

theorem fits_more {past past' : List Step} {step : Step} (more : past.Sublist past')
    (fits : Fits By past step) : Fits By past' step := by
  unfold Fits at fits ⊢
  split
  · rename_i none
    rwa [none] at fits
  · rename_i e entered
    rw [entered] at fits
    obtain ⟨led, isDir, own, made, sees, by_⟩ := fits
    exact ⟨led, isDir, own, made.trans more, sees, by_⟩

theorem fits_of_stays {step : Step} (stays : Stays step) (past : List Step) :
    Fits By past step := by
  rw [Fits, stays.1]
  exact stays.2

theorem throughout_of_stay (stay : ∀ step ∈ steps, Stays step) : Throughout (Fits By) steps :=
  fun past step later at_ => fits_of_stays (stay step (at_ ▸ by simp)) past

theorem throughout_entering {seen found w₁ w₂ : World} {path : String} (looks : List Step)
    (stay : ∀ step ∈ looks, Stays step) (sees : seen ∈ looks.map Step.before)
    (isDir : found.disk.isDir (Path.resolve seen.cwd path) = true)
    (by_ : By path (looks ++ enteringSteps seen found w₁ w₂ path)) :
    Throughout (Fits By) (looks ++ enteringSteps seen found w₁ w₂ path) := by
  rw [enteringSteps, List.append_cons looks, List.append_cons (looks ++ _)] at by_ ⊢
  refine throughout_concat (throughout_of_stay ?_) ⟨rfl, isDir, _, .refl _, ?_, by_⟩
  · simp only [List.forall_mem_append, List.forall_mem_singleton]
    exact ⟨⟨stay, rfl, rfl⟩, rfl, rfl⟩
  · rw [List.append_assoc, List.map_append]
    exact (List.singleton_sublist.mpr sees).append (.cons_cons found (List.nil_sublist _))

/-- No step that evaluation is made of changes the directory. -/
theorem leaf_cwd {Fit : String → Prop} {act : Act ε α} {s s' : Session} {result : Except ε α}
    (leaf : Leaf Fit act) (ran : act.start s = some (result, s')) : s'.cwd = s.cwd := by
  have like := within_like s.cwd
  have journal : JournalFree (within s.cwd).Rel := by
    rintro s _ ⟨rfl, here⟩ record
    exact ⟨rfl, here⟩
  cases leaf with
  | note | report =>
    cases ran
    rfl
  | flush => exact flush_cwd ran
  | parse line => exact cwd_of_agrees (parse_agrees journal line) ran
  | glob word => exact cwd_of_agrees (glob_agrees like journal word) ran
  | add _ read r name =>
    have disks := within_disks s.cwd
    exact cwd_of_agrees (add_agrees like read (fun _ => disks) r name) ran

/-- An application other than `cd` leaves the directory alone. -/
theorem run_stays {app : Application} (other : app ≠ .cd) {args : List String}
    {result : Except Complaint Outcome} (does : (Concurrent.run app args).Does p steps result p') :
    ∀ step ∈ steps, Stays step := by
  rw [Concurrent.run, if_neg other] at does
  obtain ⟨w, s', ran, rfl, -⟩ := does
  have same := run_cwd other ran
  simpa [Stays] using same

theorem cd_throughout {args : List String} {result : Except Complaint Outcome}
    (does : (Concurrent.cd args).Does p steps result p') : Throughout (Fits ByCd) steps := by
  rcases cd_cases does with
    ⟨path, seen, w₁, w₂, found, w₃, w₄, rfl, some, rfl, rfl, isDir⟩ | ⟨-, still⟩
  · refine throughout_entering (lookingSteps seen w₁ w₂) ?_ List.mem_cons_self isDir
      ⟨some, p, p', does⟩
    simp [lookingSteps, Stays]
  · exact throughout_of_stay (stays_of_still still)

/-! Evaluation. -/

/-- Each access of the run fits those before it. -/
def heeding : Tie := fun _ _ _ _ run Q =>
  ∀ p steps result p', run.Does p steps result p' →
    Throughout (Fits ByCd) steps ∧ ∀ a, result = .ok a → Q a

theorem heeding_ties (sh : Shell) (Fit : String → Prop) : Ties sh Fit (fun _ _ => True) heeding where
  ofExcept known := by
    rintro p _ _ _ ⟨rfl, rfl, -⟩
    exact ⟨throughout_nil, known⟩
  leaf leaf known := by
    rintro p _ result _ ⟨w, s', ran, rfl, -⟩
    refine ⟨throughout_of_stay (List.forall_mem_singleton.mpr ⟨rfl, leaf_cwd leaf ran⟩), ?_⟩
    rintro a rfl
    exact known a ⟨_, _, ran⟩
  apps := by
    intro o app _ args p steps result p' does
    refine ⟨?_, fun _ _ => trivial⟩
    by_cases isCd : app = .cd
    · rw [Concurrent.run, if_pos isCd] at does
      exact cd_throughout does
    · exact throughout_of_stay (run_stays isCd does)
  bind first rest := by
    rintro p _ _ p' (⟨e, failed, rfl⟩ | ⟨a, p₁, begun, later, done, does, rfl⟩)
    · exact ⟨(first _ _ _ _ failed).1, nofun⟩
    · obtain ⟨fits, known⟩ := first _ _ _ _ done
      obtain ⟨fits', known'⟩ := rest a (known a rfl) _ _ _ _ does
      exact ⟨fits.append fits_more fits', known'⟩
  attempt inner := by
    rintro p _ _ _ ⟨result, does, rfl⟩
    exact ⟨(inner _ _ _ _ does).1, fun _ _ => trivial⟩
  mapError inner := by
    rintro p _ _ _ ⟨result, does, rfl⟩
    exact ⟨(inner _ _ _ _ does).1, fun _ _ => trivial⟩
  withInput input inner := by
    rintro p _ _ _ ⟨p₁, does, rfl⟩
    exact ⟨(inner _ _ _ _ does).1, fun _ _ => trivial⟩
  withOutput output _ inner := by
    rintro p _ _ _ ⟨p₁, does, rfl⟩
    exact ⟨(inner _ _ _ _ does).1, fun _ _ => trivial⟩
  collect inner := by
    rintro p _ _ _ ⟨result, p₁, does, rfl, rfl⟩
    exact ⟨(inner _ _ _ _ does).1, fun _ _ => trivial⟩
  beside first rest _ := by
    rintro p _ _ _ ⟨room, result, p₁, steps₁, results, p₂, steps₂, does₁, does₂, -, order, rfl, rfl⟩
    exact ⟨.interleaved fits_more order (first _ _ _ _ does₁).1 (rest _ _ _ _ does₂).1,
      fun _ _ => trivial⟩

/-! Chains. -/

/-- An access by which no directory is entered. -/
theorem stay_of_none {step : Step} (fits : Throughout (Fits By) steps) (made : step ∈ steps)
    (none : step.entered = none) : step.after.cwd = step.before.cwd := by
  obtain ⟨past, later, rfl⟩ := List.append_of_mem made
  have here := fits past step later rfl
  rwa [Fits, none] at here

/-- Where no directory is entered, none is left. -/
theorem cwd_of_none {w w' : World} (fits : Throughout (Fits By) steps)
    (chain : Chain w steps w') (none : ∀ step ∈ steps, step.entered = none) : w'.cwd = w.cwd :=
  eq_of_chain (fun step made => stay_of_none fits made (none step made)) chain

/-- The directory is where the last access led that entered one. -/
theorem cwd_of_last {w w' : World} {before rest : List Step} {last : Step} {e : Entrance}
    (fits : Throughout (Fits By) (before ++ last :: rest))
    (chain : Chain w (before ++ last :: rest) w') (entered : last.entered = some e)
    (none : ∀ step ∈ rest, step.entered = none) :
    w'.cwd = e.place ∧ e.found.disk.isDir e.place = true ∧
      ∃ own, own.Sublist before ∧ [e.seen, e.found].Sublist (own.map Step.before) ∧
        By e.path (own ++ [last]) := by
  obtain ⟨m, -, rfl, after⟩ := chain_append.mp chain
  have here := fits before last rest rfl
  rw [Fits, entered] at here
  refine ⟨?_, here.2⟩
  rw [← here.1]
  refine eq_of_chain (fun step made => stay_of_none fits ?_ (none step made)) after
  exact List.mem_append_right _ (List.mem_cons_of_mem _ made)

/-- A place was seen in an access, and found in one after it. If no directory was entered from
then on, it was seen from the directory that is still the current one; and what was found is
there if no files were changed since. -/
theorem seen_of_sublist {w w' : World} {seen found : World} (fits : Throughout (Fits By) steps)
    (chain : Chain w steps w') (sub : [seen, found].Sublist (steps.map Step.before)) :
    ∃ past look since, steps = past ++ look :: since ∧ look.before = seen ∧
      found ∈ since.map Step.before ∧
      ((∀ step ∈ look :: since, step.entered = none) → w'.cwd = seen.cwd) ∧
      ((∀ step ∈ since, step.after.disk = step.before.disk) → w'.disk = found.disk) := by
  obtain ⟨begun, since, split, made, later⟩ := List.cons_sublist_iff.mp sub
  obtain ⟨begun, since, rfl, rfl, rfl⟩ := List.map_eq_append_iff.mp split
  obtain ⟨look, looked, rfl⟩ := List.mem_map.mp made
  obtain ⟨past, between, rfl⟩ := List.append_of_mem looked
  rw [List.append_assoc, List.cons_append] at fits chain ⊢
  obtain ⟨m, -, rfl, after⟩ := chain_append.mp chain
  have member : found ∈ (between ++ since).map Step.before := by
    rw [List.map_append]
    exact List.mem_append_right _ (List.singleton_sublist.mp later)
  refine ⟨past, look, between ++ since, rfl, rfl, member, fun none => ?_, fun keep => ?_⟩
  · have from_look : Chain look.before (look :: (between ++ since)) w' := ⟨rfl, after⟩
    exact eq_of_chain (fun step made =>
      stay_of_none fits (List.mem_append_right _ made) (none step made)) from_look
  · exact eq_since keep after member

/-- Along a chain the directory stays an absolute path without superfluous parts. -/
theorem normal_of_chain {w w' : World} (fits : Throughout (Fits By) steps)
    (chain : Chain w steps w') (normal : Normal w.cwd) :
    Normal w'.cwd ∧ ∀ step ∈ steps, Normal step.before.cwd := by
  induction steps using List.reverseRecOn generalizing w' with
  | nil =>
    cases chain
    exact ⟨normal, nofun⟩
  | append_singleton steps last ih =>
    obtain ⟨m, begun, rfl, rfl⟩ := chain_append.mp chain
    obtain ⟨here, before⟩ := ih fits.first begun
    refine ⟨?_, List.forall_mem_append.mpr ⟨before, List.forall_mem_singleton.mpr here⟩⟩
    have fit := fits steps last [] rfl
    unfold Fits at fit
    split at fit
    · rwa [fit]
    · rename_i e _
      obtain ⟨led, -, own, made, sees, -⟩ := fit
      obtain ⟨step, held, same⟩ := List.mem_map.mp (sees.subset List.mem_cons_self)
      rw [led, Entrance.place, ← same]
      exact resolve_normal (before step (made.subset held)) e.path

/-! A session that is asked for one thing after the other. -/

/-- What a session can be asked for. -/
inductive Deed where
  | line (text : String)
  | tree (command : Command)
  /-- To make a directory the current one. -/
  | enter (path : String)

/-- Does what is asked for; the parts of a pipe run at the same time. -/
def Deed.run (sh : Shell) : Deed → Run Failure Unit
  | .line text => do let _ ← Concurrent.evaluateLine sh text
  | .tree command => do let _ ← Concurrent.evaluateTop sh command
  | .enter path => do let _ ← Run.mapError .io (Concurrent.enterDir path)

/-- The same in turn. -/
def Deed.runInTurn (sh : Shell) : Deed → Act Failure Unit
  | .line text => do let _ ← sh.evaluateLine text
  | .tree command => do let _ ← sh.evaluateTop command
  | .enter path => do let _ ← Act.mapError .io (Act.enterDir path)

/-- Something to be done, on streams of its own. -/
structure Request where
  deed : Deed
  streams : Streams

/-- A request may be met by these accesses, from one world to another, whether or not it fails. -/
def Request.Meets (sh : Shell) (r : Request) (w : World) (steps : List Step) (w' : World) : Prop :=
  (∃ result p', (r.deed.run sh).Does r.streams steps result p') ∧ Chain w steps w'

theorem covered_deed (sh : Shell) (deed : Deed) : Covered (deed.runInTurn sh) (deed.run sh) := by
  cases deed with
  | line text => exact covered_bind (covered_evaluateLine sh text) fun _ _ => covered_ofExcept _
  | tree command => exact covered_bind (covered_evaluateTop sh command) fun _ _ => covered_ofExcept _
  | enter path =>
    exact covered_bind (covered_mapError (covered_enterDir path)) fun _ _ => covered_ofExcept _

/-- A request that ends in turn can be met, with the same world at the end. -/
theorem meets_of_start {sh : Shell} {r : Request} {w : World} {s' : Session}
    {result : Except Failure Unit}
    (ran : (r.deed.runInTurn sh).start (r.streams.over w) = some (result, s')) :
    ∃ steps, r.Meets sh w steps s'.world := by
  obtain ⟨steps, chain, does⟩ := covered_deed sh r.deed ran
  exact ⟨steps, ⟨result, s'.streams, does⟩, chain⟩

/-- Requests may be met one after the other, from one world to another. -/
inductive MeetsAll (sh : Shell) : World → List Request → World → Prop where
  | nil (w : World) : MeetsAll sh w [] w
  | cons {w w₁ w' : World} {r : Request} {requests : List Request} {steps : List Step}
      (first : r.Meets sh w steps w₁) (rest : MeetsAll sh w₁ requests w') :
      MeetsAll sh w (r :: requests) w'

theorem fits_imp {By' : String → List Step → Prop} (weaker : ∀ path made, By path made → By' path made)
    (fits : Throughout (Fits By) steps) : Throughout (Fits By') steps := by
  intro past step later at_
  have fit := fits past step later at_
  unfold Fits at fit ⊢
  split
  · rename_i none
    rwa [none] at fit
  · rename_i e entered
    rw [entered] at fit
    obtain ⟨led, isDir, own, made, sees, by_⟩ := fit
    exact ⟨led, isDir, own, made, sees, weaker _ _ by_⟩

/-- A directory to be entered is entered, or nothing happens. -/
theorem enterDir_cases {path : String} {result : Except IoError Place}
    (does : (Concurrent.enterDir path).Does p steps result p') :
    (∃ seen found w₁ w₂ place, steps = { before := seen, after := seen } ::
        enteringSteps seen found w₁ w₂ path ∧ result = .ok place ∧
      found.disk.isDir (Path.resolve seen.cwd path) = true) ∨
    (∃ e, result = .error e) ∧ ∀ step ∈ steps, step.entered = none ∧ step.after = step.before := by
  obtain ⟨seen, later, rfl, does₁⟩ := view_cases does
  rw [Streams.world_over] at does₁
  rcases enterFrom_cases does₁ with ⟨found, w₁, w₂, rfl, done, isDir⟩ | ⟨found, e, rfl, rfl⟩
  · exact .inl ⟨seen, found, w₁, w₂, _, rfl, done, isDir⟩
  · exact .inr ⟨⟨e, rfl⟩, by simp⟩

/-- A directory is entered by a `cd`, or on request. -/
theorem request_fits {sh : Shell} {r : Request} {w w' : World} (met : r.Meets sh w steps w') :
    Throughout (Fits fun path made => ByCd path made ∨ r.deed = .enter path ∧ ByEntering path made)
      steps := by
  obtain ⟨deed, streams⟩ := r
  obtain ⟨⟨result, p', does⟩, -⟩ := met
  have ties := heeding_ties sh fun _ => True
  have good (command : Command) : AllGood (fun _ _ => True) sh sh.levels {} command :=
    allGood_of_forall (fun _ _ => trivial) _ _ _
  have of_evaluation (fits : Throughout (Fits ByCd) steps) :
      Throughout (Fits fun path made => ByCd path made ∨ deed = .enter path ∧ ByEntering path made)
        steps :=
    fits_imp (fun _ _ => .inl) fits
  cases deed with
  | line text =>
    obtain ⟨result, does⟩ := does_of_discard does
    exact of_evaluation (ties.evaluateLine (fun _ _ _ _ _ _ _ _ => trivial) (fun c _ => good c)
      (fun _ _ _ _ => trivial) _ _ _ _ does).1
  | tree command =>
    obtain ⟨result, does⟩ := does_of_discard does
    exact of_evaluation (ties.evaluateTop (fun _ _ _ _ _ _ _ _ => trivial) (good command)
      (fun _ _ => trivial) _ _ _ _ does).1
  | enter path =>
    obtain ⟨_, result, does, -⟩ := does_of_discard does
    rcases enterDir_cases does with ⟨seen, found, w₁, w₂, place, rfl, rfl, isDir⟩ | ⟨-, still⟩
    · refine throughout_entering [{ before := seen, after := seen }] ?_ List.mem_cons_self isDir
        (.inr ⟨rfl, _, place, _, does⟩)
      simp [Stays]
    · exact throughout_of_stay (stays_of_still still)

theorem normal_of_meets {sh : Shell} {r : Request} {w w' : World} (normal : Normal w.cwd)
    (met : r.Meets sh w steps w') : Normal w'.cwd :=
  (normal_of_chain (request_fits met) met.2 normal).1

theorem normal_of_meetsAll {sh : Shell} {requests : List Request} {w w' : World}
    (normal : Normal w.cwd) (met : MeetsAll sh w requests w') : Normal w'.cwd := by
  induction met with
  | nil => exact normal
  | cons first _ ih => exact ih (normal_of_meets normal first)

/-- The accesses of a stage that enters a directory. -/
def visiting (path : String) (w seen w₁ w₂ found w₃ w₄ w₅ w₆ : World) : List Step :=
  running ["cd", path] w ::
    (lookingSteps seen w₁ w₂ ++ enteringSteps seen found w₃ w₄ path ++ [still w₅, still w₆])

theorem visiting_does {sh : Shell} {run : RunningSubstitution} {path : String}
    (enabled : .cd ∈ sh.applications) (spelled : Spelled path) (flushes : p.output.flush = none)
    (w seen w₁ w₂ found w₃ w₄ w₅ w₆ : World)
    (reaches : w₁.disk.reaches (Path.resolve seen.cwd path) = true)
    (looked : w₂.disk.isDir (Path.resolve seen.cwd path) = true)
    (isDir : found.disk.isDir (Path.resolve seen.cwd path) = true) :
    (Concurrent.stage sh run ⟨["cd", path]⟩).Does p (visiting path w seen w₁ w₂ found w₃ w₄ w₅ w₆)
      (.ok .proceed) p := by
  have words : ∀ token ∈ ["cd", path], Spelled token := by
    simp only [List.forall_mem_cons, List.not_mem_nil, false_imp_iff, implies_true, and_true]
    exact ⟨by decide, spelled⟩
  have ran : (Concurrent.run .cd [path]).Does p _ (.ok .proceed) p :=
    cd_does seen w₁ w₂ spelled.filled reaches looked (enterFrom_does seen found w₃ w₄ p isDir)
  exact spelled_stage_does words (EchoLine.find?_name enabled) ran flushes w w₅ w₆

/-- At the root of a disk with a directory, and another both in it and beside it. -/
def nested : World := { disk := { entries := [(["a"], .dir), (["a", "b"], .dir), (["b"], .dir)] } }

/-- In the directory `a` of that disk. -/
def inside : World := { nested with cwd := ["a"], journal := [⟨.info, "cd /a"⟩] }

/-- One stage leaves the directory, the other enters one in it. -/
def crossed : List Call := [⟨["cd", ".."]⟩, ⟨["cd", "b"]⟩]

/-- The line has been read. -/
def lineRead : World :=
  (noting .debug ("parsed: " ++ (Command.sequence [.pipe crossed]).text) inside).after

/-- The second stage has asked for its application. -/
def asked : World := (running ["cd", "b"] lineRead).after

/-- The first stage has asked for its own. -/
def askedTwice : World := (running ["cd", ".."] asked).after

/-- The first stage is about to leave. -/
def leaving : World := (noting .info "cd /" askedTwice).after

/-- The first stage has left. -/
def outside : World := { leaving with cwd := [] }

/-- The second stage is about to enter what it saw its path lead to. -/
def entering : World := (noting .info "cd /a/b" outside).after

/-- The second stage has entered it. -/
def back : World := { entering with cwd := ["a", "b"] }

/-- The accesses of the first stage. -/
def leavingSteps : List Step :=
  visiting ".." asked askedTwice askedTwice askedTwice askedTwice askedTwice leaving outside outside

/-- The accesses of the second stage. -/
def backSteps : List Step :=
  visiting "b" lineRead asked outside outside outside outside entering back back

/-- The access by which the second stage enters it. -/
def returning : Step := { before := entering, after := back, entered := some ⟨"b", asked, outside⟩ }

/-- What goes before: the second stage sees its path, and then the first does all that it does. -/
def crossingSteps : List Step :=
  noting .debug ("parsed: " ++ (Command.sequence [.pipe crossed]).text) inside ::
    running ["cd", "b"] lineRead :: still asked ::
      (leavingSteps ++ [still outside, still outside, still outside, noting .info "cd /a/b" outside])

theorem crossed_do : (Concurrent.evaluateLine {} "cd .. | cd b").Does {}
    (crossingSteps ++ returning :: [still back, still back, still back]) (.ok .proceed) {} := by
  have parsed : Command.parse "cd .. | cd b" = .ok (.sequence [.pipe crossed]) :=
    PipedStages.parse_pipe (by simp [crossed]) (by decide) (by decide)
  have first : (Concurrent.stage {} (Concurrent.substitute {} 8) ⟨["cd", ".."]⟩).Does {} leavingSteps
      (.ok .proceed) {} :=
    visiting_does (by decide) (by decide +kernel) rfl _ _ _ _ _ _ _ _ _ (by decide +kernel)
      (by decide +kernel) (by decide +kernel)
  have second : (Concurrent.stage {} (Concurrent.substitute {} 8) ⟨["cd", "b"]⟩).Does {} backSteps
      (.ok .proceed) {} :=
    visiting_does (by decide) (by decide +kernel) rfl _ _ _ _ _ _ _ _ _ (by decide +kernel)
      (by decide +kernel) (by decide +kernel)
  have order : Interleaved leavingSteps backSteps _ := .right _ (.right _ (interleaved_append _ _))
  have staged : (Concurrent.stages {} (Concurrent.substitute {} 8) crossed).Does {} _
      (.ok [.ok .proceed, .ok .proceed]) {} := two_stages_do (p := {}) first second order
  have piped := pipe_does staged (settle_proceeds {})
  rw [List.append_nil] at piped
  have does := evaluateLine_does parsed inside piped rfl back
  rw [crossingSteps, List.cons_append, List.cons_append, List.cons_append, List.append_assoc]
  rwa [List.cons_append, List.cons_append, List.append_assoc] at does

theorem leaving_chain : Chain asked leavingSteps outside :=
  ⟨rfl, rfl, rfl, rfl, rfl, rfl, rfl, rfl, rfl, rfl⟩

theorem crossed_chain :
    Chain inside (crossingSteps ++ returning :: [still back, still back, still back]) back := by
  refine ⟨rfl, rfl, rfl, ?_⟩
  rw [List.append_eq, List.append_assoc]
  exact chain_append.mpr ⟨outside, leaving_chain, rfl, rfl, rfl, rfl, rfl, rfl, rfl, rfl, rfl⟩

end LineShell.SharedDirectory
