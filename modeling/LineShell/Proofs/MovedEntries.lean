import LineShell.Application.Mv
import LineShell.Proofs.RenamedEntries
import LineShell.Proofs.StepAgreement

/-! What `mv` does. Its sources are met one after the other, each on the disk that those
before it have left. A source that goes is renamed to its target; any other changes
nothing and is complained of or passed over, and the next one is met as if it had not
been there. -/
namespace LineShell.MovedEntries
open DenotedEntries DiskTrees PathNames RenamedEntries StepAgreement

/-- What the arguments ask for: the sources, the destination and whether it is a
directory, and whether what is there is kept. -/
structure Plan where
  keepOld : Bool
  sources : List String
  dest : Place
  intoDir : Bool

/-- Reads the arguments, or says what is wrong with them. -/
def plan (s : Session) (args : List String) : Except Complaint Plan :=
  match Options.parse "n".toList args with
  | .error c => .error c
  | .ok o =>
    match o.operands.reverse with
    | [] | [_] => .error .tooFewArguments
    | dest :: sources =>
      let p := Path.resolve s.cwd dest
      if 1 < sources.length && !s.disk.isDir p then .error (.notDirectory dest)
      else .ok ⟨o.has 'n', sources.reverse, p, s.disk.isDir p⟩

/-- The target of a source at the path `z`. -/
def Plan.target? (m : Plan) (z : Place) : Option Place := Cp.target? z m.dest m.intoDir

/-- What became of a source: it was moved from one place to another, it was left where it
is, or something was said against it. -/
inductive Fate where
  | moved (p q : Place)
  | left
  | refused (c : Complaint)

/-- A source, the disk that it was met on, and what became of it. -/
structure Deed where
  operand : String
  before : Disk
  fate : Fate

/-- What was said against the source. -/
def Deed.complaint? (deed : Deed) : Option Complaint :=
  match deed.fate with
  | .refused c => some c
  | .moved _ _ | .left => none

/-- How the source ended. -/
def Deed.ending (deed : Deed) : Except Complaint Unit :=
  match deed.complaint? with
  | some c => .error c
  | none => .ok ()

/-- The source at the path `z` goes from `p` to `q`; with `n` its target led nowhere. -/
structure Goes (m : Plan) (d : Disk) (z p q : Place) : Prop where
  intro ::
  moves : ∃ target e, m.target? z = some target ∧ Movable d z target p q e ∧
    (m.keepOld = true → d.reaches target = false)
  root : p ≠ []

/-- Why the source at the path `z` does not go anywhere. -/
inductive Stays (m : Plan) (d : Disk) (operand : String) (z : Place) : Fate → Prop where
  | missing (nothing : d.reaches z = false) : Stays m d operand z (.refused (.noSuchFile operand))
  | nameless (top : m.target? z = none) : Stays m d operand z (.refused (.cannotMove operand))
  | inside {target : Place} (aims : m.target? z = some target) (dir : d.isDir z = true)
      (below : z.covers target = true) : Stays m d operand z (.refused (.moveIntoItself operand))
  | failed {target : Place} {why : IoError} (aims : m.target? z = some target)
      (fails : d.rename z target = .error why) : Stays m d operand z (.refused (.io why))
  | there (aims : m.target? z = some z) : Stays m d operand z .left
  | kept {target : Place} (aims : m.target? z = some target) (asked : m.keepOld = true)
      (taken : d.reaches target = true) : Stays m d operand z .left
  | same {target : Place} (aims : m.target? z = some target) (one : OneEntry d z target) :
      Stays m d operand z .left
  | linked {target : Place} (aims : m.target? z = some target) (one : OneFile d z target) :
      Stays m d operand z .left

/-- Sources met one after the other, from one disk to another. -/
inductive InTurn (m : Plan) (cwd : Place) : Disk → List Deed → Disk → Prop where
  | done (d : Disk) : InTurn m cwd d [] d
  | moved {d d₁ d' : Disk} {operand : String} {p q : Place} {deeds : List Deed}
      (goes : Goes m d (Path.resolve cwd operand) p q) (relocated : Relocated d p q d₁)
      (later : InTurn m cwd d₁ deeds d') : InTurn m cwd d (⟨operand, d, .moved p q⟩ :: deeds) d'
  | stayed {d d' : Disk} {operand : String} {fate : Fate} {deeds : List Deed}
      (stays : Stays m d operand (Path.resolve cwd operand) fate)
      (later : InTurn m cwd d deeds d') : InTurn m cwd d (⟨operand, d, fate⟩ :: deeds) d'

/-- The sources among the arguments are met in turn; if the arguments are refused, none is. -/
def Meets (s : Session) (args : List String) (deeds : List Deed) (d' : Disk) : Prop :=
  match plan s args with
  | .error _ => deeds = [] ∧ d' = s.disk
  | .ok m => deeds.map Deed.operand = m.sources ∧ InTurn m s.cwd s.disk deeds d'

/-- What `mv` ends with: a complaint about its arguments, or the first about a source. -/
def lastWord (s : Session) (args : List String) (deeds : List Deed) : Except Complaint Outcome :=
  match plan s args with
  | .error c => .error c
  | .ok _ =>
    match deeds.findSome? Deed.complaint? with
    | some c => .error c
    | none => .ok .proceed

variable {m : Plan} {d d₁ : Disk} {z target p q : Place} {s : Session} {args : List String}

/-! One source. -/

theorem target?_normal (normal : Normal z) (proper : Normal m.dest)
    (aims : m.target? z = some target) : Normal target := by
  unfold Plan.target? Cp.target? at aims
  split at aims
  · obtain ⟨name, last, rfl⟩ := Option.map_eq_some_iff.mp aims
    apply ResolvedPaths.normal_append.mpr
    refine ⟨proper, ?_⟩
    intro other member
    rw [List.mem_singleton.mp member]
    exact normal name (List.mem_of_getLast? last)
  · cases aims
    exact proper

/-- A source is moved, or it stays and nothing happens. -/
theorem start_moveOne (normal : Normal s.cwd) (nested : Nested s.disk) (proper : Normal m.dest)
    (operand : String) :
    (∃ p q, (Mv.moveOne m.keepOld m.dest m.intoDir operand).start s =
        some (.ok (), { s with disk := s.disk.relocate p q }) ∧
      Goes m s.disk (Path.resolve s.cwd operand) p q ∧
      Relocated s.disk p q (s.disk.relocate p q)) ∨
    ∃ fate, (Mv.moveOne m.keepOld m.dest m.intoDir operand).start s =
        some (Deed.ending ⟨operand, s.disk, fate⟩, s) ∧
      Stays m s.disk operand (Path.resolve s.cwd operand) fate := by
  simp only [Mv.moveOne, start_bind, start_resolve, start_view]
  have path := resolve_normal normal operand
  generalize Path.resolve s.cwd operand = z at path
  cases reaches : s.disk.reaches z with
  | false => exact .inr ⟨_, rfl, .missing reaches⟩
  | true =>
    rw [if_neg (by simp)]
    cases aims : Cp.target? z m.dest m.intoDir with
    | none => exact .inr ⟨_, rfl, .nameless aims⟩
    | some target =>
      dsimp only
      by_cases there : target = z
      · subst there
        rw [if_pos rfl]
        exact .inr ⟨.left, rfl, .there aims⟩
      rw [if_neg there]
      by_cases inside : s.disk.isDir z && z.covers target
      · rw [if_pos inside]
        obtain ⟨dir, below⟩ := Bool.and_eq_true_iff.mp inside
        exact .inr ⟨.refused (.moveIntoItself operand), rfl, .inside aims dir below⟩
      rw [if_neg inside]
      by_cases kept : m.keepOld && s.disk.reaches target
      · rw [if_pos kept]
        obtain ⟨asked, taken⟩ := Bool.and_eq_true_iff.mp kept
        exact .inr ⟨.left, rfl, .kept aims asked taken⟩
      rw [if_neg kept, start_onDisk]
      have spares (asked : m.keepOld = true) : s.disk.reaches target = false := by
        simpa [asked] using kept
      have ends := rename_ends nested path (target?_normal path proper aims)
      generalize known : s.disk.rename z target = ended at ends
      cases ends with
      | @moves p q e root may =>
        exact .inl ⟨p, q, rfl, ⟨⟨target, e, aims, may, spares⟩, root⟩, may.relocated nested root⟩
      | same one => exact .inr ⟨.left, rfl, .same aims one⟩
      | linked one => exact .inr ⟨.left, rfl, .linked aims one⟩
      | fails why => exact .inr ⟨.refused (.io why), rfl, .failed aims known⟩

theorem Goes.nested (goes : Goes m d z p q) (moved : Relocated d p q d₁) (nested : Nested d) :
    Nested d₁ := by
  obtain ⟨_, _, -, may, -⟩ := goes.moves
  exact may.nested moved nested

/-! All sources. -/

theorem start_forEach (normal : Normal s.cwd) (nested : Nested s.disk) (proper : Normal m.dest)
    (operands : List String) :
    ∃ deeds d', (Job.forEach (Mv.moveOne m.keepOld m.dest m.intoDir) operands).start s =
        some (.ok (deeds.map Deed.ending), { s with disk := d' }) ∧
      deeds.map Deed.operand = operands ∧ InTurn m s.cwd s.disk deeds d' := by
  induction operands generalizing s with
  | nil => exact ⟨[], s.disk, rfl, rfl, .done s.disk⟩
  | cons operand operands ih =>
    rcases start_moveOne normal nested proper operand with
      ⟨p, q, ran, goes, moved⟩ | ⟨fate, ran, stays⟩
    · obtain ⟨deeds, d', rest, named, later⟩ :=
        ih (s := { s with disk := s.disk.relocate p q }) normal (goes.nested moved nested)
      refine ⟨⟨operand, s.disk, .moved p q⟩ :: deeds, d', ?_, by simp [named],
        .moved goes moved later⟩
      simp only [Job.forEach, start_bind, start_attempt, ran, Option.map_some, rest]
      rfl
    · obtain ⟨deeds, d', rest, named, later⟩ := ih normal nested
      refine ⟨⟨operand, s.disk, fate⟩ :: deeds, d', ?_, by simp [named], .stayed stays later⟩
      simp only [Job.forEach, start_bind, start_attempt, ran, Option.map_some, rest]
      rfl

theorem firstComplaint?_endings (deeds : List Deed) :
    Job.firstComplaint? (deeds.map Deed.ending) = deeds.findSome? Deed.complaint? := by
  induction deeds with
  | nil => rfl
  | cons deed deeds ih =>
    obtain ⟨operand, before, _ | _ | _⟩ := deed
    · exact ih
    · exact ih
    · rfl

theorem start_run (s : Session) (args : List String) : (Mv.run args).start s =
    match plan s args with
    | .error c => some (.error c, s)
    | .ok m => (Job.forEach (Mv.moveOne m.keepOld m.dest m.intoDir) m.sources >>= fun results =>
        Job.settle (Job.firstComplaint? results)).start s := by
  unfold plan
  simp only [Mv.run, Job.options, start_bind, start_ofExcept]
  cases Options.parse "n".toList args with
  | error c => rfl
  | ok o =>
    dsimp only
    rcases o.operands.reverse with _ | ⟨dest, _ | ⟨source, sources⟩⟩
    · rfl
    · rfl
    · simp only [start_bind, start_resolve, start_view]
      by_cases several : 1 < (source :: sources).length && !s.disk.isDir (Path.resolve s.cwd dest)
      · rw [if_pos several, if_pos several]
        rfl
      · rw [if_neg several, if_neg several]
        exact start_bind _ _ _

theorem plan_normal (normal : Normal s.cwd) (planned : plan s args = .ok m) : Normal m.dest := by
  unfold plan at planned
  split at planned
  · cases planned
  · split at planned
    · cases planned
    · cases planned
    · dsimp only at planned
      split at planned
      · cases planned
      · cases planned
        exact resolve_normal normal _

theorem start_mv (normal : Normal s.cwd) (nested : Nested s.disk) (args : List String) :
    ∃ deeds d', (Mv.run args).start s = some (lastWord s args deeds, { s with disk := d' }) ∧
      Meets s args deeds d' := by
  rw [start_run]
  unfold lastWord Meets
  cases planned : plan s args with
  | error c => exact ⟨[], s.disk, rfl, rfl, rfl⟩
  | ok m =>
    obtain ⟨deeds, d', ran, named, inTurn⟩ :=
      start_forEach normal nested (plan_normal normal planned) m.sources
    refine ⟨deeds, d', ?_, named, inTurn⟩
    dsimp only
    rw [start_bind, ran]
    dsimp only
    rw [firstComplaint?_endings]
    cases deeds.findSome? Deed.complaint? with
    | none => rfl
    | some c => rfl

end LineShell.MovedEntries
