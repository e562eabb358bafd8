import LineShell.Application.Rm
import LineShell.Proofs.DenotedEntries
import LineShell.Proofs.ExtendedPaths
import LineShell.Proofs.StepAgreement

/-! What `rm` removes. Its operands are met one after the other, each on the disk that
those before it have left. An operand that may be removed takes the entry that it
denotes, with everything below; one that may not changes nothing, and the others are
met as if it were not there. So the entries that go are those at and below the places
of the operands that were removed, and all others stay as they were. -/
namespace LineShell.RemovedEntries
open DenotedEntries DiskTrees PathNames StepAgreement WalkedPaths

/-- Nothing stands directly in the place. -/
def Bare (d : Disk) (q : Place) : Prop := ∀ name, d.entry? (q ++ [name]) = none

/-- The operand denotes the entry `e` at `q`, and that may be removed: a directory only
if the session's directory is not seen to lie in it, and only with `r`, or with `d` if
it is empty. -/
structure Removable (o : Options) (d : Disk) (cwd : Place) (operand : String) (q : Place)
    (e : Entry) : Prop where
  denotes : Denotes d (Path.resolve cwd operand) q e
  outside : e = .dir → (Path.resolve cwd operand).covers cwd = false
  asked : e = .dir → o.has 'r' = true ∨ o.has 'd' = true ∧ Bare d q

/-- Why an operand is not removed, and what is said of it. -/
inductive Refused (o : Options) (d : Disk) (cwd : Place) (operand : String) : Complaint → Prop where
  | missing (none : ∀ q e, ¬Denotes d (Path.resolve cwd operand) q e) :
      Refused o d cwd operand (.noSuchFile operand)
  | session {q} (denotes : Denotes d (Path.resolve cwd operand) q .dir)
      (inside : (Path.resolve cwd operand).covers cwd = true) :
      Refused o d cwd operand (.holdsSession operand)
  | directory {q} (denotes : Denotes d (Path.resolve cwd operand) q .dir)
      (outside : (Path.resolve cwd operand).covers cwd = false) (flat : o.has 'r' = false)
      (unasked : o.has 'd' = false) : Refused o d cwd operand (.isDirectory operand)
  | full {q} (denotes : Denotes d (Path.resolve cwd operand) q .dir)
      (outside : (Path.resolve cwd operand).covers cwd = false) (flat : o.has 'r' = false)
      (asked : o.has 'd' = true) (holds : ¬Bare d q) : Refused o d cwd operand (.notEmpty operand)

/-- The disk `d₁` is `d` without the entries at and below `q`. -/
structure Without (d : Disk) (q : Place) (d₁ : Disk) : Prop where
  entries : ∀ p, d₁.entry? p = if q.covers p then none else d.entry? p
  contents : d₁.contents = d.contents

/-- What became of an operand: the place it was removed from, or what was said of it. -/
structure Deed where
  operand : String
  result : Except Complaint Place

/-- How the operand ended. -/
def Deed.ending (deed : Deed) : Except Complaint Unit := deed.result.map fun _ => ()

/-- What was said of the operand, if it was not removed. -/
def Deed.complaint? (deed : Deed) : Option Complaint :=
  match deed.result with
  | .ok _ => none
  | .error c => some c

/-- The places that operands were removed from. -/
def taken (deeds : List Deed) : List Place := deeds.filterMap (·.result.toOption)

/-- Operands met one after the other, from one disk to another. -/
inductive InTurn (o : Options) (cwd : Place) : Disk → List Deed → Disk → Prop where
  | done (d : Disk) : InTurn o cwd d [] d
  | removed {d d₁ d' operand q e deeds} (may : Removable o d cwd operand q e)
      (without : Without d q d₁) (later : InTurn o cwd d₁ deeds d') :
      InTurn o cwd d (⟨operand, .ok q⟩ :: deeds) d'
  | refused {d d' operand c deeds} (why : Refused o d cwd operand c)
      (later : InTurn o cwd d deeds d') : InTurn o cwd d (⟨operand, .error c⟩ :: deeds) d'

/-- The operands among the arguments are met in turn; if the flags are refused, none is. -/
def Meets (args : List String) (cwd : Place) (d : Disk) (deeds : List Deed) (d' : Disk) : Prop :=
  match Options.parse "rd".toList args with
  | .error _ => deeds = [] ∧ d' = d
  | .ok o => deeds.map Deed.operand = o.operands ∧ InTurn o cwd d deeds d'

/-- What `rm` ends with: a complaint about its arguments, or the first about an operand. -/
def lastWord (args : List String) (deeds : List Deed) : Except Complaint Outcome :=
  match Options.parse "rd".toList args with
  | .error c => .error c
  | .ok o =>
    if o.operands = [] then .error .tooFewArguments
    else match deeds.findSome? Deed.complaint? with
      | some c => .error c
      | none => .ok .proceed

variable {o : Options} {d d₁ d' : Disk} {cwd p q : Place} {operand : String} {e : Entry}
  {s : Session} {deeds : List Deed}

/-! One entry less. -/

theorem bare_iff : Bare d q ↔ (d.children q).isEmpty = true := by
  rw [List.isEmpty_iff, List.eq_nil_iff_forall_not_mem, Bare]
  simp [ExtendedPaths.mem_children]

theorem Removable.root (may : Removable o d cwd operand q e) : q ≠ [] := by
  intro top
  have path := may.denotes.root_iff.mp top
  have dir : e = .dir := by
    have held := may.denotes.held
    rw [top, entry?_nil] at held
    exact (Option.some.inj held).symm
  have outside := may.outside dir
  rw [path] at outside
  cases outside

theorem without_erase (nested : Nested d) (root : q ≠ []) (bare : Bare d q) :
    Without d q (d.erase q) where
  entries p := by
    rw [entry?_erase root]
    by_cases here : p = q
    · rw [if_pos here, if_pos (here ▸ covers_self p)]
    · rw [if_neg here]
      cases covers : q.covers p with
      | false => rfl
      | true =>
        -- The first name below `q` would stand in it.
        obtain ⟨rest, rfl⟩ := covers_iff.mp covers
        obtain ⟨name, rest, rfl⟩ := List.exists_cons_of_ne_nil
          (show rest ≠ [] by rintro rfl; simp at here)
        by_contra held
        have below : d.entry? (q ++ [name] ++ rest) ≠ none := by simpa using held
        by_cases last : rest = []
        · subst last
          exact below (by simpa using bare name)
        · have parent := nested.above below last
          rw [bare name] at parent
          cases parent
  contents := rfl

theorem without_eraseTree (root : q ≠ []) : Without d q (d.eraseTree q) where
  entries := entry?_eraseTree root
  contents := rfl

theorem bare_of_nested (nested : Nested d) (held : d.entry? q = some e) (other : e ≠ .dir) :
    Bare d q := fun name => by
  by_contra there
  rw [nested q name there] at held
  exact other (Option.some.inj held).symm

theorem Without.nested (without : Without d q d₁) (nested : Nested d) : Nested d₁ := by
  intro p name held
  rw [without.entries] at held ⊢
  cases covers : q.covers p with
  | true => simp [covers_trans covers (covers_append p [name])] at held
  | false =>
    split at held
    · exact absurd rfl held
    · rw [if_neg Bool.false_ne_true]
      exact nested p name held

theorem Without.looks (without : Without d q d₁) (p : Place) :
    look? d₁ p = if q.covers p then none else look? d p := by
  rw [look?, without.entries, look?, lookOf_congr without.contents]
  split <;> rfl

/-! One operand. -/

/-- What is not a directory is removed, whatever the flags. -/
theorem start_removeOne_other (nested : Nested s.disk)
    (found : Disk.require (s.disk.locate false (Path.resolve s.cwd operand)) = .ok (q, e))
    (denotes : Denotes s.disk (Path.resolve s.cwd operand) q e) (other : e ≠ .dir) :
    (Rm.removeOne (o.has 'r') (o.has 'd') operand).start s =
        some (.ok (), { s with disk := s.disk.erase q }) ∧
      Removable o s.disk s.cwd operand q e ∧ Without s.disk q (s.disk.erase q) := by
  have may : Removable o s.disk s.cwd operand q e :=
    ⟨denotes, fun same => absurd same other, fun same => absurd same other⟩
  have gone : s.disk.unlink (Path.resolve s.cwd operand) = .ok (s.disk.erase q) := by
    rw [Disk.unlink, found]
    cases e with
    | dir => exact absurd rfl other
    | file id | link target => rfl
  refine ⟨?_, may, without_erase nested may.root (bare_of_nested nested denotes.held other)⟩
  simp only [Rm.removeOne, start_bind, start_resolve, start_view, found]
  cases e with
  | dir => exact absurd rfl other
  | file id | link target =>
    dsimp only
    rw [start_onDisk, gone]

/-- A directory is removed as the flags allow, or it is said why not. -/
theorem start_removeOne_dir (nested : Nested s.disk)
    (found : Disk.require (s.disk.locate false (Path.resolve s.cwd operand)) = .ok (q, .dir))
    (denotes : Denotes s.disk (Path.resolve s.cwd operand) q .dir) :
    (∃ d₁, (Rm.removeOne (o.has 'r') (o.has 'd') operand).start s =
        some (.ok (), { s with disk := d₁ }) ∧
      Removable o s.disk s.cwd operand q .dir ∧ Without s.disk q d₁) ∨
    ∃ c, (Rm.removeOne (o.has 'r') (o.has 'd') operand).start s = some (.error c, s) ∧
      Refused o s.disk s.cwd operand c := by
  simp only [Rm.removeOne, start_bind, start_resolve, start_view, found]
  cases inside : (Path.resolve s.cwd operand).covers s.cwd with
  | true => exact .inr ⟨_, rfl, .session denotes inside⟩
  | false =>
    rw [if_neg Bool.false_ne_true]
    cases recursive : o.has 'r' with
    | true =>
      have may : Removable o s.disk s.cwd operand q .dir :=
        ⟨denotes, fun _ => inside, fun _ => .inl recursive⟩
      refine .inl ⟨s.disk.eraseTree q, ?_, may, without_eraseTree may.root⟩
      rw [if_pos rfl, start_onDisk, Disk.removeTree, found]
      rfl
    | false =>
      cases asked : o.has 'd' with
      | false => exact .inr ⟨_, rfl, .directory denotes inside recursive asked⟩
      | true =>
        rw [if_neg Bool.false_ne_true, if_pos rfl, start_onDisk, Disk.removeDir, found]
        by_cases bare : Bare s.disk q
        · have may : Removable o s.disk s.cwd operand q .dir :=
            ⟨denotes, fun _ => inside, fun _ => .inr ⟨asked, bare⟩⟩
          refine .inl ⟨s.disk.erase q, ?_, may, without_erase nested may.root bare⟩
          simp [bind, Except.bind, bare_iff.mp bare]
        · refine .inr ⟨_, ?_, .full denotes inside recursive asked bare⟩
          simp [bind, Except.bind, mt bare_iff.mpr bare]

/-- An operand is removed and its entry goes, or it is refused and nothing happens. -/
theorem start_removeOne (normal : Normal s.cwd) (nested : Nested s.disk) (operand : String) :
    (∃ q e d₁, (Rm.removeOne (o.has 'r') (o.has 'd') operand).start s =
        some (.ok (), { s with disk := d₁ }) ∧
      Removable o s.disk s.cwd operand q e ∧ Without s.disk q d₁) ∨
    ∃ c, (Rm.removeOne (o.has 'r') (o.has 'd') operand).start s = some (.error c, s) ∧
      Refused o s.disk s.cwd operand c := by
  rcases require_cases (resolve_normal normal operand) s.disk with
    ⟨q, e, found, denotes⟩ | ⟨⟨why, found⟩, none⟩
  · by_cases dir : e = .dir
    · subst dir
      rcases start_removeOne_dir nested found denotes with removed | refused
      · exact .inl ⟨q, .dir, removed⟩
      · exact .inr refused
    · exact .inl ⟨q, e, _, start_removeOne_other nested found denotes dir⟩
  · refine .inr ⟨_, ?_, .missing none⟩
    simp only [Rm.removeOne, start_bind, start_resolve, start_view, found]
    rfl

/-! All operands. -/

theorem start_forEach (normal : Normal s.cwd) (nested : Nested s.disk) (operands : List String) :
    ∃ deeds d', (Job.forEach (Rm.removeOne (o.has 'r') (o.has 'd')) operands).start s =
        some (.ok (deeds.map Deed.ending), { s with disk := d' }) ∧
      deeds.map Deed.operand = operands ∧ InTurn o s.cwd s.disk deeds d' := by
  induction operands generalizing s with
  | nil => exact ⟨[], s.disk, rfl, rfl, .done s.disk⟩
  | cons operand operands ih =>
    rcases start_removeOne (o := o) normal nested operand with
      ⟨q, e, d₁, ran, may, without⟩ | ⟨c, ran, why⟩
    · obtain ⟨deeds, d', rest, named, later⟩ :=
        ih (s := { s with disk := d₁ }) normal (without.nested nested)
      refine ⟨⟨operand, .ok q⟩ :: deeds, d', ?_, by simp [named], .removed may without later⟩
      simp only [Job.forEach, start_bind, start_attempt, ran, Option.map_some, rest]
      rfl
    · obtain ⟨deeds, d', rest, named, later⟩ := ih normal nested
      refine ⟨⟨operand, .error c⟩ :: deeds, d', ?_, by simp [named], .refused why later⟩
      simp only [Job.forEach, start_bind, start_attempt, ran, Option.map_some, rest]
      rfl

theorem firstComplaint?_endings (deeds : List Deed) :
    Job.firstComplaint? (deeds.map Deed.ending) = deeds.findSome? Deed.complaint? := by
  induction deeds with
  | nil => rfl
  | cons deed deeds ih =>
    obtain ⟨operand, _ | _⟩ := deed
    · rfl
    · exact ih

theorem start_rm (normal : Normal s.cwd) (nested : Nested s.disk) (args : List String) :
    ∃ deeds d', (Rm.run args).start s = some (lastWord args deeds, { s with disk := d' }) ∧
      Meets args s.cwd s.disk deeds d' := by
  simp only [Rm.run, Job.options, start_bind, start_ofExcept, lastWord, Meets]
  cases Options.parse "rd".toList args with
  | error c => exact ⟨[], s.disk, rfl, rfl, rfl⟩
  | ok o =>
    dsimp only
    by_cases none : o.operands = []
    · rw [none]
      exact ⟨[], s.disk, rfl, rfl, .done s.disk⟩
    · obtain ⟨deeds, d', ran, named, inTurn⟩ := start_forEach (o := o) normal nested o.operands
      refine ⟨deeds, d', ?_, named, inTurn⟩
      rw [if_neg (by simpa using none), start_bind, ran, if_neg none]
      dsimp only
      rw [firstComplaint?_endings]
      cases deeds.findSome? Deed.complaint? <;> rfl

theorem InTurn.looks (inTurn : InTurn o cwd d deeds d') (p : Place) :
    look? d' p = if (taken deeds).any (·.covers p) then none else look? d p := by
  induction inTurn with
  | done d => rfl
  | @removed d d₁ d' operand q e deeds _ without _ ih =>
    have here : taken (⟨operand, .ok q⟩ :: deeds) = q :: taken deeds := rfl
    rw [ih, without.looks, here, List.any_cons]
    cases q.covers p <;> simp
  | refused _ _ ih => exact ih

theorem Meets.looks {args : List String} (meets : Meets args cwd d deeds d') (p : Place) :
    look? d' p = if (taken deeds).any (·.covers p) then none else look? d p := by
  unfold Meets at meets
  split at meets
  · obtain ⟨rfl, rfl⟩ := meets
    rfl
  · exact meets.2.looks p

theorem Without.within (without : Without d q d₁) : Within d₁ d := by
  intro p e held
  rw [without.entries] at held
  split at held
  · cases held
  · exact held

theorem InTurn.within (inTurn : InTurn o cwd d deeds d') : Within d' d := by
  induction inTurn with
  | done d => exact fun _ _ held => held
  | removed _ without _ ih => exact fun p e held => without.within p e (ih p e held)
  | refused _ _ ih => exact ih

theorem Meets.within {args : List String} (meets : Meets args cwd d deeds d') : Within d' d := by
  unfold Meets at meets
  split at meets
  · obtain ⟨-, rfl⟩ := meets
    exact fun _ _ held => held
  · exact meets.2.within

/-- `rm` meets its operands in turn, each on the disk that those before it have left,
and ends with the first complaint. The places of the operands that were removed, and all
below them, show nothing afterwards; every other place shows what it did, and nothing
but the disk has changed. -/
theorem operands_are_removed_in_turn (args : List String) (s : Session) (normal : Normal s.cwd)
    (nested : Nested s.disk) :
    ∃ deeds d', (Rm.run args).start s = some (lastWord args deeds, { s with disk := d' }) ∧
      Meets args s.cwd s.disk deeds d' ∧
      ∀ p, look? d' p = if (taken deeds).any (·.covers p) then none else look? s.disk p := by
  obtain ⟨deeds, d', ran, meets⟩ := start_rm normal nested args
  exact ⟨deeds, d', ran, meets, meets.looks⟩

/-- A file in a directory, a link to that directory, and another file. -/
def attic : Session where
  disk :=
    { entries := [(["a"], .dir), (["a", "f"], .file 0), (["k"], .file 1), (["l"], .link "a")]
      contents := [Text.bytes "x", Text.bytes "y"] }

/-- The attic with nothing but the other file. -/
def sweptDisk : Disk := { attic.disk with entries := [(["k"], .file 1)] }

/-- A file is removed through the link, and so the directory, empty by then, and the
link itself can be removed after it; a name that leads nowhere is complained of. -/
theorem emptied_directory_and_link_are_removed :
    Normal attic.cwd ∧ Nested attic.disk ∧
    ∃ deeds, (Rm.run ["-d", "l/f", "ghost", "a", "l"]).start attic =
        some (.error (.noSuchFile "ghost"), { attic with disk := sweptDisk }) ∧
      Meets ["-d", "l/f", "ghost", "a", "l"] attic.cwd attic.disk deeds sweptDisk ∧
      lastWord ["-d", "l/f", "ghost", "a", "l"] deeds = .error (.noSuchFile "ghost") ∧
      ∀ p, look? sweptDisk p =
        if (taken deeds).any (·.covers p) then none else look? attic.disk p := by
  have root : Normal attic.cwd := ResolvedPaths.normal_nil
  have nested : Nested attic.disk := by decide
  have known : (Rm.run ["-d", "l/f", "ghost", "a", "l"]).start attic =
      some (.error (.noSuchFile "ghost"), { attic with disk := sweptDisk }) := by decide +kernel
  obtain ⟨deeds, d', ran, meets, looks⟩ :=
    operands_are_removed_in_turn ["-d", "l/f", "ghost", "a", "l"] attic root nested
  obtain ⟨ended, same⟩ := Prod.mk.inj (Option.some.inj (ran.symm.trans known))
  obtain rfl : d' = sweptDisk := congrArg Session.disk same
  exact ⟨root, nested, deeds, known, meets, ended, looks⟩

end LineShell.RemovedEntries
