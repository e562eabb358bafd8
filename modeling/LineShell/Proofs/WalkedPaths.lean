import Mathlib.Data.List.Induction
import LineShell.Disk.Locate

/-! Walks taken apart. A walk that goes on after some names has first been led into
a directory by them, and goes on from there with the links that are left. So a walk
can be put together from its parts, and a `.` on the way can be left out. -/
namespace LineShell.WalkedPaths

/-- What a walk looks up in a directory: neither `.` nor `..`, and not too long. -/
structure Sought (name : String) : Prop where
  notHere : name ≠ "."
  notUp : name ≠ ".."
  short : name.utf8ByteSize ≤ Disk.nameLimit

/-- From directory `dir` the names lead into another one, with links on the way
followed. The numbers say how many links may still be followed, before and after. -/
inductive Leads (d : Disk) : Nat → Place → List String → Nat → Place → Prop where
  | here {links dir} : Leads d links dir [] links dir
  | stay {links dir names links' p} (rest : Leads d links dir names links' p) :
      Leads d links dir ("." :: names) links' p
  | up {links dir names links' p} (rest : Leads d links dir.dropLast names links' p) :
      Leads d links dir (".." :: names) links' p
  | down {links dir name names links' p} (sought : Sought name)
      (found : d.entry? (dir ++ [name]) = some .dir)
      (rest : Leads d links (dir ++ [name]) names links' p) :
      Leads d links dir (name :: names) links' p
  | link {links dir name target names links' p} (sought : Sought name)
      (found : d.entry? (dir ++ [name]) = some (.link target))
      (rest : Leads d links (if Path.isRooted target then [] else dir)
        (Disk.steps target ++ names) links' p) :
      Leads d (links + 1) dir (name :: names) links' p

/-- From directory `dir` the names lead to an entry, with a link at the end not
followed. -/
def Held (d : Disk) (links : Nat) (dir : Place) (names : List String) : Prop :=
  ∃ p e, d.walk false links dir names = .ok (.found p e)

/-- How a walk that ends well goes past its first name. -/
inductive Passes (d : Disk) (follow : Bool) (spot : Spot) : Nat → Place → String → List String → Prop
    where
  | stay {links dir names} (onwards : d.walk follow links dir names = .ok spot) :
      Passes d follow spot links dir "." names
  | up {links dir names} (onwards : d.walk follow links dir.dropLast names = .ok spot) :
      Passes d follow spot links dir ".." names
  | down {links dir name names} (sought : Sought name)
      (found : d.entry? (dir ++ [name]) = some .dir)
      (onwards : d.walk follow links (dir ++ [name]) names = .ok spot) :
      Passes d follow spot links dir name names
  | link {links dir name target names} (sought : Sought name)
      (found : d.entry? (dir ++ [name]) = some (.link target))
      (onwards : d.walk follow links (if Path.isRooted target then [] else dir)
        (Disk.steps target ++ names) = .ok spot) :
      Passes d follow spot (links + 1) dir name names
  | last {links dir name e} (sought : Sought name) (found : d.entry? (dir ++ [name]) = some e)
      (other : e ≠ .dir) (ends : spot = .found (dir ++ [name]) e) :
      Passes d follow spot links dir name []
  | free {links dir name} (ends : spot = .free (dir ++ [name])) :
      Passes d follow spot links dir name []

/-- The second list is the first without some of its names `.`. -/
inductive Undotted : List String → List String → Prop where
  | nil : Undotted [] []
  | keep {xs ys} (x : String) (rest : Undotted xs ys) : Undotted (x :: xs) (x :: ys)
  | drop {xs ys} (rest : Undotted xs ys) : Undotted ("." :: xs) ys

variable {d : Disk} {follow : Bool} {links links' links₁ : Nat} {dir p q : Place} {name : String}
  {names rest xs ys zs : List String} {spot : Spot}

theorem require_eq_ok_iff {spot : Except IoError Spot} {e : Entry} :
    Disk.require spot = .ok (p, e) ↔ spot = .ok (.found p e) := by
  cases spot with
  | error e => simp [Disk.require]
  | ok spot => cases spot <;> simp [Disk.require]

/-! What a walk can meet. -/

theorem stride_sought (sought : Sought name) :
    d.stride follow dir (name :: names) =
      match d.entry? (dir ++ [name]) with
      | none => if names.isEmpty then .ends (.free (dir ++ [name])) else .fails .notFound
      | some .dir => d.stride follow (dir ++ [name]) names
      | some (.file id) =>
        if names.isEmpty then .ends (.found (dir ++ [name]) (.file id)) else .fails .notDirectory
      | some (.link target) =>
        if names.isEmpty && !follow then .ends (.found (dir ++ [name]) (.link target))
        else .follows dir target names :=
  (if_neg sought.notHere).trans
    ((if_neg sought.notUp).trans (if_neg (Nat.not_lt.mpr sought.short)))

theorem walk_congr (same : d.stride follow dir xs = d.stride follow p ys) :
    d.walk follow links dir xs = d.walk follow links p ys := by
  conv_lhs => unfold Disk.walk
  conv_rhs => unfold Disk.walk
  rw [same]

theorem walk_nil : d.walk follow links dir [] = .ok (.found dir .dir) := by
  unfold Disk.walk
  rfl

theorem walk_stay : d.walk follow links dir ("." :: names) = d.walk follow links dir names :=
  walk_congr (by rw [Disk.stride, if_pos rfl])

theorem walk_up :
    d.walk follow links dir (".." :: names) = d.walk follow links dir.dropLast names :=
  walk_congr (by rw [Disk.stride, if_neg (by decide), if_pos rfl])

theorem walk_down (sought : Sought name) (found : d.entry? (dir ++ [name]) = some .dir) :
    d.walk follow links dir (name :: names) = d.walk follow links (dir ++ [name]) names :=
  walk_congr (by rw [stride_sought sought, found])

theorem walk_link {target : String} (sought : Sought name)
    (found : d.entry? (dir ++ [name]) = some (.link target)) (goesOn : names ≠ [] ∨ follow = true) :
    d.walk follow (links + 1) dir (name :: names) =
      d.walk follow links (if Path.isRooted target then [] else dir)
        (Disk.steps target ++ names) := by
  have next : d.stride follow dir (name :: names) = .follows dir target names := by
    rw [stride_sought sought, found]
    rcases goesOn with some | follows <;> simp [*]
  rw [Disk.walk, next]

theorem walk_one {e : Entry} (sought : Sought name) (found : d.entry? (dir ++ [name]) = some e) :
    d.walk false links dir [name] = .ok (.found (dir ++ [name]) e) := by
  have next : d.stride false dir [name] = .ends (.found (dir ++ [name]) e) := by
    rw [stride_sought sought, found]
    cases e <;> rfl
  unfold Disk.walk
  rw [next]

theorem passes_of_walk (ran : d.walk follow links dir (name :: names) = .ok spot) :
    Passes d follow spot links dir name names := by
  by_cases here : name = "."
  · subst here
    exact .stay (walk_stay.symm.trans ran)
  by_cases up : name = ".."
  · subst up
    exact .up (walk_up.symm.trans ran)
  by_cases long : Disk.nameLimit < name.utf8ByteSize
  · rw [Disk.walk, Disk.stride, if_neg here, if_neg up, if_pos long] at ran
    cases ran
  have sought : Sought name := ⟨here, up, Nat.not_lt.mp long⟩
  have next := @stride_sought d follow dir name names sought
  cases found : d.entry? (dir ++ [name]) with
  | none =>
    rw [Disk.walk, next, found] at ran
    cases names <;> cases ran
    exact .free rfl
  | some e =>
    cases e with
    | dir => exact .down sought found ((walk_down sought found).symm.trans ran)
    | file id =>
      rw [Disk.walk, next, found] at ran
      cases names <;> cases ran
      exact .last sought found nofun rfl
    | link target =>
      by_cases stops : names.isEmpty && !follow
      · rw [Disk.walk, next, found] at ran
        simp only [stops, if_true] at ran
        cases ran
        obtain ⟨rfl, -⟩ : names = [] ∧ follow = false := by simpa using stops
        exact .last sought found nofun rfl
      · have goesOn : names ≠ [] ∨ follow = true := by
          simpa [Classical.or_iff_not_imp_left] using stops
        cases links with
        | zero =>
          rw [Disk.walk, next, found] at ran
          simp only [stops] at ran
          cases ran
        | succ links => exact .link sought found ((walk_link sought found goesOn).symm.trans ran)

/-! Directories that names lead into. -/

theorem Leads.append (first : Leads d links dir xs links₁ q) (second : Leads d links₁ q ys links' p) :
    Leads d links dir (xs ++ ys) links' p := by
  induction first with
  | here => exact second
  | stay _ ih => exact .stay (ih second)
  | up _ ih => exact .up (ih second)
  | down sought found _ ih => exact .down sought found (ih second)
  | link sought found _ ih => exact .link sought found (by simpa using ih second)

/-- After names that lead into a directory a walk goes on from there. -/
theorem walk_of_leads (leads : Leads d links dir xs links' p) (goesOn : ys ≠ [] ∨ follow = true) :
    d.walk follow links dir (xs ++ ys) = d.walk follow links' p ys := by
  induction leads with
  | here => rfl
  | stay _ ih => rw [List.cons_append, walk_stay, ih]
  | up _ ih => rw [List.cons_append, walk_up, ih]
  | down sought found _ ih => rw [List.cons_append, walk_down sought found, ih]
  | @link _ _ _ _ names _ _ sought found _ ih =>
    have more : names ++ ys ≠ [] ∨ follow = true := goesOn.imp_left fun some => by simp [some]
    rw [List.cons_append, walk_link sought found more, ← List.append_assoc, ih]

/-- A walk that goes on after some names was led into a directory by them. -/
theorem leads_of_walk_append (more : ys ≠ []) (ran : d.walk follow links dir (xs ++ ys) = .ok spot) :
    ∃ links' p, Leads d links dir xs links' p ∧ d.walk follow links' p ys = .ok spot := by
  -- A link puts more names in front, so the links that are left go first.
  induction links using Nat.strongRecOn generalizing dir xs with
  | ind links fewer =>
    induction xs generalizing dir with
    | nil => exact ⟨links, dir, .here, ran⟩
    | cons name xs ih =>
      rw [List.cons_append] at ran
      have passes := passes_of_walk ran
      generalize after : xs ++ ys = names at passes
      cases passes with
      | stay onwards =>
        obtain ⟨links', p, leads, rest⟩ := ih (after ▸ onwards)
        exact ⟨links', p, .stay leads, rest⟩
      | up onwards =>
        obtain ⟨links', p, leads, rest⟩ := ih (after ▸ onwards)
        exact ⟨links', p, .up leads, rest⟩
      | down sought found onwards =>
        obtain ⟨links', p, leads, rest⟩ := ih (after ▸ onwards)
        exact ⟨links', p, .down sought found leads, rest⟩
      | link sought found onwards =>
        rw [← after, ← List.append_assoc] at onwards
        obtain ⟨links', p, leads, rest⟩ := fewer _ (Nat.lt_succ_self _) onwards
        exact ⟨links', p, .link sought found leads, rest⟩
      | last _ _ _ _ | free _ => exact absurd (List.append_eq_nil_iff.mp after).2 more

/-- A walk that ends in a directory was led into it. -/
theorem leads_of_walk (ran : d.walk true links dir names = .ok (.found p .dir)) :
    ∃ links', Leads d links dir names links' p := by
  induction links using Nat.strongRecOn generalizing dir names with
  | ind links fewer =>
    induction names generalizing dir with
    | nil =>
      rw [walk_nil] at ran
      cases ran
      exact ⟨links, .here⟩
    | cons name names ih =>
      cases passes_of_walk ran with
      | stay onwards => exact (ih onwards).imp fun _ leads => .stay leads
      | up onwards => exact (ih onwards).imp fun _ leads => .up leads
      | down sought found onwards => exact (ih onwards).imp fun _ leads => .down sought found leads
      | link sought found onwards =>
        exact (fewer _ (Nat.lt_succ_self _) onwards).imp fun _ leads => .link sought found leads
      | last _ _ other ends =>
        cases ends
        exact absurd rfl other
      | free ends => cases ends

/-- So a walk that follows the last link ends there. -/
theorem walk_eq_of_leads (leads : Leads d links dir names links' p) :
    d.walk true links dir names = .ok (.found p .dir) := by
  have ran : d.walk true links dir (names ++ []) = d.walk true links' p [] :=
    walk_of_leads leads (.inr rfl)
  rwa [List.append_nil, walk_nil] at ran

/-- Names that lead into a directory can be cut anywhere. -/
theorem Leads.split (both : Leads d links dir (xs ++ ys) links' p) :
    ∃ links₁ q links₂, Leads d links dir xs links₁ q ∧ Leads d links₁ q ys links₂ p := by
  by_cases more : ys = []
  · subst more
    rw [List.append_nil] at both
    exact ⟨links', p, links', both, .here⟩
  · obtain ⟨links₁, q, first, ran⟩ := leads_of_walk_append more (walk_eq_of_leads both)
    obtain ⟨links₂, second⟩ := leads_of_walk ran
    exact ⟨links₁, q, links₂, first, second⟩

/-- How names that lead into a directory go past the first of them. -/
theorem Leads.first (leads : Leads d links dir (name :: names) links' p) :
    name = "." ∧ Leads d links dir names links' p ∨
    name = ".." ∧ Leads d links dir.dropLast names links' p ∨
    (Sought name ∧ d.entry? (dir ++ [name]) = some .dir ∧
      Leads d links (dir ++ [name]) names links' p) ∨
    Sought name ∧ ∃ text fewer, d.entry? (dir ++ [name]) = some (.link text) ∧
      links = fewer + 1 ∧ Leads d fewer (if Path.isRooted text then [] else dir)
        (Disk.steps text ++ names) links' p := by
  cases leads with
  | stay rest => exact .inl ⟨rfl, rest⟩
  | up rest => exact .inr (.inl ⟨rfl, rest⟩)
  | down sought found rest => exact .inr (.inr (.inl ⟨sought, found, rest⟩))
  | link sought found rest => exact .inr (.inr (.inr ⟨sought, _, _, found, rfl, rest⟩))

/-- Names lead to one directory, however many links may be followed. -/
theorem Leads.unique (one : Leads d links dir names links' p) {more : Nat}
    (other : Leads d more dir names links₁ q) : p = q := by
  induction one generalizing more with
  | here =>
    cases other
    rfl
  | stay _ ih =>
    rcases other.first with ⟨-, rest⟩ | ⟨up, -⟩ | ⟨sought, -⟩ | ⟨sought, -⟩
    · exact ih rest
    · exact absurd up (by decide)
    · exact absurd rfl sought.notHere
    · exact absurd rfl sought.notHere
  | up _ ih =>
    rcases other.first with ⟨here, -⟩ | ⟨-, rest⟩ | ⟨sought, -⟩ | ⟨sought, -⟩
    · exact absurd here (by decide)
    · exact ih rest
    · exact absurd rfl sought.notUp
    · exact absurd rfl sought.notUp
  | down sought found _ ih =>
    rcases other.first with ⟨rfl, -⟩ | ⟨rfl, -⟩ | ⟨-, -, rest⟩ | ⟨-, text, _, link, -⟩
    · exact absurd rfl sought.notHere
    · exact absurd rfl sought.notUp
    · exact ih rest
    · cases found.symm.trans link
  | link sought found _ ih =>
    rcases other.first with ⟨rfl, -⟩ | ⟨rfl, -⟩ | ⟨-, dir, -⟩ | ⟨-, text, _, link, -, rest⟩
    · exact absurd rfl sought.notHere
    · exact absurd rfl sought.notUp
    · cases found.symm.trans dir
    · cases found.symm.trans link
      exact ih rest

/-- Links that were followed are not left. -/
theorem Leads.fewer (leads : Leads d links dir names links' p) : links' ≤ links := by
  induction leads with
  | here => exact Nat.le_refl _
  | stay _ ih | up _ ih | down _ _ _ ih => exact ih
  | link _ _ _ ih => exact Nat.le_succ_of_le ih

/-! Entries that names lead to. -/

theorem held_append (first : Leads d links dir xs links' p) (more : ys ≠ []) :
    Held d links dir (xs ++ ys) ↔ Held d links' p ys := by
  rw [Held, walk_of_leads first (.inl more)]
  rfl

theorem held_here : Held d links dir [] := ⟨dir, .dir, walk_nil⟩

/-- A directory that names lead into is an entry, or a link to it is. -/
theorem held_of_leads (leads : Leads d links dir names links' p) : Held d links dir names := by
  induction leads with
  | here => exact held_here
  | stay _ ih =>
    rw [Held, walk_stay]
    exact ih
  | up _ ih =>
    rw [Held, walk_up]
    exact ih
  | down sought found _ ih =>
    rw [Held, walk_down sought found]
    exact ih
  | @link _ _ _ _ names _ _ sought found _ ih =>
    by_cases ends : names = []
    · subst ends
      exact ⟨_, _, walk_one sought found⟩
    · rw [Held, walk_link sought found (.inl ends)]
      exact ih

theorem held_of_append (xs : List String) (more : ys ≠ []) (held : Held d links dir (xs ++ ys)) :
    ∃ links' p, Leads d links dir xs links' p ∧ Held d links' p ys := by
  obtain ⟨q, e, ran⟩ := held
  obtain ⟨links', p, leads, rest⟩ := leads_of_walk_append more ran
  exact ⟨links', p, leads, q, e, rest⟩

theorem Undotted.refl (xs : List String) : Undotted xs xs := by
  induction xs with
  | nil => exact .nil
  | cons x xs ih => exact .keep x ih

theorem Undotted.append (first : Undotted xs ys) {xs' ys' : List String}
    (second : Undotted xs' ys') : Undotted (xs ++ xs') (ys ++ ys') := by
  induction first with
  | nil => exact second
  | keep x _ ih => exact .keep x ih
  | drop _ ih => exact .drop ih

/-- Names lead to the same directory without the names `.`. -/
theorem Leads.undotted (leads : Leads d links dir xs links' p) (fewer : Undotted xs ys) :
    ∃ links₁, Leads d links dir ys links₁ p := by
  induction fewer generalizing links dir links' with
  | nil => exact ⟨links', leads⟩
  | drop _ ih =>
    obtain ⟨links₁, shorter⟩ := leads_of_walk (walk_stay.symm.trans (walk_eq_of_leads leads))
    exact ih shorter
  | @keep xs ys x _ ih =>
    obtain ⟨links₁, q, links₂, first, rest⟩ := @Leads.split d links links' dir p [x] xs leads
    obtain ⟨links₃, second⟩ := ih rest
    exact ⟨links₃, first.append second⟩

/-- Where an entry is, it is without the names `.` as well. -/
theorem Held.undotted (held : Held d links dir xs) (fewer : Undotted xs ys) :
    Held d links dir ys := by
  induction fewer generalizing links dir with
  | nil => exact held
  | drop _ ih =>
    rw [Held, walk_stay] at held
    exact ih held
  | @keep xs ys x fewer ih =>
    by_cases ends : xs = []
    · subst ends
      cases fewer
      exact held
    · obtain ⟨links', p, leads, rest⟩ := held_of_append [x] ends held
      by_cases ends' : ys = []
      · subst ends'
        exact held_of_leads leads
      · exact (held_append leads ends').mpr (ih rest)

/-! On a disk without links a walk goes where the path says. -/

/-- There is no link on the disk. -/
def Linkless (d : Disk) : Prop := ∀ p target, d.entry? p ≠ some (.link target)

/-- Every name of the place stands for a directory in the one before. -/
def Solid (d : Disk) (p : Place) : Prop :=
  ∀ before name after, p = before ++ name :: after →
    Sought name ∧ d.entry? (before ++ [name]) = some .dir

theorem solid_nil : Solid d [] := fun before name after cut => by simp at cut

theorem Solid.first (solid : Solid d (xs ++ ys)) : Solid d xs := by
  rintro before name after rfl
  exact solid before name (after ++ ys) (by simp)

theorem Solid.concat (solid : Solid d p) (sought : Sought name)
    (found : d.entry? (p ++ [name]) = some .dir) : Solid d (p ++ [name]) := by
  intro before other after cut
  rcases List.eq_nil_or_concat after with rfl | ⟨after, last, rfl⟩
  · obtain ⟨rfl, same⟩ := List.append_inj' cut rfl
    cases same
    exact ⟨sought, found⟩
  · rw [List.concat_eq_append, ← List.cons_append, ← List.append_assoc] at cut
    exact solid before other after (List.append_inj' cut rfl).1

theorem leads_of_solid (solid : Solid d p) : Leads d links [] p links p := by
  induction p using List.reverseRecOn with
  | nil => exact .here
  | append_singleton p name ih =>
    obtain ⟨sought, found⟩ := solid p name [] rfl
    exact (ih solid.first).append (.down sought found .here)

theorem Leads.lexical (linkless : Linkless d) (leads : Leads d links dir names links' p)
    (whole : "" ∉ names) (solid : Solid d dir) : p = names.foldl Path.enter dir ∧ Solid d p := by
  induction leads with
  | here => exact ⟨rfl, solid⟩
  | stay _ ih => exact ih (fun inside => whole (List.mem_cons_of_mem _ inside)) solid
  | @up _ dir _ _ _ _ ih =>
    have start : Solid d dir.dropLast := by
      obtain ⟨rest, cut⟩ := List.dropLast_prefix dir
      exact Solid.first (cut.symm ▸ solid)
    exact ih (fun inside => whole (List.mem_cons_of_mem _ inside)) start
  | @down _ dir name _ _ _ sought found _ ih =>
    obtain ⟨some, others⟩ := not_or.mp (mt List.mem_cons.mpr whole)
    have enters : Path.enter dir name = dir ++ [name] := by
      simp [Path.enter, Ne.symm some, sought.notHere, sought.notUp]
    rw [List.foldl_cons, enters]
    exact ih others (solid.concat sought found)
  | link _ found _ _ => exact absurd found (linkless _ _)

/-- An entry that names lead to stands at the place that resolution gives. -/
theorem Held.lexical (linkless : Linkless d) (held : Held d links [] names) (whole : "" ∉ names) :
    Held d links [] (names.foldl Path.enter []) := by
  rcases List.eq_nil_or_concat names with rfl | ⟨before, last, rfl⟩
  · exact held
  rw [List.concat_eq_append] at held whole ⊢
  obtain ⟨links', p, leads, q, e, ran⟩ := held_of_append before (List.cons_ne_nil _ _) held
  obtain ⟨same, solid⟩ := leads.lexical linkless (fun inside => whole (by simp [inside])) solid_nil
  rw [List.foldl_append, ← same]
  have there (sought : Sought last) {e : Entry} (found : d.entry? (p ++ [last]) = some e) :
      Held d links [] ([last].foldl Path.enter p) := by
    have some : last ≠ "" := fun empty => whole (by simp [empty])
    have enters : Path.enter p last = p ++ [last] := by
      simp [Path.enter, some, sought.notHere, sought.notUp]
    rw [List.foldl_cons, List.foldl_nil, enters]
    exact (held_append (leads_of_solid solid) (by simp)).mpr ⟨_, _, walk_one sought found⟩
  cases passes_of_walk ran with
  | stay _ => exact held_of_leads (leads_of_solid solid)
  | up _ =>
    obtain ⟨rest, cut⟩ := List.dropLast_prefix p
    exact held_of_leads (leads_of_solid (Solid.first (cut.symm ▸ solid)))
  | down sought found _ => exact there sought found
  | link _ found _ => exact absurd found (linkless _ _)
  | last sought found _ _ => exact there sought found
  | free ends => cases ends

end LineShell.WalkedPaths
