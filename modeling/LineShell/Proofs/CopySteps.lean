import LineShell.Application.Cp
import LineShell.Proofs.ExtendedPaths
import LineShell.Proofs.GrownDisks
import LineShell.Proofs.StepAgreement

/-! The steps of a copy. A file is copied where its target's path lands, at a file or at
a free name, and is emptied if that is the file itself. Directories are made one name
after the other, and a tree is copied entry by entry. -/
namespace LineShell.CopySteps
open DenotedEntries DiskTrees ExtendedPaths GrownDisks OpenedTargets PathNames ResolvedPaths
open StepAgreement WalkedPaths

/-- A file that is written to the path of `z` lands at `q`. -/
def Lands (d : Disk) (z q : Place) : Prop :=
  d.locate true z = .ok (.free q) ∨ ∃ id, d.locate true z = .ok (.found q (.file id))

variable {d d₁ d' : Disk} {source target z p q r : Place} {names : List String} {id : FileId}
  {e : IoError} {fuel : Nat} {s : Session}

/-! One file. -/

/-- A file is copied where the target lands; copied onto itself, it is emptied. -/
theorem copyFile_puts (tree : Treelike d) (found : d.find source = .ok (r, .file id))
    (lands : Lands d target q) :
    ∃ d', d.copyFile source target = .ok d' ∧
      Puts d q (.file (if q = r then [] else d.content id)) d' := by
  have held := entry?_of_find tree.nested found
  rcases lands with free | ⟨other, there⟩
  · obtain ⟨made, puts⟩ := puts_create tree free
    have opens : d.openForWriting target false = .ok (d.create q) := by
      rw [Disk.openForWriting, free]
      rfl
    have apart : q ≠ r := by
      rintro rfl
      obtain ⟨-, _, _, -, -, vacant⟩ := located_free tree.nested free
      rw [held] at vacant
      cases vacant
    refine ⟨_, ?_, puts.again (puts_content puts.tree made _)⟩
    rw [if_neg apart, ← content_create q id, Disk.copyFile, found]
    simp only [bind, Except.bind, opens, pure, Except.pure]
    rfl
  · have stands := entry?_of_find tree.nested (require_eq_ok_iff.mpr there)
    have opens : d.openForWriting target false = .ok (d.setContent other [], other) := by
      rw [Disk.openForWriting, there]
      rfl
    have emptied := puts_content tree stands []
    have same : (d.setContent other []).content id = if q = r then [] else d.content id := by
      rw [content_setContent [] id (tree.sound q other stands)]
      by_cases here : q = r
      · subst here
        cases held.symm.trans stands
        rw [if_pos rfl, if_pos rfl]
      · rw [if_neg here, if_neg]
        rintro rfl
        exact here (tree.single q r _ stands held)
    refine ⟨_, ?_, emptied.again (puts_content emptied.tree stands _)⟩
    rw [← same, Disk.copyFile, found]
    simp only [bind, Except.bind, opens, pure, Except.pure]

/-- Where no file is copied nothing happens. -/
theorem copyFile_cases (tree : Treelike d) (source target : Place) :
    (∃ r id q d', d.find source = .ok (r, .file id) ∧ Lands d target q ∧
      d.copyFile source target = .ok d' ∧
      Puts d q (.file (if q = r then [] else d.content id)) d') ∨
    (∃ e, d.copyFile source target = .error e) ∧
      ∀ r id q, d.find source = .ok (r, .file id) → ¬Lands d target q := by
  by_cases copies : ∃ r id q, d.find source = .ok (r, .file id) ∧ Lands d target q
  · obtain ⟨r, id, q, found, lands⟩ := copies
    obtain ⟨d', copied, puts⟩ := copyFile_puts tree found lands
    exact .inl ⟨r, id, q, d', found, lands, copied, puts⟩
  · refine .inr ⟨?_, fun r id q found lands => copies ⟨r, id, q, found, lands⟩⟩
    cases found : d.find source with
    | error e => exact ⟨e, by rw [Disk.copyFile, found]; rfl⟩
    | ok held =>
      obtain ⟨r, entry⟩ := held
      cases entry with
      | dir | link target => exact ⟨.notRegular, by rw [Disk.copyFile, found]; rfl⟩
      | file id =>
        have nowhere (q : Place) : ¬Lands d target q := fun lands => copies ⟨r, id, q, found, lands⟩
        have closed : ∃ e, d.openForWriting target false = .error e := by
          unfold Disk.openForWriting
          cases spot : d.locate true target with
          | error e => exact ⟨e, rfl⟩
          | ok spot' =>
            rcases spot' with ⟨q, _ | _ | _⟩ | q
            · exact absurd (.inr ⟨_, spot⟩) (nowhere q)
            · exact ⟨_, rfl⟩
            · exact ⟨_, rfl⟩
            · exact absurd (.inl spot) (nowhere q)
        obtain ⟨e, closed⟩ := closed
        refine ⟨e, ?_⟩
        rw [Disk.copyFile, found]
        simp only [bind, Except.bind, closed]

/-! A directory with its missing parents. -/

theorem makeDir_ok {d d' : Disk} {z : Place} (made : d.makeDir z = .ok d') :
    ∃ q, d.locate false z = .ok (.free q) ∧ d' = d.put q .dir := by
  unfold Disk.makeDir at made
  cases spot : d.locate false z with
  | error e =>
    rw [spot] at made
    cases made
  | ok spot' =>
    rw [spot] at made
    cases spot' with
    | found => cases made
    | free q =>
      cases made
      exact ⟨q, rfl, rfl⟩

/-- What each directory that is made keeps, all of them keep. -/
theorem makeDirs_keeps {Keeps : Disk → Prop} {p : Place}
    (step : ∀ d z q, Keeps d → z <+: p → d.locate false z = .ok (.free q) → Keeps (d.put q .dir))
    (d : Disk) (start : Keeps d) : Keeps (d.makeDirs p).1 := by
  have one {d₁ d' : Disk} {z : Place} (kept : Keeps d₁) (part : z <+: p)
      (made : d₁.makeDir z = .ok d') : Keeps d' := by
    obtain ⟨q, spot, rfl⟩ := makeDir_ok made
    exact step d₁ z q kept part spot
  suffices up : ∀ names : List String, names.reverse <+: p → Keeps (d.makeDirsUp names).1 by
    exact up p.reverse (by simp)
  intro names part
  induction names with
  | nil => exact start
  | cons name parents ih =>
    have upper : parents.reverse <+: p := by
      rw [List.reverse_cons] at part
      exact (List.prefix_append _ _).trans part
    have parentsMade := ih upper
    unfold Disk.makeDirsUp
    dsimp only
    split
    · rename_i made
      exact one start part made
    · generalize d.makeDirsUp parents = ended at parentsMade
      obtain ⟨d₁, _ | e⟩ := ended
      · dsimp only
        unfold Disk.makeDirHere
        cases made : d₁.makeDir (name :: parents).reverse with
        | ok d' => exact one parentsMade part made
        | error e =>
          dsimp only
          split
          · rename_i same
            split at same
            · cases same
              exact parentsMade
            · cases same
          · exact parentsMade
      · exact parentsMade
    · split
      · exact start
      · exact start

/-! A tree. -/

/-- On an orderly disk a walk can go down by the names of what stands below a place. -/
theorem names_below (orderly : Orderly d) {x : List String} (there : d.entry? (r ++ x) ≠ none) :
    Normal x ∧ ∀ name ∈ x, Sought name := by
  by_cases top : r ++ x = []
  · obtain rfl := (List.append_eq_nil_iff.mp top).2
    exact ⟨normal_nil, nofun⟩
  · obtain ⟨e, held⟩ := Option.ne_none_iff_exists'.mp there
    obtain ⟨normal, short⟩ := orderly.named _ _ (mem_of_held held top)
    obtain ⟨-, normal⟩ := normal_append.mp normal
    refine ⟨normal, fun name member => ?_⟩
    obtain ⟨-, notHere, notUp, -⟩ := isName_iff.mp (normal name member)
    exact ⟨notHere, notUp, short name (List.mem_append_right _ member)⟩

/-- While a copy goes on, the path of a directory in its source leads to it. -/
theorem leads_to_source (nested : Nested d) (orderly : Orderly d)
    (found : d.find source = .ok (r, .dir)) (grows : Grows d d₁) {x : List String}
    (dir : d.entry? (r ++ x) = some .dir) :
    ∃ links, Leads d₁ Disk.linkLimit [] (source ++ x) links (r ++ x) := by
  obtain ⟨links, first⟩ := leads_of_walk (walk_of_locate (require_eq_ok_iff.mp found))
  have sought := (names_below orderly (dir ▸ Option.some_ne_none _)).2
  exact ⟨links, leads_more grows.kept (first.append (leads_below nested sought dir))⟩

/-- The names of a directory, each with what stands there. -/
def listed (d : Disk) (r : Place) : List (String × Option Entry) :=
  (d.children r).map fun name => (name, d.entry? (r ++ [name]))

theorem mem_listed {entry : String × Option Entry} :
    entry ∈ listed d r ↔ ∃ e, d.entry? (r ++ [entry.1]) = some e ∧ entry.2 = some e := by
  rw [listed, List.mem_map]
  constructor
  · rintro ⟨name, child, rfl⟩
    obtain ⟨e, held⟩ := Option.isSome_iff_exists.mp (mem_children.mp child)
    exact ⟨e, held, held⟩
  · rintro ⟨e, held, same⟩
    exact ⟨entry.1, mem_children.mpr (by simp [held]), Prod.ext rfl (held.trans same.symm)⟩

theorem start_copyTree (fuel : Nat) (source target : Place) (s : Session) :
    (Cp.copyTree (fuel + 1) source target).start s =
      match s.disk.makeDirs target with
      | (d, some e) => some (.error e, { s with disk := d })
      | (d, none) =>
        match d.find source with
        | .error e => some (.error e, { s with disk := d })
        | .ok (real, kind) =>
          if kind = .dir then
            (Cp.copyTree.copyEntries (Cp.copyTree fuel) source target (listed d real)).start
              { s with disk := d }
          else some (.error .notDirectory, { s with disk := d }) := by
  rw [Cp.copyTree]
  simp only [start_bind, start_view, start_change]
  obtain ⟨d, _ | e⟩ := s.disk.makeDirs target
  · dsimp only
    rcases d.find source with e | ⟨real, kind⟩
    · rfl
    · by_cases dir : kind = .dir
      · subst dir
        rfl
      · simp [dir, start_bind]
  · rfl

theorem start_copyEntries_dir (deeper : Place → Place → Act IoError Unit) (source target : Place)
    (name : String) (rest : List (String × Option Entry)) (s : Session) :
    (Cp.copyTree.copyEntries deeper source target ((name, some .dir) :: rest)).start s =
      match (deeper (source ++ [name]) (target ++ [name])).start s with
      | none => none
      | some (.error e, s') => some (.error e, s')
      | some (.ok _, s') => (Cp.copyTree.copyEntries deeper source target rest).start s' := by
  rw [Cp.copyTree.copyEntries, if_pos rfl, start_bind]
  rcases (deeper (source ++ [name]) (target ++ [name])).start s with _ | ⟨_ | _, _⟩
  · rfl
  · rfl
  · rfl

theorem start_copyEntries_other (deeper : Place → Place → Act IoError Unit)
    (source target : Place) (name : String) {kind : Option Entry} (other : kind ≠ some .dir)
    (rest : List (String × Option Entry)) (s : Session) :
    (Cp.copyTree.copyEntries deeper source target ((name, kind) :: rest)).start s =
      match s.disk.copyFile (source ++ [name]) (target ++ [name]) with
      | .error e => some (.error e, s)
      | .ok d =>
        (Cp.copyTree.copyEntries deeper source target rest).start { s with disk := d } := by
  rw [Cp.copyTree.copyEntries, if_neg other, start_bind, start_onDisk]
  cases s.disk.copyFile (source ++ [name]) (target ++ [name]) with
  | error e => rfl
  | ok d => rfl

end LineShell.CopySteps
