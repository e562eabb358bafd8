import LineShell.Proofs.ListedDirectories

/-! What `ls -R` lists of a disk without links. There a path leads where it says, so the
directories met are those that stand below the operand, and each has one block. -/
namespace LineShell.ListedTrees
open CopySteps DenotedEntries DiskTrees ExtendedPaths ListedDirectories ListedNames
open OpenedTargets OverlaidTrees PathNames PrintedPaths ResolvedPaths SessionDirectory WalkedPaths

/-- A directory stands at the place, and the system takes the path. -/
structure Directory (d : Disk) (p : Place) : Prop where
  held : d.entry? p = some .dir
  accepted : Accepted p

/-- The directories that can be reached from `p` through entries that are shown, by the
names that lead there. -/
inductive Reached (d : Disk) (p : Place) : List String → Prop where
  | here : Reached d p []
  | down {names name} (reached : Reached d p names) (shown : Shown name)
      (dir : Directory d (p ++ (names ++ [name]))) : Reached d p (names ++ [name])

variable {d : Disk} {p : Place} {names : List String}

theorem directory_of_isDir (linkless : Linkless d) (normal : Normal p) (isDir : d.isDir p = true) :
    Directory d p := by
  obtain ⟨accepted, _, _, leads⟩ := isDir_iff_leads.mp isDir
  have solid := solid_of_linkless linkless normal leads
  refine ⟨?_, accepted⟩
  rcases List.eq_nil_or_concat p with rfl | ⟨before, last, rfl⟩
  · rfl
  · rw [List.concat_eq_append] at solid ⊢
    exact (solid before last [] rfl).2

theorem Directory.isDir (nested : Nested d) (orderly : Orderly d) (directory : Directory d p) :
    d.isDir p = true := by
  have below : d.entry? ([] ++ p) = some .dir := directory.held
  have there : d.entry? ([] ++ p) ≠ none := by simp [directory.held]
  have sought := (names_below orderly there).2
  exact isDir_iff_leads.mpr ⟨directory.accepted, _, _, leads_below nested sought below⟩

/-- Directories reached are directories that shown names lead to. -/
theorem Reached.leads (nested : Nested d) (orderly : Orderly d) (isDir : d.isDir p = true)
    (reached : Reached d p names) :
    d.isDir (p ++ names) = true ∧ ∀ name ∈ names, Shown name := by
  induction reached with
  | here =>
    rw [List.append_nil]
    exact ⟨isDir, nofun⟩
  | down _ shown dir ih =>
    refine ⟨dir.isDir nested orderly, ?_⟩
    intro name member
    rcases List.mem_append.mp member with before | last
    · exact ih.2 name before
    · rwa [List.mem_singleton.mp last]

theorem reached_of_isDir (linkless : Linkless d) (normal : Normal p) (proper : Normal names)
    (isDir : d.isDir (p ++ names) = true) (shown : ∀ name ∈ names, Shown name) :
    Reached d p names := by
  induction names using List.reverseRecOn with
  | nil => exact .here
  | append_singleton names name ih =>
    have directory := directory_of_isDir linkless (normal_append.mpr ⟨normal, proper⟩) isDir
    rw [← List.append_assoc] at isDir
    obtain ⟨first, last⟩ := List.forall_mem_append.mp shown
    refine .down (ih (normal_append.mp proper).1 (isDir_first isDir) first) ?_ directory
    exact last name (List.mem_singleton_self name)

theorem mem_tour_iff_reached {style : Ls.Style} (linkless : Linkless d) (nested : Nested d)
    (orderly : Orderly d) (normal : Normal p) (isDir : d.isDir p = true) :
    names ∈ tour d style Disk.pathLimit p p ↔ Reached d p names := by
  constructor
  · intro met
    obtain ⟨there, shown⟩ := (mem_whole_tour orderly isDir).mp met
    exact reached_of_isDir linkless normal (tour_normal orderly met) there shown
  · intro reached
    exact (mem_whole_tour orderly isDir).mpr (reached.leads nested orderly isDir)

theorem find_of_isDir (linkless : Linkless d) (normal : Normal p) (isDir : d.isDir p = true) :
    d.find p = .ok (p, .dir) := by
  obtain ⟨accepted, _, _, leads⟩ := isDir_iff_leads.mp isDir
  have direct := walk_eq_of_leads
    (@leads_of_solid d Disk.linkLimit p (solid_of_linkless linkless normal leads))
  rw [Disk.find, locate_of_accepted accepted, direct]
  rfl

/-- On a disk without links `ls -R` writes blocks of the directories that can be reached
from its operand through shown entries, each directory before those below it and these in
the order of the listing. A block is named by the operand with the names that lead down,
and has the shown entries of its directory in order, which with `X` is that of the texts
after their last dots first. The order in which directories are enumerated makes no
difference. An empty operand is left out: what is listed below it is not what is below
the directory that it stands for. -/
theorem directories_are_listed_in_preorder (args : List String) (s : Session) {o : Options}
    {dir : String} (linkless : Linkless s.disk) (nested : Nested s.disk) (orderly : Orderly s.disk)
    (normal : Normal s.cwd) (parsed : Options.parse "RX".toList args = .ok o)
    (recursive : o.has 'R' = true) (operand : o.operandsOr "." = [dir]) (some : dir ≠ "")
    (directory : Directory s.disk (Path.resolve s.cwd dir)) :
    ∃ blocks : List Block,
      (∀ entries, entries.Perm s.disk.entries →
        Prints (Ls.run args) { s with disk := reordered s.disk entries } (printed dir blocks)) ∧
      (blocks.map Block.names).Pairwise (Precedes ⟨true, o.has 'X'⟩) ∧
      (∀ names, names ∈ blocks.map Block.names ↔
        Reached s.disk (Path.resolve s.cwd dir) names) ∧
      ∀ block ∈ blocks,
        Path.resolve s.cwd (pathFrom dir block.names) = Path.resolve s.cwd dir ++ block.names ∧
        block.entries.Pairwise (Before ⟨true, o.has 'X'⟩) ∧
        ∀ name, name ∈ block.entries ↔ Shown name ∧
          s.disk.entry? (Path.resolve s.cwd dir ++ block.names ++ [name]) ≠ none := by
  have isDir := directory.isDir nested orderly
  have proper := resolve_normal normal dir
  have met (names : List String) :
      names ∈ (listing s.disk s.cwd ⟨true, o.has 'X'⟩ dir).map Block.names ↔
        Reached s.disk (Path.resolve s.cwd dir) names := by
    rw [names_listing, under_eq some]
    exact mem_tour_iff_reached linkless nested orderly proper isDir
  refine ⟨listing s.disk s.cwd ⟨true, o.has 'X'⟩ dir, ?_, ?_, met, ?_⟩
  · intro entries order
    have there : Disk.isDir (reordered s.disk entries) (Path.resolve s.cwd dir) = true := by
      rw [Disk.isDir, locate_congr (entry?_reordered orderly order)]
      exact isDir
    rw [← listing_reordered orderly order]
    exact prints_listing (s := { s with disk := reordered s.disk entries })
      (orderly_reordered orderly order) parsed recursive operand there
  · rw [names_listing]
    exact tour_pairwise orderly
  · intro block member
    obtain ⟨names, inside, rfl⟩ := List.mem_map.mp member
    have below : Normal names := tour_normal orderly inside
    have leads := resolve_pathFrom below some s.cwd
    have reached := (met names).mp (List.mem_map_of_mem member)
    have found := find_of_isDir linkless (normal_append.mpr ⟨proper, below⟩)
      (reached.leads nested orderly isDir).1
    refine ⟨leads, entriesAt_pairwise orderly, ?_⟩
    intro name
    rw [Ne, ← Option.isNone_iff_eq_none, Bool.not_eq_true, Option.isNone_eq_false_iff, blockAt, leads]
    exact mem_entriesAt found

/-- A directory whose entries have dots in their names, or start with one. -/
def shelf : Session where
  disk :=
    { entries := [(["w"], .dir), (["w", "t"], .dir), (["w", "t", "b.a"], .dir),
        (["w", "t", "b.a", "x"], .file 0), (["w", "t", "c"], .dir), (["w", "t", "c", "d"], .dir),
        (["w", "t", ".h"], .dir), (["w", "t", ".h", "e"], .dir)]
      contents := [[]] }
  cwd := ["w"]

/-- A disk of directories and files has no links. -/
theorem linkless_of_entries
    (plain : ∀ entry ∈ d.entries, entry.2 = .dir ∨ ∃ id, entry.2 = .file id) : Linkless d := by
  intro p target held
  have top : p ≠ [] := by
    rintro rfl
    cases held
  rcases plain _ (mem_of_held held top) with dir | ⟨_, file⟩
  · cases dir
  · cases file

theorem reached_in_shelf (names : List String) : Reached shelf.disk ["w", "t"] names ↔
    names ∈ [[], ["c"], ["c", "d"], ["b.a"]] := by
  have nested : Nested shelf.disk := by decide
  have orderly : Orderly shelf.disk := by decide +kernel
  have top : Directory shelf.disk ["w", "t"] := ⟨by decide, by decide +kernel⟩
  have finite : ∀ x ∈ below shelf.disk ["w", "t"],
      shelf.disk.isDir (["w", "t"] ++ x) = true → (∀ name ∈ x, Shown name) →
        x ∈ [[], ["c"], ["c", "d"], ["b.a"]] := by
    decide +kernel
  constructor
  · intro reached
    obtain ⟨isDir, shown⟩ := reached.leads nested orderly (top.isDir nested orderly)
    have held : shelf.disk.entry? (["w", "t"] ++ names) ≠ none := by
      cases reached with
      | here => decide
      | down _ _ dir =>
        rw [dir.held]
        nofun
    exact finite names (mem_below.mpr held) isDir shown
  · have c : Reached shelf.disk ["w", "t"] ["c"] :=
      @Reached.down _ _ [] "c" .here (by decide) ⟨by decide, by decide +kernel⟩
    have d : Reached shelf.disk ["w", "t"] ["c", "d"] :=
      @Reached.down _ _ ["c"] "d" c (by decide) ⟨by decide, by decide +kernel⟩
    have ba : Reached shelf.disk ["w", "t"] ["b.a"] :=
      @Reached.down _ _ [] "b.a" .here (by decide) ⟨by decide, by decide +kernel⟩
    intro member
    simp only [List.mem_cons, List.not_mem_nil, or_false] at member
    rcases member with rfl | rfl | rfl | rfl
    · exact .here
    · exact c
    · exact d
    · exact ba

/-- With `X` the name without a dot comes first, and what is hidden is not gone into. The
disk lists its entries backwards. -/
theorem shelf_is_listed_by_last_dots :
    (Linkless shelf.disk ∧ Nested shelf.disk ∧ Orderly shelf.disk ∧ Normal shelf.cwd ∧
      Options.parse "RX".toList ["-RX", "t/"] = .ok ⟨['R', 'X'], ["t/"]⟩ ∧
      Directory shelf.disk (Path.resolve shelf.cwd "t/") ∧
      shelf.disk.entries.reverse.Perm shelf.disk.entries) ∧
    ∃ blocks : List Block,
      Prints (Ls.run ["-RX", "t/"])
        { shelf with disk := reordered shelf.disk shelf.disk.entries.reverse }
        (printed "t/" blocks) ∧
      blocks.map Block.names = [[], ["c"], ["c", "d"], ["b.a"]] := by
  have linkless : Linkless shelf.disk := linkless_of_entries (by simp [shelf])
  have nested : Nested shelf.disk := by decide
  have orderly : Orderly shelf.disk := by decide +kernel
  have normal : Normal shelf.cwd := List.forall_mem_singleton.mpr (by decide)
  have parsed : Options.parse "RX".toList ["-RX", "t/"] = .ok ⟨['R', 'X'], ["t/"]⟩ := by
    decide +kernel
  have place : Path.resolve shelf.cwd "t/" = ["w", "t"] := by decide +kernel
  have directory : Directory shelf.disk (Path.resolve shelf.cwd "t/") := by
    rw [place]
    exact ⟨by decide, by decide +kernel⟩
  have backwards : shelf.disk.entries.reverse.Perm shelf.disk.entries := List.reverse_perm _
  obtain ⟨blocks, prints, ordered, reached, -⟩ := directories_are_listed_in_preorder
    ["-RX", "t/"] shelf linkless nested orderly normal parsed rfl rfl (by decide) directory
  refine ⟨⟨linkless, nested, orderly, normal, parsed, directory, backwards⟩, blocks,
    prints _ backwards, ?_⟩
  have sorted : List.Pairwise (Precedes ⟨true, true⟩) [[], ["c"], ["c", "d"], ["b.a"]] := by
    decide +kernel
  refine eq_of_pairwise (precedes_asymm _) ordered sorted ?_
  intro names
  rw [reached, place]
  exact reached_in_shelf names

/-- A directory with another one in it, for the session to be in. -/
def inner : Session where
  disk :=
    { entries := [(["w"], .dir), (["w", "a"], .dir), (["w", "a", "b"], .file 0)]
      contents := [[]] }
  cwd := ["w"]

/-- The empty operand stands for the session's directory, but the directory in it has no
block: it is looked for under the root. -/
theorem directory_is_missed_below_empty_operand :
    (Linkless inner.disk ∧ Nested inner.disk ∧ Orderly inner.disk ∧ Normal inner.cwd ∧
      Options.parse "RX".toList ["-R", ""] = .ok ⟨['R'], [""]⟩ ∧
      Directory inner.disk (Path.resolve inner.cwd "")) ∧
    Reached inner.disk (Path.resolve inner.cwd "") ["a"] ∧
    (Ls.run ["-R", ""]).start inner =
      some (.ok .proceed, { inner with output := .outlet { taken := Text.bytes ":\na\n" } }) := by
  have linkless : Linkless inner.disk := linkless_of_entries (by simp [inner])
  rw [Path.resolve_empty]
  have normal : Normal inner.cwd := List.forall_mem_singleton.mpr (by decide)
  refine ⟨⟨linkless, by decide, by decide +kernel, normal, by decide +kernel,
    ⟨by decide, by decide +kernel⟩⟩, ?_, by decide +kernel⟩
  exact @Reached.down _ _ [] "a" .here (by decide) ⟨by decide, by decide +kernel⟩

end LineShell.ListedTrees
