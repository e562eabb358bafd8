import LineShell.Proofs.ListedNames
import LineShell.Proofs.OverlaidTrees
import LineShell.Proofs.PrintedPaths
import LineShell.Proofs.SessionDirectory
import LineShell.Proofs.StepAgreement

/-! What `ls -R` lists from one operand. The directories below it are met in preorder,
each by the names that lead there, and each is given a block. The listing is the same
whatever the order in which directories are enumerated. -/
namespace LineShell.ListedDirectories
open DenotedEntries ExtendedPaths ListedNames Ls OpenedTargets OverlaidTrees PathNames
open PlacePaths PrintedPaths ResolvedPaths SessionDirectory StepAgreement WalkedPaths

/-- A block of a listing: the names that lead to a directory, and what is shown of it. -/
structure Block where
  names : List String
  entries : List String

/-- A block as it is printed. -/
def Block.text (dir : String) (block : Block) : String :=
  pathFrom dir block.names ++ ":\n" ++ Text.join "\n" block.entries

/-- A listing as it is printed. -/
def printed (dir : String) (blocks : List Block) : String :=
  Text.join "\n\n" (blocks.map (Block.text dir)) ++ "\n"

/-- A run that writes one text and goes on, unless it cannot be written. -/
def Prints (act : Job Outcome) (s : Session) (text : String) : Prop :=
  act.start s =
    match s.output.write s.disk (Text.bytes text) with
    | (disk, output, none) => some (.ok .proceed, { s with disk, output })
    | (disk, output, some e) => some (.error (.io e), { s with disk, output })

/-- What is shown of a directory, in order. -/
def entriesAt (d : Disk) (style : Style) (p : Place) : List String := style.sort (visible d p)

/-- What is met below each name in turn. -/
def descend (below : String → List (List String)) (names : List String) : List (List String) :=
  names.flatMap fun name => (below name).map (name :: ·)

/-- The directories at and below a place in preorder, by the names that lead there. What is
in it is looked for under `q`. -/
def tour (d : Disk) (style : Style) : Nat → Place → Place → List (List String)
  | 0, _, _ => []
  | fuel + 1, p, q =>
    [] :: descend (fun name =>
      if d.isDir (q ++ [name]) then tour d style fuel (q ++ [name]) (q ++ [name]) else [])
      (entriesAt d style p)

/-- The block of the directory that some names below `dir` lead to. -/
def blockAt (d : Disk) (cwd : Place) (style : Style) (dir : String) (names : List String) : Block :=
  ⟨names, entriesAt d style (Path.resolve cwd (pathFrom dir names))⟩

/-- The blocks that `ls -R` lists of an operand. -/
def listing (d : Disk) (cwd : Place) (style : Style) (dir : String) : List Block :=
  (tour d style Disk.pathLimit (Path.resolve cwd dir) (under cwd dir)).map
    (blockAt d cwd style dir)

variable {d : Disk} {style : Style} {cwd p q r : Place} {a b name dir : String}
  {names rest xs ys : List String} {below : String → List (List String)} {fuel : Nat}

/-! What is shown of a directory. -/

theorem mem_visible (found : d.find p = .ok (r, .dir)) :
    name ∈ visible d p ↔ Shown name ∧ (d.entry? (r ++ [name])).isSome = true := by
  rw [visible, found]
  dsimp only
  rw [List.mem_filter, mem_children, and_comm]
  exact and_congr_left fun _ => decide_eq_true_iff

theorem visible_nodup (orderly : Orderly d) : (visible d p).Nodup := by
  unfold visible
  split
  · exact (children_nodup orderly.once).filter _
  · exact .nil

theorem visible_sought (orderly : Orderly d) (member : name ∈ visible d p) :
    Path.isName name = true ∧ Shown name := by
  unfold visible at member
  split at member
  · obtain ⟨child, shown⟩ := List.mem_filter.mp member
    have undotted : name.toList.head? ≠ some '.' := of_decide_eq_true shown
    exact ⟨(child_sought orderly child).1, undotted⟩
  · cases member

theorem entriesAt_pairwise (orderly : Orderly d) :
    (entriesAt d style p).Pairwise (Before style) :=
  sort_pairwise (fun _ member => (visible_sought orderly member).1) (visible_nodup orderly)

theorem mem_entriesAt (found : d.find p = .ok (r, .dir)) :
    name ∈ entriesAt d style p ↔ Shown name ∧ (d.entry? (r ++ [name])).isSome = true :=
  mem_sort.trans (mem_visible found)

/-! The directories that are met. -/

theorem isDir_first (isDir : d.isDir (p ++ rest) = true) : d.isDir p = true := by
  obtain ⟨accepted, _, _, leads⟩ := isDir_iff_leads.mp isDir
  obtain ⟨links, q, _, first, -⟩ := leads.split
  exact isDir_iff_leads.mpr ⟨accepted.first, links, q, first⟩

/-- A directory with a name that is shown is one of the entries shown. -/
theorem mem_entriesAt_of_isDir (isDir : d.isDir (p ++ [name]) = true) (shown : Shown name) :
    name ∈ entriesAt d style p := by
  obtain ⟨accepted, _, _, leads⟩ := isDir_iff_leads.mp isDir
  obtain ⟨links, r, _, first, second⟩ := leads.split
  have found : d.find p = .ok (r, .dir) := by
    rw [Disk.find, locate_of_accepted accepted.first, walk_eq_of_leads first]
    rfl
  rw [mem_entriesAt found]
  refine ⟨shown, ?_⟩
  obtain ⟨notHere, notUp⟩ := shown.sought
  cases second with
  | stay => exact absurd rfl notHere
  | up => exact absurd rfl notUp
  | down _ held | link _ held => simp [held]

theorem mem_descend : name :: rest ∈ descend below names ↔ name ∈ names ∧ rest ∈ below name := by
  rw [descend, List.mem_flatMap]
  constructor
  · rintro ⟨other, member, inside⟩
    obtain ⟨_, later, same⟩ := List.mem_map.mp inside
    cases same
    exact ⟨member, later⟩
  · rintro ⟨member, later⟩
    exact ⟨name, member, List.mem_map_of_mem later⟩

/-- A directory is met before those below it, and all at and below one name before
those at and below the next. -/
theorem descend_pairwise (ordered : names.Pairwise (Before style))
    (each : ∀ name ∈ names, (below name).Pairwise (Precedes style)) :
    ([] :: descend below names).Pairwise (Precedes style) := by
  rw [List.pairwise_cons, descend, List.pairwise_flatMap]
  refine ⟨?_, ?_, ?_⟩
  · intro names member
    obtain ⟨name, -, inside⟩ := List.mem_flatMap.mp member
    obtain ⟨rest, -, rfl⟩ := List.mem_map.mp inside
    exact .nil
  · intro name member
    exact List.pairwise_map.mpr ((each name member).imp List.Lex.cons)
  · refine ordered.imp ?_
    intro a b before xs first ys second
    obtain ⟨_, -, rfl⟩ := List.mem_map.mp first
    obtain ⟨_, -, rfl⟩ := List.mem_map.mp second
    exact .rel before

theorem mem_tour_cons : name :: rest ∈ tour d style (fuel + 1) p q ↔
    name ∈ entriesAt d style p ∧ d.isDir (q ++ [name]) = true ∧
      rest ∈ tour d style fuel (q ++ [name]) (q ++ [name]) := by
  rw [tour, List.mem_cons, mem_descend]
  split
  · rename_i there
    simp [there]
  · rename_i missing
    simp [missing]

theorem tour_pairwise (orderly : Orderly d) :
    (tour d style fuel p q).Pairwise (Precedes style) := by
  induction fuel generalizing p q with
  | zero => exact .nil
  | succ fuel ih =>
    refine descend_pairwise (entriesAt_pairwise orderly) ?_
    intro name _
    split
    · exact ih
    · exact .nil

/-- The names that lead to a directory met are names of entries. -/
theorem tour_normal (orderly : Orderly d) (met : names ∈ tour d style fuel p q) :
    Normal names := by
  induction fuel generalizing p q names with
  | zero => cases met
  | succ fuel ih =>
    cases names with
    | nil => exact normal_nil
    | cons name rest =>
      obtain ⟨member, -, later⟩ := mem_tour_cons.mp met
      exact List.forall_mem_cons.mpr ⟨(visible_sought orderly (mem_sort.mp member)).1, ih later⟩

/-- Met are the directories that shown names lead to, as deep as the fuel goes. -/
theorem mem_tour (orderly : Orderly d) (isDir : d.isDir p = true) :
    names ∈ tour d style fuel p p ↔
      names.length < fuel ∧ d.isDir (p ++ names) = true ∧ ∀ name ∈ names, Shown name := by
  induction fuel generalizing p names with
  | zero => simp [tour]
  | succ fuel ih =>
    cases names with
    | nil => simp [tour, isDir]
    | cons name rest =>
      rw [mem_tour_cons, List.forall_mem_cons, List.length_cons, List.append_cons p name rest]
      constructor
      · rintro ⟨member, there, later⟩
        obtain ⟨short, below, others⟩ := (ih there).mp later
        exact ⟨by omega, below, (visible_sought orderly (mem_sort.mp member)).2, others⟩
      · rintro ⟨short, below, shown, others⟩
        have there := isDir_first below
        exact ⟨mem_entriesAt_of_isDir there shown, there, (ih there).mpr ⟨by omega, below, others⟩⟩

/-- With the fuel that a listing has no directory is too deep. -/
theorem mem_whole_tour (orderly : Orderly d) (isDir : d.isDir p = true) :
    names ∈ tour d style Disk.pathLimit p p ↔
      d.isDir (p ++ names) = true ∧ ∀ name ∈ names, Shown name := by
  rw [mem_tour orderly isDir]
  constructor
  · rintro ⟨-, met⟩
    exact met
  · intro met
    refine ⟨?_, met⟩
    have wide := length_le_width (p ++ names)
    have short := (isDir_iff_leads.mp met.1).1.short
    rw [List.length_append] at wide
    omega

/-- Wherever what is in a directory is looked for, directories are found there. -/
theorem isDir_of_mem_tour (orderly : Orderly d) (isDir : d.isDir q = true)
    (met : names ∈ tour d style fuel p q) : d.isDir (q ++ names) = true := by
  cases fuel with
  | zero => cases met
  | succ fuel =>
    cases names with
    | nil => rwa [List.append_nil]
    | cons name rest =>
      obtain ⟨-, there, later⟩ := mem_tour_cons.mp met
      rw [List.append_cons]
      exact ((mem_tour orderly there).mp later).2.1

/-! The run. -/

theorem join_more (sep first second : String) (rest : List String) :
    Text.join sep (first :: second :: rest) = first ++ sep ++ Text.join sep (second :: rest) := by
  simp [← String.toList_inj, Text.toList_join, Text.joinWith_cons_cons]

theorem join_begins (sep first : String) (rest : List String) :
    ∃ more, Text.join sep (first :: rest) = first ++ more := by
  cases rest with
  | nil => exact ⟨"", by simp [← String.toList_inj, Text.toList_join, Text.joinWith]⟩
  | cons second rest => exact ⟨_, (join_more sep first second rest).trans (String.append_assoc ..)⟩

theorem text_cons (proper : Path.isName name = true) (dir : String) (names : List String) :
    (blockAt d cwd style dir (name :: names)).text dir =
      (blockAt d cwd style (childName dir name) names).text (childName dir name) := by
  unfold Block.text blockAt
  rw [pathFrom_cons proper]

/-- The blocks of a directory are those of the directories met, in that order. -/
theorem blocks_eq (orderly : Orderly d) (recursive : style.recursive = true) (dir : String) :
    blocks d cwd style true fuel dir =
      (tour d style fuel (Path.resolve cwd dir) (under cwd dir)).map fun names =>
        (blockAt d cwd style dir names).text dir := by
  induction fuel generalizing dir with
  | zero => rfl
  | succ fuel ih =>
    rw [blocks, tour, descend, if_pos rfl, if_pos recursive, List.map_cons, List.flatMap_map,
      List.map_flatMap]
    congr 1
    apply List.flatMap_congr
    intro name member
    have proper := (visible_sought orderly (mem_sort.mp member)).1
    rw [resolve_childName proper]
    split
    · rw [ih, under_eq (childName_ne_empty proper dir), resolve_childName proper, List.map_map]
      apply List.map_congr_left
      intro names _
      exact (text_cons proper dir names).symm
    · rfl

theorem reaches_of_isDir (isDir : d.isDir p = true) : d.reaches p = true := by
  obtain ⟨q, found⟩ := isDir_iff.mp isDir
  simp [Disk.reaches, Disk.find, found, Disk.require, Except.isOk, Except.toBool]

theorem prints_write (s : Session) (text : String) :
    Prints (do Job.write (Text.bytes text); return .proceed) s text := by
  have wrote : (Act.write (Text.bytes text)).start s =
      match s.output.write s.disk (Text.bytes text) with
      | (disk, output, none) => some (.ok (), { s with disk, output })
      | (disk, output, some e) => some (.error e, { s with disk, output }) := rfl
  rw [Prints, start_bind, Job.write, Job.ofIo, start_mapError, wrote]
  rcases s.output.write s.disk (Text.bytes text) with ⟨disk, output, _ | _⟩
  · rfl
  · rfl

theorem names_listing : (listing d cwd style dir).map Block.names =
    tour d style Disk.pathLimit (Path.resolve cwd dir) (under cwd dir) := by
  rw [listing, List.map_map]
  exact List.map_id _

theorem printed_listing (orderly : Orderly d) (recursive : style.recursive = true) (dir : String) :
    printed dir (listing d cwd style dir) =
      Text.join "\n\n" (blocks d cwd style true Disk.pathLimit dir) ++ "\n" := by
  rw [blocks_eq orderly recursive, printed, listing, List.map_map]
  rfl

/-- With one operand that leads to a directory, `ls -R` prints the listing of it. -/
theorem prints_listing {o : Options} {args : List String} {s : Session} (orderly : Orderly s.disk)
    (parsed : Options.parse "RX".toList args = .ok o) (recursive : o.has 'R' = true)
    (operand : o.operandsOr "." = [dir])
    (isDir : s.disk.isDir (Path.resolve s.cwd dir) = true) :
    Prints (Ls.run args) s (printed dir (listing s.disk s.cwd ⟨true, o.has 'X'⟩ dir)) := by
  have options : (Job.options "RX" args).start s = some (.ok o, s) := by
    rw [Job.options, parsed]
    rfl
  have reaches := reaches_of_isDir isDir
  obtain ⟨more, first⟩ : ∃ more, Text.join "\n\n"
      (blocks s.disk s.cwd ⟨true, o.has 'X'⟩ true Disk.pathLimit dir) = dir ++ ":\n" ++ more := by
    have steps : Disk.pathLimit = 4095 + 1 := rfl
    rw [steps, blocks, if_pos rfl]
    obtain ⟨more, begins⟩ := join_begins "\n\n" (dir ++ ":\n" ++ Text.join "\n"
      (Style.sort ⟨true, o.has 'X'⟩ (visible s.disk (Path.resolve s.cwd dir)))) _
    exact ⟨_, begins.trans (String.append_assoc ..)⟩
  have text : dir ++ ":\n" ++ more ≠ "" := by
    intro empty
    have none := congrArg String.toList empty
    simp at none
  have noFiles (style : Style) : style.sort [] = [] := by simp [Style.sort]
  rw [printed_listing orderly rfl, Prints, Ls.run]
  simp only [start_bind, options, start_view, operand]
  rw [List.find?_cons_of_neg (by simp [reaches]), List.find?_nil]
  dsimp only
  rw [List.filter_cons_of_neg (by simp [isDir]), List.filter_cons_of_pos (by simp [isDir]),
    List.filter_nil, List.filter_nil, noFiles, List.isEmpty_nil, if_pos rfl, List.nil_append,
    List.flatMap_cons, List.flatMap_nil, List.append_nil, recursive, Bool.true_or, first,
    if_neg text]
  exact prints_write s (dir ++ ":\n" ++ more ++ "\n")

/-! The order in which a directory is enumerated. -/

theorem orderly_reordered {entries : List (Place × Entry)} (orderly : Orderly d)
    (order : entries.Perm d.entries) : Orderly (reordered d entries) where
  named p e member := orderly.named p e (order.mem_iff.mp member)
  once := (order.map Prod.fst).nodup_iff.mpr orderly.once

/-- A directory shows the same in whatever order its entries come. -/
theorem entriesAt_reordered {entries : List (Place × Entry)} (orderly : Orderly d)
    (order : entries.Perm d.entries) (style : Style) (p : Place) :
    entriesAt (reordered d entries) style p = entriesAt d style p := by
  have orderly' := orderly_reordered orderly order
  have same := entry?_reordered orderly order
  have found : Disk.find (reordered d entries) p = d.find p := by
    rw [Disk.find, Disk.find, locate_congr same]
  refine eq_of_pairwise (before_asymm style) (entriesAt_pairwise orderly')
    (entriesAt_pairwise orderly) ?_
  intro name
  have shows : name ∈ visible (reordered d entries) p ↔ name ∈ visible d p := by
    unfold visible
    rw [found]
    split
    · rw [List.mem_filter, List.mem_filter, mem_children, mem_children, same]
    · rfl
  rw [entriesAt, entriesAt, mem_sort, mem_sort, shows]

/-- So the listing is the same. -/
theorem listing_reordered {entries : List (Place × Entry)} (orderly : Orderly d)
    (order : entries.Perm d.entries) (style : Style) (dir : String) :
    listing (reordered d entries) cwd style dir = listing d cwd style dir := by
  have dirs (p : Place) : Disk.isDir (reordered d entries) p = d.isDir p := by
    rw [Disk.isDir, Disk.isDir, locate_congr (entry?_reordered orderly order)]
  have shows := entriesAt_reordered orderly order style
  have met (fuel : Nat) (p q : Place) :
      tour (reordered d entries) style fuel p q = tour d style fuel p q := by
    induction fuel generalizing p q with
    | zero => rfl
    | succ fuel ih => simp only [tour, shows, dirs, ih]
  have block : blockAt (reordered d entries) cwd style dir = blockAt d cwd style dir := by
    funext names
    rw [blockAt, blockAt, shows]
  rw [listing, listing, met, block]

end LineShell.ListedDirectories
