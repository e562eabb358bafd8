import Mathlib.Algebra.Order.BigOperators.Group.List
import Mathlib.Algebra.Ring.GeomSum
import Mathlib.Data.List.ProdSigma
import LineShell.Proofs.ListedDirectories

/-! How much `ls -R` lists on a disk with links. It goes into every directory that a path
leads to, those behind links too, and keeps no record of where it has been. What ends it
is that a walk follows at most forty links. A path of proper names is known from the links
among them, in order, and from the directory that it leads to; so no directory has more
blocks than there are ways through at most forty links. -/
namespace LineShell.BoundedListings
open DenotedEntries DiskTrees ExtendedPaths GrownDisks ListedDirectories ListedNames
open PathNames PlacePaths PrintedPaths ResolvedPaths SessionDirectory WalkedPaths

/-- From directory `dir` the names lead to the directory `p`, and those of them that name
links do so at the places of the trail. -/
inductive Trail (d : Disk) : Place → List String → List Place → Place → Prop where
  | here {dir} : Trail d dir [] [] dir
  | down {dir name names trail p} (found : d.entry? (dir ++ [name]) = some .dir)
      (rest : Trail d (dir ++ [name]) names trail p) : Trail d dir (name :: names) trail p
  | link {dir name target names trail p links links' q}
      (found : d.entry? (dir ++ [name]) = some (.link target))
      (leads : Leads d links (if Path.isRooted target then [] else dir) (Disk.steps target) links' q)
      (rest : Trail d q names trail p) :
      Trail d dir (name :: names) ((dir ++ [name]) :: trail) p

/-- Whether an entry is a link. -/
def isLink : Entry → Bool
  | .link _ => true
  | .file _ | .dir => false

/-- Where the links of a disk are. -/
def links (d : Disk) : List Place := (d.entries.filter (isLink ·.2)).map Prod.fst

/-- Where the directories of a disk are, the root among them. -/
def directories (d : Disk) : List Place := [] :: (d.entries.filter (·.2 = .dir)).map Prod.fst

/-- The lists of at most `n` members of a list. -/
def sequences {α : Type} (xs : List α) : Nat → List (List α)
  | 0 => [[]]
  | n + 1 => [] :: xs.flatMap fun x => (sequences xs n).map (x :: ·)

/-- In how many ways one can go through at most forty links of the disk. -/
def ways (d : Disk) : Nat := ∑ k ∈ Finset.range (Disk.linkLimit + 1), (links d).length ^ k

/-- How many bytes the names of all entries have as lines. -/
def namesSize (d : Disk) : Nat :=
  (d.entries.map fun entry => (entry.1.getLast?.elim 0 fun name => name.utf8ByteSize + 1)).sum

variable {d : Disk} {style : Ls.Style} {cwd dir p q : Place} {name : String} {n n' : Nat}
  {names names' : List String} {trail : List Place}

/-! Trails. -/

/-- The first name is known from the trail and the directory at its end. -/
theorem Trail.head (along : Trail d dir names trail p) :
    ∃ x rest, trail.headD p = dir ++ x ∧ names = x ++ rest := by
  induction along with
  | here => exact ⟨[], [], by simp, rfl⟩
  | @down dir name _ _ _ _ _ ih =>
    obtain ⟨x, rest, stop, rfl⟩ := ih
    exact ⟨name :: x, rest, by simpa using stop, rfl⟩
  | @link _ name _ names => exact ⟨[name], names, rfl, rfl⟩

/-- A path is known from its trail and the directory it leads to. -/
theorem Trail.injective (one : Trail d dir names trail p) (other : Trail d dir names' trail p) :
    names = names' := by
  induction one generalizing names' with
  | here =>
    cases other with
    | here => rfl
    | down found rest =>
      obtain ⟨x, rest, stop, -⟩ := rest.head
      simp at stop
  | @down dir name names trail p found rest ih =>
    obtain ⟨x, _, stop, -⟩ := rest.head
    obtain ⟨x', more, stop', rfl⟩ := other.head
    rw [stop, List.append_assoc] at stop'
    obtain rfl := List.append_cancel_left stop'
    cases other with
    | down _ rest' =>
      rw [ih rest']
      rfl
    | link found' => cases found.symm.trans found'
  | @link dir name target names trail p _ _ q found leads rest ih =>
    obtain ⟨x', more, stop', rfl⟩ := other.head
    obtain rfl := List.append_cancel_left stop'
    cases other with
    | down found' => cases found.symm.trans found'
    | link found' leads' rest' =>
      cases found.symm.trans found'
      obtain rfl := leads.unique leads'
      rw [ih rest']
      rfl

theorem mem_links {target : String} (found : d.entry? (dir ++ [name]) = some (.link target)) :
    dir ++ [name] ∈ links d := by
  have member := mem_of_held found (by simp)
  exact List.mem_map.mpr ⟨_, List.mem_filter.mpr ⟨member, rfl⟩, rfl⟩

theorem mem_directories (held : d.entry? p = some .dir) : p ∈ directories d := by
  by_cases top : p = []
  · subst top
    exact List.mem_cons_self
  · refine List.mem_cons_of_mem _ (List.mem_map.mpr ⟨(p, .dir), ?_, rfl⟩)
    exact List.mem_filter.mpr ⟨mem_of_held held top, by simp⟩

/-- The trail of a path has at most as many links as may be followed. -/
theorem trail_of_leads (normal : Normal names) (leads : Leads d n dir names n' p) :
    ∃ trail, Trail d dir names trail p ∧ trail.length ≤ n ∧ ∀ z ∈ trail, z ∈ links d := by
  induction names generalizing n dir n' with
  | nil =>
    cases leads
    exact ⟨[], .here, Nat.zero_le _, nofun⟩
  | cons name names ih =>
    obtain ⟨proper, others⟩ := List.forall_mem_cons.mp normal
    obtain ⟨-, notHere, notUp, -⟩ := isName_iff.mp proper
    cases leads with
    | stay => exact absurd rfl notHere
    | up => exact absurd rfl notUp
    | down _ found rest =>
      obtain ⟨trail, along, short, inside⟩ := ih others rest
      exact ⟨trail, .down found along, short, inside⟩
    | link _ found rest =>
      obtain ⟨left, q, _, first, second⟩ := rest.split
      obtain ⟨trail, along, short, inside⟩ := ih others second
      have fewer := first.fewer
      refine ⟨(dir ++ [name]) :: trail, .link found first along, ?_, ?_⟩
      · rw [List.length_cons]
        omega
      · exact List.forall_mem_cons.mpr ⟨mem_links found, inside⟩

/-! Counting. -/

theorem mem_sequences {α : Type} {xs l : List α} (short : l.length ≤ n) (inside : ∀ x ∈ l, x ∈ xs) :
    l ∈ sequences xs n := by
  induction n generalizing l with
  | zero =>
    obtain rfl := List.length_eq_zero_iff.mp (Nat.le_zero.mp short)
    exact List.mem_singleton_self _
  | succ n ih =>
    cases l with
    | nil => exact List.mem_cons_self
    | cons x l =>
      obtain ⟨first, others⟩ := List.forall_mem_cons.mp inside
      rw [List.length_cons] at short
      refine List.mem_cons_of_mem _ (List.mem_flatMap.mpr ⟨x, first, ?_⟩)
      exact List.mem_map_of_mem (ih (by omega) others)

theorem length_sequences {α : Type} (xs : List α) (n : Nat) :
    (sequences xs n).length = ∑ k ∈ Finset.range (n + 1), xs.length ^ k := by
  induction n with
  | zero => rfl
  | succ n ih =>
    rw [geom_sum_succ, ← ih]
    simp [sequences, List.length_flatMap]

/-- Paths that start with the same names and lead to some directories are no more than
these directories and the ways through links. -/
theorem length_le_ways {met : List (List String)} {ends : List Place} (once : met.Nodup)
    (start : Place) (each : ∀ names ∈ met, ∃ trail p, Trail d [] (start ++ names) trail p ∧
      trail ∈ sequences (links d) Disk.linkLimit ∧ p ∈ ends) :
    met.length ≤ ends.length * ways d := by
  choose! trail stop along short inside using each
  have apart : (met.map fun names => (stop names, trail names)).Nodup := by
    refine List.Nodup.map_on ?_ once
    intro names member names' member' same
    obtain ⟨stops, trails⟩ := Prod.mk.inj same
    have one := along names member
    rw [stops, trails] at one
    exact List.append_cancel_left (one.injective (along names' member'))
  have all : (met.map fun names => (stop names, trail names)) ⊆
      ends ×ˢ sequences (links d) Disk.linkLimit := by
    intro pair member
    obtain ⟨names, met, rfl⟩ := List.mem_map.mp member
    exact List.mem_product.mpr ⟨inside names met, short names met⟩
  have counted := (List.subperm_of_subset apart all).length_le
  rwa [List.length_map, List.length_product, length_sequences] at counted

/-! Sizes. -/

theorem sum_filterMap_le {α β : Type} (f : α → Option β) (g : β → Nat) (h : α → Nat)
    (fits : ∀ x y, f x = some y → g y ≤ h x) (xs : List α) :
    ((xs.filterMap f).map g).sum ≤ (xs.map h).sum := by
  induction xs with
  | nil => exact Nat.le_refl _
  | cons x xs ih =>
    cases made : f x with
    | none =>
      rw [List.filterMap_cons_none made, List.map_cons, List.sum_cons]
      omega
    | some y =>
      have fit := fits x y made
      rw [List.filterMap_cons_some made, List.map_cons, List.map_cons, List.sum_cons, List.sum_cons]
      omega

/-- What is shown of a directory is some of the names. -/
theorem entriesAt_size (d : Disk) (style : Ls.Style) (p : Place) :
    ((entriesAt d style p).map fun name => name.utf8ByteSize + 1).sum ≤ namesSize d := by
  have sorted := ((List.mergeSort_perm (Ls.visible d p) style.le).map
    fun name => name.utf8ByteSize + 1).sum_eq
  have all (q : Place) : ((d.children q).map fun name => name.utf8ByteSize + 1).sum ≤ namesSize d := by
    refine sum_filterMap_le _ _ _ ?_ d.entries
    rintro ⟨z, e⟩ name last
    obtain rfl := last_below_iff.mp last
    simp
  rw [entriesAt, Ls.Style.sort, sorted]
  unfold Ls.visible
  split
  · rename_i r _
    refine le_trans ?_ (all r)
    exact (List.filter_sublist.map _).sum_le_sum fun _ _ => Nat.zero_le _
  · exact Nat.zero_le _

theorem size_join_le (sep : String) (texts : List String) :
    (Text.join sep texts).utf8ByteSize ≤
      (texts.map fun text => text.utf8ByteSize + sep.utf8ByteSize).sum := by
  induction texts with
  | nil => exact Nat.zero_le _
  | cons first rest ih =>
    rw [List.map_cons, List.sum_cons]
    cases rest with
    | nil => simp [Text.join, String.join]
    | cons second rest =>
      rw [join_more, String.utf8ByteSize_append, String.utf8ByteSize_append]
      omega

theorem width_below (p rest : List String) : Place.width rest ≤ Place.width (p ++ rest) := by
  simp only [Place.width, List.foldl_append]
  have wider := foldl_width rest (p.foldl (fun n name => n + 1 + name.utf8ByteSize) 0)
  omega

theorem size_ofList_prefix {cs more : List Char} (first : cs <+: more) :
    (String.ofList cs).utf8ByteSize ≤ (String.ofList more).utf8ByteSize := by
  obtain ⟨rest, rfl⟩ := first
  rw [String.ofList_append, String.utf8ByteSize_append]
  exact Nat.le_add_right _ _

theorem pathFrom_size (accepted : Accepted (p ++ names)) (dir : String) :
    (pathFrom dir names).utf8ByteSize ≤ dir.utf8ByteSize + Disk.pathLimit := by
  have short := Nat.lt_of_le_of_lt (width_below p names) accepted.short
  have joined := size_join names
  have cut := size_ofList_prefix (dir.toList.rdropWhile_prefix (· = '/'))
  rw [String.ofList_toList] at cut
  have slash : "/".utf8ByteSize = 1 := rfl
  unfold pathFrom
  split
  · omega
  · split
    · omega
    · rw [String.utf8ByteSize_append, String.utf8ByteSize_append]
      omega

/-- What is printed of a directory is its path, and names that stand on the disk. -/
theorem block_size (accepted : Accepted (p ++ names)) (dir : String) :
    ((blockAt d cwd style dir names).text dir).utf8ByteSize ≤
      dir.utf8ByteSize + Disk.pathLimit + namesSize d + 2 := by
  have path := pathFrom_size accepted dir
  have joined := size_join_le "\n" (entriesAt d style (Path.resolve cwd (pathFrom dir names)))
  have entries := entriesAt_size d style (Path.resolve cwd (pathFrom dir names))
  have colon : ":\n".utf8ByteSize = 2 := rfl
  have feed : "\n".utf8ByteSize = 1 := rfl
  have text : (blockAt d cwd style dir names).text dir = pathFrom dir names ++ ":\n" ++
      Text.join "\n" (entriesAt d style (Path.resolve cwd (pathFrom dir names))) := rfl
  rw [feed] at joined
  rw [text, String.utf8ByteSize_append, String.utf8ByteSize_append, colon]
  omega

theorem printed_size {blocks : List Block} {most : Nat} {dir : String}
    (each : ∀ block ∈ blocks, (block.text dir).utf8ByteSize ≤ most) :
    (printed dir blocks).utf8ByteSize ≤ blocks.length * (most + 2) + 1 := by
  have joined := size_join_le "\n\n" (blocks.map (Block.text dir))
  have apart : "\n\n".utf8ByteSize = 2 := rfl
  have feed : "\n".utf8ByteSize = 1 := rfl
  have total : ((blocks.map (Block.text dir)).map fun text => text.utf8ByteSize + 2).sum ≤
      blocks.length * (most + 2) := by
    have bound := List.sum_le_card_nsmul
      ((blocks.map (Block.text dir)).map fun text => text.utf8ByteSize + 2) (most + 2) ?_
    · simpa using bound
    · intro size member
      rw [List.map_map] at member
      obtain ⟨block, inside, rfl⟩ := List.mem_map.mp member
      exact Nat.add_le_add_right (each block inside) 2
  rw [printed, String.utf8ByteSize_append, feed]
  rw [apart] at joined
  omega

/-! The listing. -/

theorem normal_under (normal : Normal cwd) (dir : String) : Normal (under cwd dir) := by
  unfold under
  split
  · exact normal_nil
  · exact resolve_normal normal dir

/-- A directory has a trail, which is one of the ways through links. -/
theorem trail_of_isDir (nested : Nested d) (normal : Normal q) (isDir : d.isDir q = true) :
    ∃ trail p, Trail d [] q trail p ∧ trail ∈ sequences (links d) Disk.linkLimit ∧
      p ∈ directories d ∧ d.find q = .ok (p, .dir) := by
  obtain ⟨accepted, _, p, leads⟩ := isDir_iff_leads.mp isDir
  obtain ⟨trail, along, short, inside⟩ := trail_of_leads normal leads
  have found : d.find q = .ok (p, .dir) := by
    rw [Disk.find, locate_of_accepted accepted, walk_eq_of_leads leads]
    rfl
  exact ⟨trail, p, along, mem_sequences short inside,
    mem_directories (entry?_of_find nested found), found⟩

theorem tour_nodup (orderly : Orderly d) : (tour d style n p q).Nodup := by
  refine (tour_pairwise orderly).imp ?_
  rintro names _ before rfl
  exact precedes_asymm style names names before before

theorem ways_linkless (none : links d = []) : ways d = 1 := by
  rw [ways, none]
  decide +kernel

section Listing
variable {dir : String} (orderly : Orderly d) (isDir : d.isDir (Path.resolve cwd dir) = true)
include orderly isDir

/-- Every directory met is found below the operand. -/
theorem isDir_of_listed
    (met : names ∈ tour d style Disk.pathLimit (Path.resolve cwd dir) (under cwd dir)) :
    d.isDir (under cwd dir ++ names) = true := by
  refine isDir_of_mem_tour orderly ?_ met
  unfold under
  split
  · rfl
  · exact isDir

theorem trail_of_listed (nested : Nested d) (normal : Normal cwd)
    (met : names ∈ tour d style Disk.pathLimit (Path.resolve cwd dir) (under cwd dir)) :
    ∃ trail p, Trail d [] (under cwd dir ++ names) trail p ∧
      trail ∈ sequences (links d) Disk.linkLimit ∧ p ∈ directories d ∧
      d.find (under cwd dir ++ names) = .ok (p, .dir) :=
  trail_of_isDir nested
    (normal_append.mpr ⟨normal_under normal dir, tour_normal orderly met⟩)
    (isDir_of_listed orderly isDir met)

/-- A block is of a directory. -/
theorem isDir_of_block {block : Block} (listed : block ∈ listing d cwd style dir) :
    d.isDir (Path.resolve cwd (pathFrom dir block.names)) = true := by
  obtain ⟨names, met, rfl⟩ := List.mem_map.mp listed
  cases names with
  | nil => exact isDir
  | cons name names =>
    have leads := resolve_pathFrom_cons (tour_normal orderly met) cwd dir
    exact (congrArg d.isDir leads).trans (isDir_of_listed orderly isDir met)

theorem length_listing_le (nested : Nested d) (normal : Normal cwd) :
    (listing d cwd style dir).length ≤ (directories d).length * ways d := by
  rw [listing, List.length_map]
  refine length_le_ways (tour_nodup orderly) (under cwd dir) ?_
  intro names met
  obtain ⟨trail, p, along, short, inside, -⟩ :=
    trail_of_listed orderly isDir nested normal met
  exact ⟨trail, p, along, short, inside⟩

/-- One directory has no more blocks than there are ways through links. -/
theorem length_filter_listing_le (nested : Nested d) (normal : Normal cwd) (some : dir ≠ "")
    (r : Place) :
    ((listing d cwd style dir).filter fun block =>
      d.find (Path.resolve cwd (pathFrom dir block.names)) = .ok (r, .dir)).length ≤ ways d := by
  rw [listing, List.filter_map, List.length_map, ← Nat.one_mul (ways d)]
  refine @length_le_ways d _ [r] ((tour_nodup orderly).filter _) (under cwd dir) ?_
  intro names member
  obtain ⟨met, ends⟩ := List.mem_filter.mp member
  obtain ⟨trail, p, along, short, -, found⟩ := trail_of_listed orderly isDir nested normal met
  have leads := resolve_pathFrom (tour_normal orderly met) some cwd
  have shown : d.find (Path.resolve cwd (pathFrom dir names)) = .ok (r, .dir) :=
    of_decide_eq_true ends
  rw [leads, ← under_eq some cwd, found] at shown
  cases shown
  exact ⟨trail, r, along, short, List.mem_singleton_self r⟩

theorem size_listing_le :
    (printed dir (listing d cwd style dir)).utf8ByteSize ≤ (listing d cwd style dir).length *
      (dir.utf8ByteSize + Disk.pathLimit + namesSize d + 4) + 1 := by
  apply printed_size
  intro block member
  obtain ⟨names, met, rfl⟩ := List.mem_map.mp member
  exact block_size (isDir_iff_leads.mp (isDir_of_listed orderly isDir met)).1 dir

end Listing

/-- `ls -R` with one operand ends and writes blocks of directories, each under names of
its own. There are at most as many as there are directories of the disk, for every way to
go through at most forty of its links; and each directory has no more than these ways. So
what is written is bounded by the size of the disk. The empty operand is apart in one
thing: its own block is of the session's directory, which may be met again. -/
theorem blocks_are_bounded (args : List String) (s : Session) {o : Options} {dir : String}
    (nested : Nested s.disk) (orderly : Orderly s.disk) (normal : Normal s.cwd)
    (parsed : Options.parse "RX".toList args = .ok o) (recursive : o.has 'R' = true)
    (operand : o.operandsOr "." = [dir])
    (isDir : s.disk.isDir (Path.resolve s.cwd dir) = true) :
    ∃ blocks : List Block, Prints (Ls.run args) s (printed dir blocks) ∧
      (blocks.map Block.names).Nodup ∧
      (∀ block ∈ blocks, s.disk.isDir (Path.resolve s.cwd (pathFrom dir block.names)) = true) ∧
      (dir ≠ "" → ∀ r, (blocks.filter fun block =>
        s.disk.find (Path.resolve s.cwd (pathFrom dir block.names)) = .ok (r, .dir)).length ≤
          ways s.disk) ∧
      blocks.length ≤ (directories s.disk).length * ways s.disk ∧
      (links s.disk = [] → blocks.length ≤ (directories s.disk).length) ∧
      (printed dir blocks).utf8ByteSize ≤
        blocks.length * (dir.utf8ByteSize + Disk.pathLimit + namesSize s.disk + 4) + 1 := by
  have bounded : (listing s.disk s.cwd ⟨true, o.has 'X'⟩ dir).length ≤
      (directories s.disk).length * ways s.disk :=
    length_listing_le orderly isDir nested normal
  refine ⟨listing s.disk s.cwd ⟨true, o.has 'X'⟩ dir,
    prints_listing orderly parsed recursive operand isDir, ?_, ?_, ?_, bounded, ?_,
    size_listing_le orderly isDir⟩
  · rw [names_listing]
    exact tour_nodup orderly
  · intro block listed
    exact isDir_of_block orderly isDir listed
  · intro some r
    exact length_filter_listing_le orderly isDir nested normal some r
  · intro none
    rwa [ways_linkless none, Nat.mul_one] at bounded

/-- A directory with a file, and a link to it. -/
def linked : Session where
  disk :=
    { entries := [(["a"], .dir), (["a", "f"], .file 0), (["l"], .link "a")]
      contents := [[]] }

/-- The directory is listed by its name and by that of the link, which is within bounds. -/
theorem linked_directory_is_within_bounds :
    (Nested linked.disk ∧ Orderly linked.disk ∧ Normal linked.cwd ∧
      Options.parse "RX".toList ["-R", "."] = .ok ⟨['R'], ["."]⟩ ∧
      linked.disk.isDir (Path.resolve linked.cwd ".") = true) ∧
    ∃ blocks : List Block, Prints (Ls.run ["-R", "."]) linked (printed "." blocks) ∧
      blocks.length ≤ 2 * 41 ∧
      (blocks.filter fun block => linked.disk.find
        (Path.resolve linked.cwd (pathFrom "." block.names)) = .ok (["a"], .dir)).length ≤ 41 := by
  have nested : Nested linked.disk := by decide
  have orderly : Orderly linked.disk := by decide +kernel
  have parsed : Options.parse "RX".toList ["-R", "."] = .ok ⟨['R'], ["."]⟩ := by decide +kernel
  have isDir : linked.disk.isDir (Path.resolve linked.cwd ".") = true := by decide +kernel
  have one : ways linked.disk = 41 := by decide +kernel
  have two : (directories linked.disk).length = 2 := by decide
  obtain ⟨blocks, prints, -, -, each, all, -⟩ := blocks_are_bounded ["-R", "."] linked nested
    orderly normal_nil parsed rfl rfl isDir
  rw [one] at each all
  rw [two] at all
  exact ⟨⟨nested, orderly, normal_nil, parsed, isDir⟩, blocks, prints, all, each (by decide) _⟩

/-- A link to the directory that it stands in. -/
def circle : Session where
  disk := { entries := [(["l"], .link ".")] }

theorem circle_leads (n k : Nat) : Leads circle.disk (k + n) [] (List.replicate n "l") k [] := by
  induction n with
  | zero => exact .here
  | succ n ih =>
    have found : circle.disk.entry? ([] ++ ["l"]) = some (.link ".") := by decide
    have back : Disk.steps "." = ["."] := by decide
    refine .link ⟨by decide, by decide, by decide⟩ found ?_
    rw [ite_self, back]
    exact .stay ih

theorem circle_isDir {n : Nat} (few : n ≤ Disk.linkLimit) :
    circle.disk.isDir (List.replicate n "l") = true := by
  obtain ⟨k, limit⟩ := Nat.exists_eq_add_of_le' few
  have accepted : ∀ n ∈ List.range 41, Accepted (List.replicate n "l") := by decide +kernel
  have taken := accepted n (List.mem_range.mpr (Nat.lt_succ_of_le few))
  exact isDir_iff_leads.mpr ⟨taken, k, [], limit ▸ circle_leads n k⟩

/-- The one directory of the disk is listed over and over, until there are more than forty
links to follow. -/
theorem circle_is_listed_over_and_over :
    (Nested circle.disk ∧ Orderly circle.disk ∧ Normal circle.cwd ∧
      circle.disk.isDir (Path.resolve circle.cwd ".") = true) ∧
    directories circle.disk = [[]] ∧
    ∃ blocks : List Block, Prints (Ls.run ["-R"]) circle (printed "." blocks) ∧
      41 ≤ blocks.length := by
  have orderly : Orderly circle.disk := by decide +kernel
  have isDir : circle.disk.isDir [] = true := circle_isDir (Nat.zero_le _)
  have parsed : Options.parse "RX".toList ["-R"] = .ok ⟨['R'], []⟩ := by decide +kernel
  have prints := @prints_listing "." _ _ circle orderly parsed rfl rfl isDir
  refine ⟨⟨by decide, orderly, normal_nil, isDir⟩, by decide, _, prints, ?_⟩
  have apart : ((List.range 41).map fun n => List.replicate n "l").Nodup := by decide +kernel
  have all : ((List.range 41).map fun n => List.replicate n "l") ⊆
      tour circle.disk ⟨true, false⟩ Disk.pathLimit [] [] := by
    intro names member
    obtain ⟨n, inside, rfl⟩ := List.mem_map.mp member
    refine (mem_whole_tour orderly isDir).mpr
      ⟨circle_isDir (Nat.le_of_lt_succ (List.mem_range.mp inside)), ?_⟩
    intro name member
    rw [List.eq_of_mem_replicate member]
    decide
  have counted := (List.subperm_of_subset apart all).length_le
  rwa [List.length_map, List.length_range, ← List.length_map (blockAt circle.disk [] _ ".")]
    at counted

end LineShell.BoundedListings
