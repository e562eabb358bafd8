import LineShell.Proofs.CopySteps

/-! A directory tree copied over another one. Every step of the copy puts at a place
under the target what the source shows at the same place below it, so a place that is
done stays done, and all others show what they did. In the end the source lies over
the target, whatever the order in which directories are listed. The system sets the
only bounds: it takes no path that is too long. -/
namespace LineShell.OverlaidTrees
open CopySteps DenotedEntries DiskTrees ExtendedPaths GrownDisks OpenedTargets StepAgreement
open WalkedPaths

/-- The disk `d'` is `d` with the tree at `r` laid over the place `q`: what the tree
shows is shown there, and elsewhere what was. The directories above `q` are there. -/
structure Overlaid (d : Disk) (r q : Place) (d' : Disk) : Prop where
  under : ∀ x, look? d' (q ++ x) = (look? d (r ++ x)).or (look? d (q ++ x))
  above : ∀ p, p.covers q = true → look? d' p = some .dir
  aside : ∀ p, p.covers q = false → q.covers p = false → look? d' p = look? d p

/-- The path of `target` leads to the directory `q`, or would if it were there: its first
names lead into a directory, and from there on the path goes down to what is missing. -/
inductive Aims (d : Disk) : Place → Place → Prop where
  | intro {before after dir : List String} {links : Nat}
      (leads : Leads d Disk.linkLimit [] before links dir) (sought : ∀ name ∈ after, Sought name)
      (missing : ∀ name ∈ after.head?, d.entry? (dir ++ [name]) = none) :
      Aims d (before ++ after) (dir ++ after)

/-- Both are directories, or both are files. -/
inductive Alike : Entry → Entry → Prop where
  | dirs : Alike .dir .dir
  | files (id id' : FileId) : Alike (.file id) (.file id')

/-- The path `source` leads to a tree of files and directories at `r`, which can be laid
over `q`, where the path `target` aims: neither place lies in the other, what is in both
trees is alike, and the system takes every path of the copy. -/
structure Fits (d : Disk) (source target r q : Place) : Prop where
  found : d.find source = .ok (r, .dir)
  aims : Aims d target q
  beside : r.covers q = false
  beside' : q.covers r = false
  plain : ∀ x link, d.entry? (r ++ x) ≠ some (.link link)
  alike : ∀ x e e', d.entry? (r ++ x) = some e → d.entry? (q ++ x) = some e' → Alike e e'
  takes : ∀ x, d.entry? (r ++ x) ≠ none → Accepted (source ++ x) ∧ Accepted (target ++ x)

/-- From `d₁` to `d₂` what `d` shows at and below `r` has come to stand at some places
under `q`, and nothing else has changed but directories above `q`. -/
structure Laid (d : Disk) (r q : Place) (d₁ d₂ : Disk) : Prop where
  tree : Treelike d₂
  grows : Grows d₁ d₂
  under : ∀ x, look? d₂ (q ++ x) = look? d₁ (q ++ x) ∨
    look? d (r ++ x) ≠ none ∧ look? d₂ (q ++ x) = look? d (r ++ x)
  aside : ∀ p, p.covers q = false → q.covers p = false → look? d₂ p = look? d₁ p

variable {d d₁ d₂ d₃ d' : Disk} {source target r q p : Place} {x : List String} {links : Nat}
  {name : String} {id : FileId} {look : Look} {s : Session}

/-! Directories along a path. -/

/-- Where a directory's path leads to it, a name in it is found or free. -/
theorem locate_child {follow : Bool} (leads : Leads d Disk.linkLimit [] target links q)
    (sought : Sought name) (accepted : Accepted (target ++ [name]))
    (plain : ∀ link, d.entry? (q ++ [name]) ≠ some (.link link)) :
    d.locate follow (target ++ [name]) = .ok (match d.entry? (q ++ [name]) with
      | none => .free (q ++ [name])
      | some e => .found (q ++ [name]) e) := by
  rw [locate_of_accepted accepted, walk_of_leads leads (.inl (List.cons_ne_nil _ _))]
  unfold Disk.walk
  rw [stride_sought sought]
  cases held : d.entry? (q ++ [name]) with
  | none => rfl
  | some e =>
    cases e with
    | dir | file id => rfl
    | link link => exact absurd held (plain link)

theorem makeDir_at (tree : Treelike d) (leads : Leads d Disk.linkLimit [] target links q)
    (sought : Sought name) (accepted : Accepted (target ++ [name]))
    (free : d.entry? (q ++ [name]) = none) :
    ∃ d', d.makeDir (target ++ [name]) = .ok d' ∧ Puts d (q ++ [name]) .dir d' ∧
      Leads d' Disk.linkLimit [] (target ++ [name]) links (q ++ [name]) := by
  have located : d.locate false (target ++ [name]) = .ok (.free (q ++ [name])) := by
    rw [locate_child leads sought accepted (by simp [free]), free]
  obtain ⟨made, puts⟩ := puts_dir tree located
  refine ⟨_, made, puts, (leads_more puts.grows.kept leads).append (.down sought ?_ .here)⟩
  rw [← look?_eq_dir, puts.looks, if_pos rfl]

/-- A path that leads to a directory has all its directories. -/
theorem makeDirs_there (accepted : Accepted target)
    (leads : Leads d Disk.linkLimit [] target links q) : d.makeDirs target = (d, none) := by
  rcases List.eq_nil_or_concat target with rfl | ⟨before, name, rfl⟩
  · rfl
  · rw [List.concat_eq_append] at accepted leads ⊢
    obtain ⟨p, e, held⟩ := held_of_leads leads
    have there : d.makeDir (before ++ [name]) = .error .alreadyExists := by
      rw [Disk.makeDir, locate_of_accepted accepted, held]
      rfl
    have dir : d.isDir (before ++ [name]) = true := by
      rw [Disk.isDir, locate_of_accepted accepted, walk_eq_of_leads leads]
      rfl
    simp [Disk.makeDirs, Disk.makeDirsUp, there, dir]

theorem makeDirs_step {up : List String} (missing : d.makeDir (up ++ [name]) = .error .notFound)
    (parents : d.makeDirs up = (d₁, none)) (made : d₁.makeDir (up ++ [name]) = .ok d') :
    d.makeDirs (up ++ [name]) = (d', none) := by
  rw [Disk.makeDirs] at parents ⊢
  simp [Disk.makeDirsUp, missing, parents, Disk.makeDirHere, made]

theorem makeDir_missing {dir before rest : List String} {first : String}
    (leads : Leads d Disk.linkLimit [] before links dir) (sought : Sought first)
    (accepted : Accepted (before ++ first :: rest)) (below : rest ≠ [])
    (missing : d.entry? (dir ++ [first]) = none) :
    d.makeDir (before ++ first :: rest) = .error .notFound := by
  rw [Disk.makeDir, locate_of_accepted accepted, walk_of_leads leads (.inl (List.cons_ne_nil _ _))]
  unfold Disk.walk
  rw [stride_sought sought, missing]
  simp [bind, Except.bind, below]

/-- Where a path aims, the missing directories are made and nothing else. -/
theorem makeDirs_aims (tree : Treelike d) (aims : Aims d target q) (accepted : Accepted target) :
    ∃ d', d.makeDirs target = (d', none) ∧ Treelike d' ∧ Grows d d' ∧
      (∃ links, Leads d' Disk.linkLimit [] target links q) ∧
      ∀ p, p.covers q = false → look? d' p = look? d p := by
  obtain @⟨before, after, dir, links, leads, sought, missing⟩ := aims
  induction after using List.reverseRecOn with
  | nil =>
    rw [List.append_nil, List.append_nil] at *
    exact ⟨d, makeDirs_there accepted leads, tree, .refl d, ⟨links, leads⟩, fun _ _ => rfl⟩
  | append_singleton after name ih =>
    obtain ⟨others, last⟩ := List.forall_mem_append.mp sought
    have lastSought := last name (List.mem_singleton_self name)
    rw [← List.append_assoc] at accepted ⊢
    rw [← List.append_assoc]
    have longer {p : Place} (apart : p.covers (dir ++ after ++ [name]) = false) :
        p ≠ dir ++ after ++ [name] := by
      rintro rfl
      rw [covers_self] at apart
      cases apart
    cases after with
    | nil =>
      simp only [List.append_nil] at accepted longer ⊢
      obtain ⟨d', made, puts, leads'⟩ :=
        makeDir_at tree leads lastSought accepted (missing name rfl)
      refine ⟨d', ?_, puts.tree, puts.grows, ⟨links, leads'⟩, fun p apart => ?_⟩
      · rw [Disk.makeDirs]
        simp [Disk.makeDirsUp, made]
      · rw [puts.looks, if_neg (longer apart)]
    | cons first rest =>
      have gone : d.entry? (dir ++ [first]) = none := missing first rfl
      have below : d.makeDir (before ++ (first :: rest) ++ [name]) = .error .notFound := by
        rw [List.append_assoc] at accepted ⊢
        exact makeDir_missing leads (others first List.mem_cons_self) accepted (by simp) gone
      obtain ⟨d₁, parents, tree₁, grows, ⟨links₁, leads₁⟩, looks⟩ :=
        ih others missing accepted.first
      have free : d₁.entry? (dir ++ (first :: rest) ++ [name]) = none := by
        rw [← look?_eq_none, looks _ (not_covers_above _ name), look?_eq_none]
        by_contra held
        have upper := tree.nested _ name held
        rw [List.append_cons] at upper
        rw [tree.nested.dir_above upper] at gone
        cases gone
      obtain ⟨d', made, puts, leads'⟩ := makeDir_at tree₁ leads₁ lastSought accepted free
      refine ⟨d', makeDirs_step below parents made, puts.tree, grows.trans puts.grows,
        ⟨links₁, leads'⟩, fun p apart => ?_⟩
      have shorter : p.covers (dir ++ first :: rest) = false := not_covers_upper apart
      rw [puts.looks, if_neg (longer apart), looks p shorter]

/-! What every step of the copy keeps. -/

theorem Laid.refl (tree : Treelike d₁) : Laid d r q d₁ d₁ :=
  ⟨tree, .refl d₁, fun _ => .inl rfl, fun _ _ _ => rfl⟩

/-- What is done stays done. -/
theorem Laid.stays (laid : Laid d r q d₁ d₂) (done : look? d₁ (q ++ x) = look? d (r ++ x)) :
    look? d₂ (q ++ x) = look? d (r ++ x) := by
  rcases laid.under x with same | ⟨-, now⟩
  · exact same.trans done
  · exact now

theorem Laid.trans (first : Laid d r q d₁ d₂) (second : Laid d r q d₂ d₃) : Laid d r q d₁ d₃ where
  tree := second.tree
  grows := first.grows.trans second.grows
  under x := by
    rcases first.under x with same | ⟨there, done⟩
    · rcases second.under x with same' | done
      · exact .inl (same'.trans same)
      · exact .inr done
    · exact .inr ⟨there, second.stays done⟩
  aside p upper lower := (second.aside p upper lower).trans (first.aside p upper lower)

/-- The source shows what it did. -/
theorem Laid.source_kept (laid : Laid d r q d d₁) (fits : Fits d source target r q)
    (x : List String) : look? d₁ (r ++ x) = look? d (r ++ x) := by
  have mine := covers_append r x
  refine laid.aside _ ?_ ?_
  · rw [← Bool.not_eq_true]
    intro upper
    have both := covers_trans mine upper
    rw [fits.beside] at both
    cases both
  · rw [← Bool.not_eq_true]
    intro lower
    rcases covers_or mine lower with both | both
    · rw [fits.beside] at both
      cases both
    · rw [fits.beside'] at both
      cases both

theorem Fits.dir_over (fits : Fits d source target r q) (dir : d.entry? (r ++ x) = some .dir) :
    d.entry? (q ++ x) = none ∨ d.entry? (q ++ x) = some .dir := by
  cases held : d.entry? (q ++ x) with
  | none => exact .inl rfl
  | some e =>
    cases fits.alike x _ e dir held
    exact .inr rfl

theorem Fits.file_over (fits : Fits d source target r q)
    (file : d.entry? (r ++ x) = some (.file id)) :
    d.entry? (q ++ x) = none ∨ ∃ id', d.entry? (q ++ x) = some (.file id') := by
  cases held : d.entry? (q ++ x) with
  | none => exact .inl rfl
  | some e =>
    cases fits.alike x _ e file held
    exact .inr ⟨_, rfl⟩

/-- Where a directory is to be there is nothing or a directory, at any time. -/
theorem Laid.dir_over (laid : Laid d r q d d₁) (fits : Fits d source target r q)
    (dir : d.entry? (r ++ x) = some .dir) :
    d₁.entry? (q ++ x) = none ∨ d₁.entry? (q ++ x) = some .dir := by
  rw [← look?_eq_none, ← look?_eq_dir]
  rcases laid.under x with same | ⟨-, now⟩
  · rw [same, look?_eq_none, look?_eq_dir]
    exact fits.dir_over dir
  · exact .inr (now.trans (look?_eq_dir.mpr dir))

/-- Where a file is to be there is nothing or a file, at any time. -/
theorem Laid.file_over (laid : Laid d r q d d₁) (fits : Fits d source target r q)
    (file : d.entry? (r ++ x) = some (.file id)) :
    d₁.entry? (q ++ x) = none ∨ ∃ id', d₁.entry? (q ++ x) = some (.file id') := by
  rcases laid.under x with same | ⟨-, now⟩
  · rcases fits.file_over file with free | ⟨id', held⟩
    · exact .inl (look?_eq_none.mp (same.trans (look?_eq_none.mpr free)))
    · exact .inr (entry?_of_look_file (same.trans (look?_of_file held)))
  · exact .inr (entry?_of_look_file (now.trans (look?_of_file file)))

/-- What is listed of the source is what stood there. -/
theorem Laid.listed (laid : Laid d r q d d₁) (fits : Fits d source target r q)
    {entry : String × Option Entry} (member : entry ∈ listed d₁ (r ++ x)) :
    entry.2 ≠ none ∧ d.entry? (r ++ (x ++ [entry.1])) = entry.2 := by
  obtain ⟨e, held, same⟩ := mem_listed.mp member
  rw [List.append_assoc] at held
  obtain ⟨e', old⟩ : ∃ e', d.entry? (r ++ (x ++ [entry.1])) = some e' := by
    rw [← Option.ne_none_iff_exists', Ne, ← look?_eq_none, ← laid.source_kept fits,
      look?_eq_none, held]
    nofun
  rw [same, ← held, laid.grows.kept _ _ old, old]
  exact ⟨nofun, rfl⟩

/-- A place under the target comes to show what the source shows there. -/
theorem Laid.puts (puts : Puts d₁ (q ++ x) look d₂) (shown : look? d (r ++ x) = some look) :
    Laid d r q d₁ d₂ where
  tree := puts.tree
  grows := puts.grows
  under y := by
    rw [puts.looks]
    by_cases here : y = x
    · subst here
      exact .inr ⟨by rw [shown]; nofun, by rw [if_pos rfl, shown]⟩
    · exact .inl (if_neg (by simpa using here))
  aside p _ lower := by
    rw [puts.looks, if_neg]
    rintro rfl
    rw [covers_append] at lower
    cases lower

/-- Directories above and at a place where the source has one have been made. -/
theorem Laid.dirs (nested : Nested d) (dir : d.entry? (r ++ x) = some .dir) (tree : Treelike d₂)
    (grows : Grows d₁ d₂) (leads : Leads d₂ Disk.linkLimit [] (target ++ x) links (q ++ x))
    (looks : ∀ p, p.covers (q ++ x) = false → look? d₂ p = look? d₁ p) : Laid d r q d₁ d₂ where
  tree := tree
  grows := grows
  under y := by
    cases covers : Place.covers (q ++ y) (q ++ x) with
    | false => exact .inl (looks _ covers)
    | true =>
      obtain ⟨rest, whole⟩ := covers_iff.mp covers
      rw [List.append_assoc] at whole
      obtain rfl := List.append_cancel_left whole
      have made : d₂.entry? (q ++ (y ++ rest)) = some .dir :=
        walk_stands tree.nested (walk_eq_of_leads leads) rfl
      rw [← List.append_assoc] at made dir
      have here := look?_eq_dir.mpr (tree.nested.dir_above made)
      have there := look?_eq_dir.mpr (nested.dir_above dir)
      exact .inr ⟨by rw [there]; nofun, here.trans there.symm⟩
  aside p upper lower := by
    refine looks p ?_
    rw [← Bool.not_eq_true]
    intro covers
    rcases covers_or covers (covers_append q x) with both | both
    · rw [upper] at both
      cases both
    · rw [lower] at both
      cases both

theorem aims_there (leads : Leads d Disk.linkLimit [] target links q) : Aims d target q := by
  rw [← List.append_nil target, ← List.append_nil q]
  exact .intro leads nofun nofun

/-! The copy of a directory. -/

/-- The entry at and below a place of the source have come to be shown by the copy. -/
def Done (d : Disk) (r q : Place) (x : List String) (d' : Disk) : Prop :=
  ∀ y, d.entry? (r ++ (x ++ y)) ≠ none → look? d' (q ++ (x ++ y)) = look? d (r ++ (x ++ y))

theorem Laid.keeps_done (laid : Laid d r q d₁ d₂) (done : Done d r q x d₁) : Done d r q x d₂ :=
  fun y there => laid.stays (done y there)

/-- A file is copied from one directory to the other. -/
theorem copyFile_lays (fits : Fits d source target r q) (tree : Treelike d) (orderly : Orderly d)
    (laid : Laid d r q d d₁) (leads : Leads d₁ Disk.linkLimit [] (target ++ x) links (q ++ x))
    (dir : d.entry? (r ++ x) = some .dir)
    (file : d.entry? (r ++ (x ++ [name])) = some (.file id)) :
    ∃ d', d₁.copyFile (source ++ (x ++ [name])) (target ++ (x ++ [name])) = .ok d' ∧
      Laid d r q d₁ d' ∧ Done d r q (x ++ [name]) d' := by
  have there : d.entry? (r ++ (x ++ [name])) ≠ none := file ▸ Option.some_ne_none _
  have sought : Sought name := (names_below orderly there).2 name (by simp)
  obtain ⟨takesSource, takesTarget⟩ := fits.takes _ there
  obtain ⟨links', sourceLeads⟩ := leads_to_source tree.nested orderly fits.found laid.grows dir
  have held := laid.grows.kept _ _ file
  have found : d₁.find (source ++ (x ++ [name])) = .ok (r ++ (x ++ [name]), .file id) := by
    rw [← List.append_assoc] at held takesSource ⊢
    rw [Disk.find, locate_child sourceLeads sought takesSource (fun link => by rw [held]; nofun),
      held, List.append_assoc]
    rfl
  have lands : Lands d₁ (target ++ (x ++ [name])) (q ++ (x ++ [name])) := by
    have stood := laid.file_over fits file
    rw [← List.append_assoc] at stood takesTarget ⊢
    rw [← List.append_assoc]
    rcases stood with free | ⟨id', old⟩
    · left
      rw [locate_child leads sought takesTarget (fun link => by rw [free]; nofun), free]
    · right
      refine ⟨id', ?_⟩
      rw [locate_child leads sought takesTarget (fun link => by rw [old]; nofun), old]
  obtain ⟨d', copied, puts⟩ := copyFile_puts laid.tree found lands
  have apart : q ++ (x ++ [name]) ≠ r ++ (x ++ [name]) := by
    intro same
    have covers := fits.beside
    rw [List.append_cancel_right same, covers_self] at covers
    cases covers
  have shown : look? d (r ++ (x ++ [name])) = some (.file (d₁.content id)) := by
    rw [← laid.source_kept fits, look?_of_file held]
  rw [if_neg apart] at puts
  refine ⟨d', copied, .puts puts shown, fun y below => ?_⟩
  by_cases here : y = []
  · subst here
    rw [List.append_nil, puts.looks, if_pos rfl, shown]
  · rw [← List.append_assoc, ← List.append_assoc, List.append_assoc r] at below
    have upper := tree.nested.above below here
    rw [file] at upper
    cases upper

theorem copyEntries_lays (fits : Fits d source target r q) (tree : Treelike d)
    (orderly : Orderly d) {deeper : Place → Place → Act IoError Unit}
    (enters : ∀ name s, Laid d r q d s.disk → d.entry? (r ++ (x ++ [name])) = some .dir →
      Aims s.disk (target ++ (x ++ [name])) (q ++ (x ++ [name])) →
      ∃ d', (deeper (source ++ (x ++ [name])) (target ++ (x ++ [name]))).start s =
          some (.ok (), { s with disk := d' }) ∧
        Laid d r q s.disk d' ∧ Done d r q (x ++ [name]) d')
    (dir : d.entry? (r ++ x) = some .dir) (entries : List (String × Option Entry))
    (known : ∀ entry ∈ entries, entry.2 ≠ none ∧ d.entry? (r ++ (x ++ [entry.1])) = entry.2)
    (laid : Laid d r q d s.disk)
    (leads : Leads s.disk Disk.linkLimit [] (target ++ x) links (q ++ x)) :
    ∃ d', (Cp.copyTree.copyEntries deeper (source ++ x) (target ++ x) entries).start s =
        some (.ok (), { s with disk := d' }) ∧
      Laid d r q s.disk d' ∧ ∀ entry ∈ entries, Done d r q (x ++ [entry.1]) d' := by
  induction entries generalizing s with
  | nil => exact ⟨s.disk, rfl, .refl laid.tree, nofun⟩
  | cons entry entries ih =>
    obtain ⟨name, kind⟩ := entry
    obtain ⟨⟨some, first⟩, others⟩ := List.forall_mem_cons.mp known
    dsimp only at some first
    -- What comes after the first entry keeps what was done for it.
    have goesOn (d₁ : Disk) (now : Laid d r q s.disk d₁) (done : Done d r q (x ++ [name]) d₁) :
        ∃ d', (Cp.copyTree.copyEntries deeper (source ++ x) (target ++ x) entries).start
            { s with disk := d₁ } = .some (.ok (), { s with disk := d' }) ∧
          Laid d r q s.disk d' ∧
          ∀ entry ∈ (name, kind) :: entries, Done d r q (x ++ [entry.1]) d' := by
      obtain ⟨d', ran, later, dones⟩ := ih (s := { s with disk := d₁ }) others (laid.trans now)
        (leads_more now.grows.kept leads)
      exact ⟨d', ran, now.trans later, List.forall_mem_cons.mpr ⟨later.keeps_done done, dones⟩⟩
    cases kind with
    | none => exact absurd rfl some
    | some e =>
      cases e with
      | link link => exact absurd first (fits.plain _ link)
      | file id =>
        obtain ⟨d₁, copied, now, done⟩ := copyFile_lays fits tree orderly laid leads dir first
        rw [start_copyEntries_other _ _ _ _ (by simp), List.append_assoc, List.append_assoc, copied]
        exact goesOn d₁ now done
      | dir =>
        have there : d.entry? (r ++ (x ++ [name])) ≠ none := first ▸ Option.some_ne_none _
        have sought : Sought name := (names_below orderly there).2 name (by simp)
        have aims : Aims s.disk (target ++ (x ++ [name])) (q ++ (x ++ [name])) := by
          have stood := laid.dir_over fits first
          rw [← List.append_assoc] at stood ⊢
          rw [← List.append_assoc]
          rcases stood with free | made
          · exact .intro leads (by simpa using sought) (by simpa using free)
          · exact aims_there (leads.append (.down sought made .here))
        obtain ⟨d₁, ran, now, done⟩ := enters name s laid first aims
        rw [start_copyEntries_dir, List.append_assoc, List.append_assoc, ran]
        exact goesOn d₁ now done

theorem length_le_width (p : Place) : p.length ≤ p.width := by
  have counted (names : List String) (n : Nat) :
      n + names.length ≤ names.foldl (fun n name => n + 1 + name.utf8ByteSize) n := by
    induction names generalizing n with
    | nil => exact Nat.le_refl n
    | cons name names ih =>
      rw [List.length_cons, List.foldl_cons]
      have rest := ih (n + 1 + name.utf8ByteSize)
      omega
  have all := counted p 0
  rw [Place.width]
  omega

theorem copyTree_lays (fits : Fits d source target r q) (tree : Treelike d) (orderly : Orderly d)
    (fuel : Nat) (x : List String) (s : Session) (deep : Disk.pathLimit ≤ fuel + x.length)
    (laid : Laid d r q d s.disk) (dir : d.entry? (r ++ x) = some .dir)
    (aims : Aims s.disk (target ++ x) (q ++ x)) :
    ∃ d', (Cp.copyTree fuel (source ++ x) (target ++ x)).start s =
        some (.ok (), { s with disk := d' }) ∧
      Laid d r q s.disk d' ∧ Done d r q x d' := by
  obtain ⟨takesSource, takesTarget⟩ := fits.takes x (dir ▸ Option.some_ne_none _)
  induction fuel generalizing x s with
  | zero =>
    -- A place as deep as that has no path that the system takes.
    have wide := length_le_width (source ++ x)
    have short := takesSource.short
    rw [List.length_append] at wide
    omega
  | succ fuel ih =>
    obtain ⟨d₁, made, tree₁, grows, ⟨links, leads⟩, looks⟩ :=
      makeDirs_aims laid.tree aims takesTarget
    have now : Laid d r q s.disk d₁ := .dirs tree.nested dir tree₁ grows leads looks
    have sofar := laid.trans now
    obtain ⟨links', sourceLeads⟩ := leads_to_source tree.nested orderly fits.found sofar.grows dir
    have found : d₁.find (source ++ x) = .ok (r ++ x, .dir) := by
      rw [Disk.find, locate_of_accepted takesSource, walk_eq_of_leads sourceLeads]
      rfl
    obtain ⟨d', ran, later, dones⟩ := @copyEntries_lays d source target r q x links
      { s with disk := d₁ } fits tree orderly (Cp.copyTree fuel)
      (fun name s laid dir aims => by
        obtain ⟨takesSource, takesTarget⟩ := fits.takes _ (dir ▸ Option.some_ne_none _)
        exact ih (x ++ [name]) s (by simp; omega) laid dir aims takesSource takesTarget)
      dir (listed d₁ (r ++ x)) (fun _ => sofar.listed fits) sofar leads
    refine ⟨d', ?_, now.trans later, ?_⟩
    · rw [start_copyTree, made]
      simp only [found, if_true]
      exact ran
    · rintro (_ | ⟨name, y⟩) there
      · have made : d₁.entry? (q ++ x) = some .dir :=
          walk_stands tree₁.nested (walk_eq_of_leads leads) rfl
        rw [List.append_nil, look?_eq_dir.mpr (later.grows.kept _ _ made), look?_eq_dir.mpr dir]
      · rw [List.append_cons] at there ⊢
        rw [← List.append_assoc] at there
        obtain ⟨e, held⟩ := Option.ne_none_iff_exists'.mp (tree.nested.held_above there)
        have listed : (name, some e) ∈ listed d₁ (r ++ x) :=
          mem_listed.mpr ⟨e, by simpa using sofar.grows.kept _ _ held, rfl⟩
        rw [List.append_assoc] at there
        exact dones _ listed y there

/-! The order in which a directory is listed. -/

/-- The same disk with its entries in another order. -/
def reordered (d : Disk) (entries : List (Place × Entry)) : Disk := { d with entries }

variable {entries : List (Place × Entry)}

theorem entry?_reordered (orderly : Orderly d) (order : entries.Perm d.entries) (p : Place) :
    Disk.entry? (reordered d entries) p = d.entry? p := by
  have once : (entries.map Prod.fst).Nodup := (order.map Prod.fst).nodup_iff.mpr orderly.once
  have found (d₁ d₂ : Disk) (once : (d₂.entries.map Prod.fst).Nodup)
      (order : d₁.entries.Perm d₂.entries) {e : Entry} (held : d₁.entry? p = some e) :
      d₂.entry? p = some e := by
    by_cases top : p = []
    · rw [← held, top, entry?_nil, entry?_nil]
    · have member := order.mem_iff.mp (mem_of_held held top)
      obtain ⟨e', there⟩ := Option.ne_none_iff_exists'.mp (entry?_of_mem member)
      have same := List.inj_on_of_nodup_map once member (mem_of_held there top) rfl
      rw [there, ← (Prod.mk.inj same).2]
  cases held : d.entry? p with
  | some e => exact found d (reordered d entries) once order.symm held
  | none =>
    by_contra other
    obtain ⟨e, there⟩ := Option.ne_none_iff_exists'.mp other
    rw [found (reordered d entries) d orderly.once order there] at held
    cases held

theorem look?_reordered (orderly : Orderly d) (order : entries.Perm d.entries) (p : Place) :
    look? (reordered d entries) p = look? d p := by
  rw [look?, look?, entry?_reordered orderly order]
  rfl

theorem treelike_reordered (tree : Treelike d) (orderly : Orderly d)
    (order : entries.Perm d.entries) : Treelike (reordered d entries) := by
  have same := entry?_reordered orderly order
  constructor
  · intro p name held
    rw [same] at held ⊢
    exact tree.nested p name held
  · intro p p' id held held'
    rw [same] at held held'
    exact tree.single p p' id held held'
  · intro p id held
    rw [same] at held
    exact tree.sound p id held

theorem fits_reordered (fits : Fits d source target r q) (orderly : Orderly d)
    (order : entries.Perm d.entries) : Fits (reordered d entries) source target r q := by
  have same := entry?_reordered orderly order
  have grows : Grows d (reordered d entries) :=
    ⟨fun p e held => (same p).trans held, fun p link held => (same p).symm.trans held⟩
  refine ⟨find_grown grows fits.found, ?_, fits.beside, fits.beside', ?_, ?_, ?_⟩
  · obtain ⟨leads, sought, missing⟩ := fits.aims
    exact .intro (leads_more grows.kept leads) sought fun name first =>
      (same _).trans (missing name first)
  · intro x link held
    exact fits.plain x link ((same _).symm.trans held)
  · intro x e e' held held'
    exact fits.alike x e e' ((same _).symm.trans held) ((same _).symm.trans held')
  · intro x held
    rw [same] at held
    exact fits.takes x held

/-- A tree that fits is copied whole. Afterwards the target shows what the source does,
and elsewhere what it did; all that is not under the target shows what it did, but for
the directories above it, which are there. In whatever order the disk lists its entries,
every place shows the same in the end. -/
theorem tree_is_laid_over_target (source target : Place) (s : Session) {r q : Place}
    (tree : Treelike s.disk) (orderly : Orderly s.disk) (fits : Fits s.disk source target r q)
    (entries : List (Place × Entry)) (order : entries.Perm s.disk.entries) :
    ∃ d', (Cp.copyTree Disk.pathLimit source target).start
        { s with disk := reordered s.disk entries } = some (.ok (), { s with disk := d' }) ∧
      Overlaid s.disk r q d' := by
  have tree₁ := treelike_reordered tree orderly order
  have fits₁ := fits_reordered fits orderly order
  have orderly₁ : Orderly (reordered s.disk entries) :=
    ⟨fun p e member => orderly.named p e (order.mem_iff.mp member),
      (order.map Prod.fst).nodup_iff.mpr orderly.once⟩
  have looks := look?_reordered orderly order
  have dir := entry?_of_find tree₁.nested fits₁.found
  obtain ⟨d', ran, laid, done⟩ := copyTree_lays fits₁ tree₁ orderly₁ Disk.pathLimit []
    { s with disk := reordered s.disk entries } (Nat.le_refl _) (.refl tree₁)
    (by rwa [List.append_nil]) (by simpa using fits₁.aims)
  rw [List.append_nil, List.append_nil] at ran
  have shown (x : List String) :
      look? d' (q ++ x) = (look? s.disk (r ++ x)).or (look? s.disk (q ++ x)) := by
    rw [← looks, ← looks]
    cases there : look? (reordered s.disk entries) (r ++ x) with
    | none =>
      rcases laid.under x with same | ⟨held, -⟩
      · rw [same, Option.none_or]
      · exact absurd there held
    | some look =>
      rw [Option.some_or, ← there]
      exact done x (mt look?_eq_none.mpr (by simp [there]))
  have made : look? d' q = some .dir := by
    have whole := done [] (by simp [dir])
    rw [List.append_nil, List.append_nil, List.append_nil] at whole
    exact whole.trans (look?_eq_dir.mpr dir)
  refine ⟨d', ran, shown, fun p covers => ?_, fun p upper lower => ?_⟩
  · obtain ⟨rest, below⟩ := covers_iff.mp covers
    rw [look?_eq_dir] at made ⊢
    exact laid.tree.nested.dir_above (below ▸ made)
  · exact (laid.aside p upper lower).trans (looks p)

/-- A tree, another with some of its names, and a link to that one. -/
def pair : Session where
  disk :=
    { entries := [(["s"], .dir), (["s", "f"], .file 0), (["s", "e"], .dir),
        (["s", "e", "g"], .file 1), (["t"], .dir), (["t", "f"], .file 2), (["t", "e"], .dir),
        (["t", "e", "h"], .file 3), (["l"], .link "t")]
      contents := [Text.bytes "x", Text.bytes "y", Text.bytes "old", Text.bytes "z"] }

theorem pair_fits : Fits pair.disk ["s"] ["l"] ["s"] ["t"] := by
  have leads : pair.disk.locate true ["l"] = .ok (.found ["t"] .dir) := by decide +kernel
  obtain ⟨links, leads⟩ := leads_of_walk (walk_of_locate leads)
  have kinds : ∀ x ∈ below pair.disk ["s"],
      (pair.disk.entry? (["s"] ++ x), pair.disk.entry? (["t"] ++ x)) ∈
        [(some .dir, some .dir), (some (.file 0), some (.file 2)), (some (.file 1), none)] := by
    decide
  have taken : ∀ x ∈ below pair.disk ["s"], Accepted (["s"] ++ x) ∧ Accepted (["l"] ++ x) := by
    decide +kernel
  refine ⟨by decide +kernel, aims_there leads, by decide, by decide, ?_, ?_,
    fun x held => taken x (mem_below.mpr held)⟩
  · intro x link held
    have kind := kinds x (mem_below.mpr (by rw [held]; nofun))
    rw [held] at kind
    simp at kind
  · intro x e e' held held'
    have kind := kinds x (mem_below.mpr (by rw [held]; nofun))
    rw [held, held'] at kind
    simp at kind
    rcases kind with ⟨rfl, rfl⟩ | ⟨rfl, rfl⟩
    · exact .dirs
    · exact .files 0 2

/-- The tree is laid over the other behind the link: one file is written over, one is
new, and what only the other tree has stays. The disk lists its entries backwards. -/
theorem tree_laid_over_linked_one :
    (Treelike pair.disk ∧ Orderly pair.disk ∧ Fits pair.disk ["s"] ["l"] ["s"] ["t"] ∧
      pair.disk.entries.reverse.Perm pair.disk.entries) ∧
    ∃ d', (Cp.copyTree Disk.pathLimit ["s"] ["l"]).start
        { pair with disk := reordered pair.disk pair.disk.entries.reverse } =
          some (.ok (), { pair with disk := d' }) ∧
      Overlaid pair.disk ["s"] ["t"] d' ∧
      look? d' ["t", "f"] = some (.file (Text.bytes "x")) ∧
      look? d' ["t", "e", "g"] = some (.file (Text.bytes "y")) ∧
      look? d' ["t", "e", "h"] = some (.file (Text.bytes "z")) ∧
      look? d' ["l"] = some (.link "t") := by
  have tree : Treelike pair.disk := by decide
  have orderly : Orderly pair.disk := by decide
  have order : pair.disk.entries.reverse.Perm pair.disk.entries := List.reverse_perm _
  obtain ⟨d', ran, overlaid⟩ :=
    tree_is_laid_over_target ["s"] ["l"] pair tree orderly pair_fits _ order
  refine ⟨⟨tree, orderly, pair_fits, order⟩, d', ran, overlaid, ?_, ?_, ?_, ?_⟩
  · exact (overlaid.under ["f"]).trans (by decide)
  · exact (overlaid.under ["e", "g"]).trans (by decide)
  · exact (overlaid.under ["e", "h"]).trans (by decide)
  · exact (overlaid.aside ["l"] (by decide) (by decide)).trans (by decide)

theorem makeDirs_overlong (d : Disk) : d.makeDirs [overlong] = (d, some .nameTooLong) := by
  -- the name is a variable here: its text would be evaluated otherwise
  have refused (name : String) (h : ∀ follow, d.locate follow [name] = .error .nameTooLong) :
      d.makeDirs [name] = (d, some .nameTooLong) := by
    simp [Disk.makeDirs, Disk.makeDirsUp, Disk.makeDir, Disk.isDir, Disk.endsAtDir, h, bind,
      Except.bind]
  exact refused overlong (locate_overlong d)

/-- An empty directory. -/
def lone : Session where
  disk := { entries := [(["s"], .dir)] }

/-- Two trees that hold one file under two names. -/
def twins : Session where
  disk :=
    { entries := [(["s"], .dir), (["s", "f"], .file 0), (["d"], .dir), (["d", "f"], .file 0)]
      contents := [Text.bytes "x"] }

theorem twins_fit : Fits twins.disk ["s"] ["d"] ["s"] ["d"] := by
  have leads : twins.disk.locate true ["d"] = .ok (.found ["d"] .dir) := by decide +kernel
  obtain ⟨links, leads⟩ := leads_of_walk (walk_of_locate leads)
  have kinds : ∀ x ∈ below twins.disk ["s"],
      (twins.disk.entry? (["s"] ++ x), twins.disk.entry? (["d"] ++ x)) ∈
        [(some .dir, some .dir), (some (.file 0), some (.file 0))] := by
    decide
  have taken : ∀ x ∈ below twins.disk ["s"], Accepted (["s"] ++ x) ∧ Accepted (["d"] ++ x) := by
    decide +kernel
  refine ⟨by decide +kernel, aims_there leads, by decide, by decide, ?_, ?_,
    fun x held => taken x (mem_below.mpr held)⟩
  · intro x link held
    have kind := kinds x (mem_below.mpr (by rw [held]; nofun))
    rw [held] at kind
    simp at kind
  · intro x e e' held held'
    have kind := kinds x (mem_below.mpr (by rw [held]; nofun))
    rw [held, held'] at kind
    simp at kind
    rcases kind with ⟨rfl, rfl⟩ | ⟨rfl, rfl⟩
    · exact .dirs
    · exact .files 0 0

/-- The copy of a tree over another that shares a file with it empties the file. -/
theorem copy_empties_shared_file :
    (Cp.copyTree Disk.pathLimit ["s"] ["d"]).start twins =
      some (.ok (), { twins with disk := { twins.disk with contents := [[]] } }) := by
  decide +kernel

/-- Nothing but the length of its name is in the way of one target, and the copy fails. Nothing but a
file that stands in both trees is in the way of the other, and the copy empties the file. -/
theorem overlong_target_fails_and_shared_file_is_emptied :
    ((Treelike lone.disk ∧ Orderly lone.disk ∧ lone.disk.find ["s"] = .ok (["s"], .dir) ∧
        Place.covers ["s"] [overlong] = false ∧ Place.covers [overlong] ["s"] = false ∧
        (∀ x link, lone.disk.entry? (["s"] ++ x) ≠ some (.link link)) ∧
        ∀ x, lone.disk.entry? ([overlong] ++ x) = none) ∧
      (Cp.copyTree Disk.pathLimit ["s"] [overlong]).start lone =
        some (.error .nameTooLong, lone)) ∧
    (Nested twins.disk ∧ Sound twins.disk ∧ Orderly twins.disk ∧
      Fits twins.disk ["s"] ["d"] ["s"] ["d"]) ∧
    (Cp.copyTree Disk.pathLimit ["s"] ["d"]).start twins =
      some (.ok (), { twins with disk := { twins.disk with contents := [[]] } }) := by
  have tree : Treelike lone.disk := by decide
  have none : lone.disk.entry? [overlong] = none := by decide +kernel
  refine ⟨⟨⟨tree, by decide, by decide +kernel, by decide +kernel, by decide +kernel, ?_, ?_⟩, ?_⟩,
    ⟨by decide, by decide, by decide, twins_fit⟩, copy_empties_shared_file⟩
  · intro x link held
    have member := mem_of_held held (by simp)
    simp [lone] at member
  · intro x
    by_contra held
    exact tree.nested.held_above held none
  · have steps : Disk.pathLimit = 4095 + 1 := rfl
    rw [steps, start_copyTree, makeDirs_overlong]

end LineShell.OverlaidTrees
