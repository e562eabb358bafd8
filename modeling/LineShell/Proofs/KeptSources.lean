import Mathlib.Data.List.Infix
import LineShell.Proofs.CopySteps

/-! What `cp` does to its source. Source and destination are compared as they are
spelled, so a link can hide that a copy goes back into what is copied. What is copied
stays as it is if no path of the copy leads there; a file is emptied if the path that
it is copied to leads back to it. -/
namespace LineShell.KeptSources
open CopySteps DenotedEntries DiskTrees ExtendedPaths GrownDisks OpenedTargets PathNames
open ResolvedPaths StepAgreement WalkedPaths

/-- What is copied from `r` to the path `target` does not go back to `r`. New entries
stand elsewhere, and so do the files that are written over; and where a path of the copy
goes through a link, that does not lead on through something that is missing. -/
structure Beside (d : Disk) (r target : Place) : Prop where
  free : ∀ x z q, d.entry? (r ++ x) ≠ none → z <+: target ++ x →
    d.locate true z = .ok (.free q) → r.covers q = false
  file : ∀ x q id, d.entry? (r ++ x) ≠ none → d.entry? (r ++ x) ≠ some .dir →
    d.locate true (target ++ x) = .ok (.found q (.file id)) → r.covers q = false
  whole : ∀ x z name, d.entry? (r ++ x) ≠ none → z ++ [name] <+: target ++ x →
    d.isDir z = true → d.locate true (z ++ [name]) ≠ .error .notFound

/-- The path `source` leads to the entry `e` at `r`, and `target` is to be its copy's. -/
structure Copy (d : Disk) (source target r : Place) (e : Entry) : Prop where
  nested : Nested d
  orderly : Orderly d
  normal : Normal target
  found : d.find source = .ok (r, e)

/-- The disk `d'` has grown from `d`; if the copy does not go back to `r`, all at and
below `r` shows what it did. -/
structure Kept (d : Disk) (r target : Place) (d' : Disk) : Prop where
  tree : Treelike d'
  grows : Grows d d'
  looks : Beside d r target → ∀ p, r.covers p = true → look? d' p = look? d p

/-- The path that `src` is copied to. -/
def destination? (s : Session) (src dest : String) : Option Place :=
  Cp.target? (Path.resolve s.cwd src) (Path.resolve s.cwd dest)
    (s.disk.isDir (Path.resolve s.cwd dest))

/-- Where a walk ended. -/
def placeOf : Spot → Place
  | .found p _ => p
  | .free p => p

variable {d d₁ d' : Disk} {source target r q z : Place} {x : List String} {e : Entry} {look : Look}
  {name : String} {links : Nat} {s : Session} {o : Options} {src dest : String}

/-! The condition can be computed. -/

/-- Whether a file that is written where a walk ended stands outside `r`. -/
def outside (r : Place) (old : Bool) : Except IoError Spot → Bool
  | .ok (.free q) => !r.covers q
  | .ok (.found q (.file _)) => old || !r.covers q
  | _ => true

instance : Decidable (Beside d r target) :=
  decidable_of_iff (∀ x ∈ below d r,
    outside r (d.entry? (r ++ x) = some .dir) (d.locate true (target ++ x)) = true ∧
    ∀ z ∈ (target ++ x).inits, outside r true (d.locate true z) = true ∧
      (z ≠ [] → d.isDir z.dropLast = true → d.locate true z ≠ .error .notFound)) <| by
    constructor
    · intro clear
      refine ⟨fun x z q held part free => ?_, fun x q id held other found => ?_,
        fun x z name held part dir => ?_⟩
      · have ended := ((clear x (mem_below.mpr held)).2 z ((List.mem_inits _ _).mpr part)).1
        rw [free] at ended
        simpa [outside] using ended
      · have ended := (clear x (mem_below.mpr held)).1
        rw [found] at ended
        simpa [outside, other] using ended
      · have goes := ((clear x (mem_below.mpr held)).2 _ ((List.mem_inits _ _).mpr part)).2
        exact goes (by simp) (by simpa using dir)
    · intro beside x member
      have held := mem_below.mp member
      have free (z : Place) (part : z <+: target ++ x) (old : Bool)
          (file : ∀ q id, d.locate true z = .ok (.found q (.file id)) → old = false →
            r.covers q = false) : outside r old (d.locate true z) = true := by
        cases ended : d.locate true z with
        | error e => rfl
        | ok spot =>
          rcases spot with ⟨q, _ | _ | _⟩ | q
          · cases old with
            | true => rfl
            | false => simp [outside, file q _ ended rfl]
          · rfl
          · rfl
          · simp [outside, beside.free x z q held part ended]
      refine ⟨free _ (List.prefix_refl _) _ fun q id found other =>
        beside.file x q id held (by simpa using other) found, fun z part => ?_⟩
      have part := (List.mem_inits _ _).mp part
      refine ⟨free z part true nofun, fun some dir => ?_⟩
      obtain ⟨before, name, rfl⟩ : ∃ before name, z = before ++ [name] :=
        ⟨z.dropLast, z.getLast some, (List.dropLast_append_getLast some).symm⟩
      rw [List.dropLast_concat] at dir
      exact beside.whole x before name held part dir

/-! Where the paths of a copy lead while it goes on. -/

theorem Copy.held (copy : Copy d source target r e) : d.entry? r ≠ none := by
  rw [entry?_of_find copy.nested copy.found]
  nofun

/-- In a directory that is new every name is, and none of them is a link. -/
theorem walk_new (nested : Nested d) (grows : Grows d d') (proper : Path.isName name = true)
    (missing : d.entry? q = none) {spot : Spot} (ran : d'.walk true links q [name] = .ok spot) :
    placeOf spot = q ++ [name] ∧ d.entry? (q ++ [name]) = none := by
  have vacant : d.entry? (q ++ [name]) = none := by
    by_contra held
    rw [nested q name held] at missing
    cases missing
  obtain ⟨-, notHere, notUp, -⟩ := isName_iff.mp proper
  refine ⟨?_, vacant⟩
  cases passes_of_walk ran with
  | stay => exact absurd rfl notHere
  | up => exact absurd rfl notUp
  | down _ _ onwards =>
    rw [walk_nil] at onwards
    cases onwards
    rfl
  | link _ found _ =>
    rw [grows.plain _ _ found] at vacant
    cases vacant
  | last _ _ _ ends =>
    cases ends
    rfl
  | free ends =>
    cases ends
    rfl

/-- A path of the copy leads where it did before, or beside `r` to where nothing was. -/
theorem Copy.located (copy : Copy d source target r e) (beside : Beside d r target)
    (grows : Grows d d') (there : d.entry? (r ++ x) ≠ none) (part : z <+: target ++ x) {spot : Spot}
    (ran : d'.locate true z = .ok spot) :
    d.locate true z = .ok spot ∨
      r.covers (placeOf spot) = false ∧ d.entry? (placeOf spot) = none := by
  induction z using List.reverseRecOn generalizing spot with
  | nil => exact .inl ran
  | append_singleton z name ih =>
    have later := locate_later grows true (z ++ [name])
    rw [ran] at later
    generalize old : d.locate true (z ++ [name]) = before at later
    cases later with
    | same => exact .inl rfl
    | taken q e =>
      obtain ⟨-, _, _, -, -, vacant⟩ := located_free copy.nested old
      exact .inr ⟨beside.free x _ q there part old, vacant⟩
    | missing =>
      -- The directory of the last name was not there, so it stands where nothing was.
      obtain ⟨links, q, leads, ends⟩ :=
        leads_of_walk_append (List.cons_ne_nil _ _) (walk_of_locate ran)
      have dirNow : d'.locate true z = .ok (.found q .dir) :=
        (locate_of_accepted (accepted_of_locate ran).first).trans (walk_eq_of_leads leads)
      rcases ih ((List.prefix_append _ _).trans part) dirNow with before | ⟨outside, missing⟩
      · have dirBefore : d.isDir z = true := by rw [Disk.isDir, before]; rfl
        exact absurd old (beside.whole x z name there part dirBefore)
      · have proper : Path.isName name = true := by
          refine normal_append.mpr ⟨copy.normal, (names_below copy.orderly there).1⟩ name ?_
          exact part.subset (by simp)
        obtain ⟨here, vacant⟩ := walk_new copy.nested grows proper missing ends
        rw [here]
        refine .inr ⟨?_, vacant⟩
        rw [← Bool.not_eq_true]
        intro covers
        rcases covers_concat covers with above | rfl
        · exact absurd above (Bool.not_eq_true _ ▸ outside)
        · exact copy.held vacant

/-! What every step of a copy keeps. -/

theorem Kept.start (tree : Treelike d) : Kept d r target d := ⟨tree, .refl d, fun _ _ _ => rfl⟩

theorem Kept.puts (kept : Kept d r target d₁) (puts : Puts d₁ q look d')
    (outside : Beside d r target → r.covers q = false) : Kept d r target d' where
  tree := puts.tree
  grows := kept.grows.trans puts.grows
  looks beside p below := by
    rw [puts.looks, if_neg, kept.looks beside p below]
    rintro rfl
    rw [outside beside] at below
    cases below

theorem Kept.copyFile (kept : Kept d r target d₁) (copy : Copy d source target r e)
    (there : Beside d r target → d.entry? (r ++ x) ≠ none ∧ d.entry? (r ++ x) ≠ some .dir)
    (lands : Lands d₁ (target ++ x) q) (puts : Puts d₁ q look d') : Kept d r target d' := by
  refine kept.puts puts fun beside => ?_
  obtain ⟨held, other⟩ := there beside
  rcases lands with free | ⟨id, found⟩
  · rcases copy.located beside kept.grows held (List.prefix_refl _) free with old | ⟨outside, -⟩
    · exact beside.free x _ q held (List.prefix_refl _) old
    · exact outside
  · rcases copy.located beside kept.grows held (List.prefix_refl _) found with old | ⟨outside, -⟩
    · exact beside.file x q id held other old
    · exact outside

theorem Kept.makeDirs (kept : Kept d r target d₁) (copy : Copy d source target r e)
    (there : Beside d r target → d.entry? (r ++ x) ≠ none) :
    Kept d r target (d₁.makeDirs (target ++ x)).1 := by
  refine makeDirs_keeps (fun d₂ z q kept part free => ?_) d₁ kept
  refine kept.puts (puts_dir kept.tree free).2 fun beside => ?_
  have held := there beside
  obtain ⟨follows, -⟩ := located_free kept.tree.nested free
  rcases copy.located beside kept.grows held part follows with old | ⟨outside, -⟩
  · exact beside.free x z q held part old
  · exact outside

/-! A tree is copied. -/

theorem Copy.real (copy : Copy d source target r .dir) (grows : Grows d d₁)
    (dir : d.entry? (r ++ x) = some .dir) (found : d₁.find (source ++ x) = .ok (q, e)) :
    q = r ++ x := by
  have located := require_eq_ok_iff.mp found
  obtain ⟨links, leads⟩ := leads_to_source copy.nested copy.orderly copy.found grows dir
  rw [locate_of_accepted (accepted_of_locate located), walk_eq_of_leads leads] at located
  cases located
  rfl

/-- What is listed of the directory is what stood there before the copy. -/
theorem Kept.listed (kept : Kept d r target d₁) (beside : Beside d r target)
    {entry : String × Option Entry} (member : entry ∈ listed d₁ (r ++ x)) :
    d.entry? (r ++ (x ++ [entry.1])) ≠ none ∧
      (entry.2 = some .dir ↔ d.entry? (r ++ (x ++ [entry.1])) = some .dir) := by
  obtain ⟨e, held, same⟩ := mem_listed.mp member
  rw [List.append_assoc] at held
  have looks := kept.looks beside _ (covers_append r (x ++ [entry.1]))
  constructor
  · rw [Ne, ← look?_eq_none, ← looks, look?_eq_none, held]
    nofun
  · rw [same, ← held, ← look?_eq_dir, looks, look?_eq_dir]

theorem copyEntries_keeps (copy : Copy d source target r .dir)
    {deeper : Place → Place → Act IoError Unit}
    (enters : ∀ x s, Kept d r target s.disk → (Beside d r target → d.entry? (r ++ x) = some .dir) →
      ∃ result d', (deeper (source ++ x) (target ++ x)).start s =
        some (result, { s with disk := d' }) ∧ Kept d r target d')
    (entries : List (String × Option Entry))
    (known : ∀ entry ∈ entries, Beside d r target → d.entry? (r ++ (x ++ [entry.1])) ≠ none ∧
      (entry.2 = some .dir ↔ d.entry? (r ++ (x ++ [entry.1])) = some .dir))
    (kept : Kept d r target s.disk) :
    ∃ result d', (Cp.copyTree.copyEntries deeper (source ++ x) (target ++ x) entries).start s =
      some (result, { s with disk := d' }) ∧ Kept d r target d' := by
  induction entries generalizing s with
  | nil => exact ⟨_, s.disk, rfl, kept⟩
  | cons entry entries ih =>
    obtain ⟨name, kind⟩ := entry
    obtain ⟨first, others⟩ := List.forall_mem_cons.mp known
    by_cases dir : kind = some .dir
    · subst dir
      obtain ⟨result, d₁, ran, entered⟩ :=
        enters (x ++ [name]) s kept fun beside => (first beside).2.mp rfl
      rw [← List.append_assoc, ← List.append_assoc] at ran
      rw [start_copyEntries_dir, ran]
      cases result with
      | error e => exact ⟨_, d₁, rfl, entered⟩
      | ok _ => exact ih (s := { s with disk := d₁ }) others entered
    · rw [start_copyEntries_other _ _ _ _ dir]
      rcases copyFile_cases kept.tree (source ++ x ++ [name]) (target ++ x ++ [name]) with
        ⟨_, _, q, d₁, -, lands, copied, puts⟩ | ⟨⟨e, failed⟩, -⟩
      · rw [copied]
        rw [List.append_assoc] at lands
        have copied' := kept.copyFile copy
          (fun beside => ⟨(first beside).1, mt (first beside).2.mpr dir⟩) lands puts
        exact ih (s := { s with disk := d₁ }) others copied'
      · rw [failed]
        exact ⟨_, s.disk, rfl, kept⟩

theorem copyTree_keeps (copy : Copy d source target r .dir) (fuel : Nat) (x : List String)
    (s : Session) (kept : Kept d r target s.disk)
    (there : Beside d r target → d.entry? (r ++ x) = some .dir) :
    ∃ result d', (Cp.copyTree fuel (source ++ x) (target ++ x)).start s =
      some (result, { s with disk := d' }) ∧ Kept d r target d' := by
  induction fuel generalizing x s with
  | zero => exact ⟨_, s.disk, rfl, kept⟩
  | succ fuel ih =>
    have made := kept.makeDirs (x := x) copy fun beside => there beside ▸ Option.some_ne_none _
    rw [start_copyTree]
    generalize s.disk.makeDirs (target ++ x) = ended at made
    obtain ⟨d₁, _ | e⟩ := ended
    · dsimp only at made ⊢
      cases found : d₁.find (source ++ x) with
      | error e => exact ⟨_, d₁, rfl, made⟩
      | ok held =>
        obtain ⟨real, kind⟩ := held
        dsimp only
        split
        · refine copyEntries_keeps copy ih _ (fun entry member beside => ?_) made
          rw [copy.real made.grows (there beside) found] at member
          exact made.listed beside member
        · exact ⟨_, d₁, rfl, made⟩
    · exact ⟨_, d₁, rfl, made⟩

/-! One source. -/

/-- What a copy of `e`, which stands at `r`, may leave. A file is emptied if the path of
its copy, spelled in another way, leads to it. -/
structure Spared (d : Disk) (source target r : Place) (e : Entry) (d' : Disk) : Prop where
  kept : Kept d r target d'
  file : ∀ id, e = .file id → look? d' r = some (.file
    (if target ≠ source ∧ d.locate true target = .ok (.found r e) then [] else d.content id))

/-- Where nothing is done. -/
theorem Spared.refuses (tree : Treelike d) (found : d.find source = .ok (r, e))
    (safe : ∀ id, e = .file id → target ≠ source → d.locate true target ≠ .ok (.found r e)) :
    Spared d source target r e d where
  kept := .start tree
  file id same := by
    rw [if_neg fun ⟨other, back⟩ => safe id same other back]
    subst same
    exact look?_of_file (entry?_of_find tree.nested found)

/-- A file is copied. -/
theorem Spared.copies {id : FileId} (tree : Treelike d) (copy : Copy d source target r (.file id))
    (other : target ≠ source) (lands : Lands d target q)
    (puts : Puts d q (.file (if q = r then [] else d.content id)) d') :
    Spared d source target r (.file id) d' where
  kept := by
    have held := entry?_of_find tree.nested copy.found
    rw [← List.append_nil target] at lands
    exact (Kept.start tree).copyFile copy (fun _ => by simp [held]) lands puts
  file id' same := by
    cases same
    have held := entry?_of_find tree.nested copy.found
    have back : d.locate true target = .ok (.found r (.file id)) ↔ q = r := by
      rcases lands with free | ⟨id', found⟩
      · obtain ⟨-, _, _, -, -, vacant⟩ := located_free tree.nested free
        have apart : q ≠ r := by
          rintro rfl
          rw [held] at vacant
          cases vacant
        simp [free, apart]
      · rw [found]
        constructor
        · intro same
          cases same
          rfl
        · rintro rfl
          cases (entry?_of_find tree.nested (require_eq_ok_iff.mpr found)).symm.trans held
          rfl
    rw [puts.looks]
    by_cases here : q = r
    · simp [here, other, back.mpr here]
    · rw [if_neg (Ne.symm here), look?_of_file held, if_neg fun both => here (back.mp both.2)]

variable {recursive intoDir : Bool} {dest' : Place}

theorem start_copyOne_nowhere
    (nowhere : ∀ r e target, s.disk.find (Path.resolve s.cwd src) = .ok (r, e) →
      Cp.target? (Path.resolve s.cwd src) dest' intoDir ≠ some target) :
    ∃ result, (Cp.copyOne recursive dest' intoDir src).start s = some (result, s) := by
  simp only [Cp.copyOne, start_bind, start_resolve, start_view, Disk.reaches]
  cases found : s.disk.find (Path.resolve s.cwd src) with
  | error e => exact ⟨_, rfl⟩
  | ok held =>
    cases aim : Cp.target? (Path.resolve s.cwd src) dest' intoDir with
    | none => exact ⟨_, rfl⟩
    | some target => exact absurd aim (nowhere _ _ target found)

theorem start_copyOne (found : s.disk.find (Path.resolve s.cwd src) = .ok (r, e))
    (aim : Cp.target? (Path.resolve s.cwd src) dest' intoDir = some target) :
    (Cp.copyOne recursive dest' intoDir src).start s =
      if target = Path.resolve s.cwd src then some (.error (.copyOntoItself src), s)
      else if e = .dir then
        if recursive = false then some (.error (.isDirectory src), s)
        else if (Path.resolve s.cwd src).covers target then some (.error (.copyIntoItself src), s)
        else ((Cp.copyTree Disk.pathLimit (Path.resolve s.cwd src) target).start s).map fun ended =>
          (ended.1.mapError .io, ended.2)
      else match s.disk.copyFile (Path.resolve s.cwd src) target with
        | .error e => some (.error (.io e), s)
        | .ok d => some (.ok (), { s with disk := d }) := by
  have kind : s.disk.isDir (Path.resolve s.cwd src) = decide (e = .dir) := by
    rw [Disk.isDir, require_eq_ok_iff.mp found]
    cases e <;> rfl
  have reached : s.disk.reaches (Path.resolve s.cwd src) = true := by
    rw [Disk.reaches, found]
    rfl
  simp only [Cp.copyOne, start_bind, start_resolve, start_view, reached, aim, kind]
  by_cases same : target = Path.resolve s.cwd src
  · simp [same]
  by_cases dir : e = .dir
  · by_cases plain : recursive = false
    · simp [same, dir, plain]
    by_cases into : (Path.resolve s.cwd src).covers target
    · simp [same, dir, plain, into]
    · simp [same, dir, plain, into, Job.ofIo, start_mapError]
  · simp [same, dir, start_onDisk]
    cases s.disk.copyFile (Path.resolve s.cwd src) target <;> rfl

theorem copyOne_spares (tree : Treelike s.disk)
    (copy : Copy s.disk (Path.resolve s.cwd src) target r e)
    (aim : Cp.target? (Path.resolve s.cwd src) dest' intoDir = some target) :
    ∃ result d', (Cp.copyOne recursive dest' intoDir src).start s =
        some (result, { s with disk := d' }) ∧
      Spared s.disk (Path.resolve s.cwd src) target r e d' := by
  have refused := @Spared.refuses _ (Path.resolve s.cwd src) target r e tree copy.found
  rw [start_copyOne copy.found aim]
  split_ifs with same dir plain into
  · exact ⟨_, s.disk, rfl, refused fun _ _ other => absurd same other⟩
  · exact ⟨_, s.disk, rfl, refused fun _ file => nomatch dir.symm.trans file⟩
  · exact ⟨_, s.disk, rfl, refused fun _ file => nomatch dir.symm.trans file⟩
  · subst dir
    have top : s.disk.entry? (r ++ []) = some .dir := by
      rw [List.append_nil]
      exact entry?_of_find tree.nested copy.found
    obtain ⟨result, d', ran, kept⟩ :=
      copyTree_keeps copy Disk.pathLimit [] s (.start tree) fun _ => top
    rw [List.append_nil, List.append_nil] at ran
    rw [ran]
    exact ⟨_, d', rfl, kept, nofun⟩
  · rcases copyFile_cases tree (Path.resolve s.cwd src) target with
      ⟨r', id, q, d', found, lands, copied, puts⟩ | ⟨⟨why, failed⟩, nowhere⟩
    · cases copy.found.symm.trans found
      rw [copied]
      exact ⟨_, d', rfl, .copies tree copy same lands puts⟩
    · rw [failed]
      refine ⟨_, s.disk, rfl, refused ?_⟩
      rintro id rfl - back
      exact nowhere r id r copy.found (.inr ⟨id, back⟩)

/-- The whole of `cp` with one source is the copy of that source. -/
theorem start_run {args : List String} (parsed : Options.parse "rR".toList args = .ok o)
    (two : o.operands = [src, dest]) :
    (Cp.run args).start s = ((Cp.copyOne (o.has 'r' || o.has 'R') (Path.resolve s.cwd dest)
      (s.disk.isDir (Path.resolve s.cwd dest)) src).start s).map fun ended =>
        (ended.1.map fun _ => .proceed, ended.2) := by
  have reversed : o.operands.reverse = [dest, src] := by rw [two]; rfl
  simp only [Cp.run, Job.options, start_bind, start_ofExcept, parsed, reversed]
  simp only [start_resolve, start_view, List.reverse_singleton, Job.forEach]
  rw [if_neg (by simp), start_bind, start_bind, start_attempt]
  rcases (Cp.copyOne (o.has 'r' || o.has 'R') (Path.resolve s.cwd dest)
    (s.disk.isDir (Path.resolve s.cwd dest)) src).start s with _ | ⟨_ | _, _⟩
  · rfl
  · rfl
  · rfl

/-- `cp` with one source takes no entry away, and without a source or a destination it
does nothing. If no path of the copy leads back to the source, all at and below it shows
what it did, and nothing new is there. A file is emptied exactly if the path that it is
copied to leads to it and is spelled in another way. -/
theorem source_is_kept_unless_led_back_to (args : List String) (s : Session) {o : Options}
    {src dest : String} (parsed : Options.parse "rR".toList args = .ok o)
    (two : o.operands = [src, dest]) (normal : Normal s.cwd) (tree : Treelike s.disk)
    (orderly : Orderly s.disk) :
    ∃ result d', (Cp.run args).start s = some (result, { s with disk := d' }) ∧
      Within s.disk d' ∧
      ((∀ r e target, s.disk.find (Path.resolve s.cwd src) = .ok (r, e) →
        destination? s src dest ≠ some target) → d' = s.disk) ∧
      ∀ r e target, s.disk.find (Path.resolve s.cwd src) = .ok (r, e) →
        destination? s src dest = some target →
        (Beside s.disk r target → ∀ p, r.covers p = true → look? d' p = look? s.disk p) ∧
        ∀ id, e = .file id → look? d' r = some (.file
          (if target ≠ Path.resolve s.cwd src ∧ s.disk.locate true target = .ok (.found r e) then []
            else s.disk.content id)) := by
  rw [start_run parsed two]
  by_cases aimed : ∃ r e target, s.disk.find (Path.resolve s.cwd src) = .ok (r, e) ∧
      destination? s src dest = some target
  · obtain ⟨r, e, target, found, aim⟩ := aimed
    have proper : Normal target := by
      unfold destination? Cp.target? at aim
      split at aim
      · obtain ⟨name, last, rfl⟩ := Option.map_eq_some_iff.mp aim
        have member := List.mem_of_getLast? last
        refine normal_append.mpr ⟨resolve_normal normal dest, fun other here => ?_⟩
        rw [List.mem_singleton.mp here]
        exact resolve_normal normal src name member
      · cases aim
        exact resolve_normal normal dest
    have copy : Copy s.disk (Path.resolve s.cwd src) target r e :=
      ⟨tree.nested, orderly, proper, found⟩
    obtain ⟨result, d', ran, spared⟩ := @copyOne_spares _ _ _ _ _ (o.has 'r' || o.has 'R') _ _
      tree copy aim
    rw [ran]
    refine ⟨_, d', rfl, spared.kept.grows.kept, fun none => absurd aim (none r e target found), ?_⟩
    intro r' e' target' found' aim'
    cases found.symm.trans found'
    cases aim.symm.trans aim'
    exact ⟨spared.kept.looks, spared.file⟩
  · have nowhere (r e target) (found : s.disk.find (Path.resolve s.cwd src) = .ok (r, e)) :
        destination? s src dest ≠ some target := fun aim => aimed ⟨r, e, target, found, aim⟩
    obtain ⟨result, ran⟩ := @start_copyOne_nowhere _ _ (o.has 'r' || o.has 'R') _ _ nowhere
    rw [ran]
    exact ⟨_, s.disk, rfl, fun _ _ held => held, fun _ => rfl,
      fun r e target found aim => absurd aim (nowhere r e target found)⟩

/-- A directory with a file, another directory, and links to that one and to the file. -/
def shelves : Session where
  disk :=
    { entries := [(["d"], .dir), (["d", "f"], .file 0), (["e"], .dir), (["l"], .link "e"),
        (["k"], .link "d/f")]
      contents := [Text.bytes "x"] }

/-- The shelves with a copy of the first directory in the other. -/
def filledDisk : Disk where
  entries := shelves.disk.entries ++ [(["e", "d"], .dir), (["e", "d", "f"], .file 1)]
  contents := [Text.bytes "x", Text.bytes "x"]

/-- A directory that is copied through a link into another one shows what it did. -/
theorem directory_kept_behind_link :
    (Options.parse "rR".toList ["-r", "d", "l"] = .ok ⟨['r'], ["d", "l"]⟩ ∧
      Normal shelves.cwd ∧ Treelike shelves.disk ∧ Orderly shelves.disk) ∧
    (Cp.run ["-r", "d", "l"]).start shelves =
      some (.ok .proceed, { shelves with disk := filledDisk }) ∧
    Beside shelves.disk ["d"] ["l", "d"] ∧
    ∀ p, Place.covers ["d"] p = true → look? filledDisk p = look? shelves.disk p := by
  have parsed : Options.parse "rR".toList ["-r", "d", "l"] = .ok ⟨['r'], ["d", "l"]⟩ := by decide
  have tree : Treelike shelves.disk := by decide
  have orderly : Orderly shelves.disk := by decide
  have ran : (Cp.run ["-r", "d", "l"]).start shelves =
      some (.ok .proceed, { shelves with disk := filledDisk }) := by decide +kernel
  have beside : Beside shelves.disk ["d"] ["l", "d"] := by decide +kernel
  obtain ⟨result, d', ended, -, -, spared⟩ := source_is_kept_unless_led_back_to ["-r", "d", "l"]
    shelves parsed rfl normal_nil tree orderly
  obtain ⟨-, same⟩ := Prod.mk.inj (Option.some.inj (ended.symm.trans ran))
  obtain rfl : d' = filledDisk := congrArg Session.disk same
  have found : shelves.disk.find (Path.resolve shelves.cwd "d") = .ok (["d"], .dir) := by
    decide +kernel
  have aim : destination? shelves "d" "l" = some ["l", "d"] := by decide +kernel
  exact ⟨⟨parsed, normal_nil, tree, orderly⟩, ran, beside, (spared _ _ _ found aim).1 beside⟩

/-- The shelves with nothing in the file. -/
def emptiedDisk : Disk := { shelves.disk with contents := [[]] }

/-- A file that is copied to a link to it is emptied. -/
theorem file_emptied_behind_link :
    (Normal shelves.cwd ∧ Treelike shelves.disk ∧ Orderly shelves.disk) ∧
    (Cp.run ["d/f", "k"]).start shelves =
      some (.ok .proceed, { shelves with disk := emptiedDisk }) ∧
    look? shelves.disk ["d", "f"] = some (.file (Text.bytes "x")) ∧
    look? emptiedDisk ["d", "f"] = some (.file []) := by
  refine ⟨⟨normal_nil, ?_, ?_⟩, ?_, ?_, ?_⟩
  · decide
  · decide
  · decide +kernel
  · decide +kernel
  · decide +kernel

end LineShell.KeptSources
