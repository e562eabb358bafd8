import LineShell.Proofs.RemovedEntries

/-! Whether `rm` leaves the directory that the session is in. The way to a directory is
the entries that the walk of its path meets, links among them. Removing entries leads
no walk elsewhere, so the path names a directory afterwards exactly if its whole way is
still there. The directory is protected by its path alone: an operand that is spelled
as the session's directory, or one above it, is refused, and so the directory stays if
no link hides one of these behind another spelling. -/
namespace LineShell.SessionDirectory
open DenotedEntries DiskTrees PathNames RemovedEntries ResolvedPaths WalkedPaths

/-- From directory `dir` the names lead into another one, by way of the entries at the
places listed, with at most so many links followed. -/
inductive Way (d : Disk) : Nat → Place → List String → List Place → Prop where
  | here {links dir} : Way d links dir [] []
  | stay {links dir names way} (rest : Way d links dir names way) :
      Way d links dir ("." :: names) way
  | up {links dir names way} (rest : Way d links dir.dropLast names way) :
      Way d links dir (".." :: names) way
  | down {links dir name names way} (sought : Sought name)
      (found : d.entry? (dir ++ [name]) = some .dir)
      (rest : Way d links (dir ++ [name]) names way) :
      Way d links dir (name :: names) ((dir ++ [name]) :: way)
  | link {links dir name target names way} (sought : Sought name)
      (found : d.entry? (dir ++ [name]) = some (.link target))
      (rest : Way d links (if Path.isRooted target then [] else dir)
        (Disk.steps target ++ names) way) :
      Way d (links + 1) dir (name :: names) ((dir ++ [name]) :: way)

/-- An operand that denotes the directory `cwd`, or one above it, is spelled so. -/
def Plain (d : Disk) (cwd : Place) (operand : String) : Prop :=
  ∀ q e, Denotes d (Path.resolve cwd operand) q e → q.covers cwd = true →
    q = Path.resolve cwd operand

variable {o : Options} {d d₁ d' : Disk} {cwd dir p q : Place} {links links' : Nat}
  {names : List String} {way way' : List Place} {e : Entry} {deeds : List Deed}

/-! The way to a directory. -/

theorem leads_iff_way :
    (∃ links' p, Leads d links dir names links' p) ↔ ∃ way, Way d links dir names way := by
  constructor
  · rintro ⟨links', p, leads⟩
    induction leads with
    | here => exact ⟨_, .here⟩
    | stay _ ih => exact ih.imp fun _ => .stay
    | up _ ih => exact ih.imp fun _ => .up
    | down sought found _ ih =>
      obtain ⟨way, rest⟩ := ih
      exact ⟨_, .down sought found rest⟩
    | link sought found _ ih =>
      obtain ⟨way, rest⟩ := ih
      exact ⟨_, .link sought found rest⟩
  · rintro ⟨way, leads⟩
    induction leads with
    | here => exact ⟨_, _, .here⟩
    | stay _ ih =>
      obtain ⟨_, _, rest⟩ := ih
      exact ⟨_, _, .stay rest⟩
    | up _ ih =>
      obtain ⟨_, _, rest⟩ := ih
      exact ⟨_, _, .up rest⟩
    | down sought found _ ih =>
      obtain ⟨_, _, rest⟩ := ih
      exact ⟨_, _, .down sought found rest⟩
    | link sought found _ ih =>
      obtain ⟨_, _, rest⟩ := ih
      exact ⟨_, _, .link sought found rest⟩

theorem isDir_iff : d.isDir p = true ↔ ∃ q, d.locate true p = .ok (.found q .dir) := by
  unfold Disk.isDir Disk.endsAtDir
  split
  · rename_i q found
    exact ⟨fun _ => ⟨q, found⟩, fun _ => rfl⟩
  · rename_i other
    exact ⟨nofun, fun ⟨q, found⟩ => absurd found (other q)⟩

theorem isDir_iff_leads :
    d.isDir p = true ↔ Accepted p ∧ ∃ links' q, Leads d Disk.linkLimit [] p links' q := by
  rw [isDir_iff]
  constructor
  · rintro ⟨q, ran⟩
    obtain ⟨links', leads⟩ := leads_of_walk (walk_of_locate ran)
    exact ⟨accepted_of_locate ran, links', q, leads⟩
  · rintro ⟨accepted, links', q, leads⟩
    exact ⟨q, (locate_of_accepted accepted).trans (walk_eq_of_leads leads)⟩

theorem isDir_iff_way :
    d.isDir p = true ↔ Accepted p ∧ ∃ way, Way d Disk.linkLimit [] p way :=
  isDir_iff_leads.trans (and_congr_right fun _ => leads_iff_way)

theorem Way.kept (leads : Way d links dir names way)
    (same : ∀ q ∈ way, d'.entry? q = d.entry? q) : Way d' links dir names way := by
  induction leads with
  | here => exact .here
  | stay _ ih => exact .stay (ih same)
  | up _ ih => exact .up (ih same)
  | down sought found _ ih =>
    obtain ⟨here, others⟩ := List.forall_mem_cons.mp same
    exact .down sought (here.trans found) (ih others)
  | link sought found _ ih =>
    obtain ⟨here, others⟩ := List.forall_mem_cons.mp same
    exact .link sought (here.trans found) (ih others)

/-- How a way goes past its first name. -/
theorem Way.first {name : String} (leads : Way d links dir (name :: names) way) :
    name = "." ∧ Way d links dir names way ∨
    name = ".." ∧ Way d links dir.dropLast names way ∨
    (Sought name ∧ d.entry? (dir ++ [name]) = some .dir ∧
      ∃ rest, way = (dir ++ [name]) :: rest ∧ Way d links (dir ++ [name]) names rest) ∨
    Sought name ∧ ∃ target, d.entry? (dir ++ [name]) = some (.link target) ∧
      ∃ fewer rest, links = fewer + 1 ∧ way = (dir ++ [name]) :: rest ∧
        Way d fewer (if Path.isRooted target then [] else dir)
          (Disk.steps target ++ names) rest := by
  cases leads with
  | stay rest => exact .inl ⟨rfl, rest⟩
  | up rest => exact .inr (.inl ⟨rfl, rest⟩)
  | down sought found rest => exact .inr (.inr (.inl ⟨sought, found, _, rfl, rest⟩))
  | link sought found rest =>
    exact .inr (.inr (.inr ⟨sought, _, found, _, _, rfl, rfl, rest⟩))

/-- On a disk with fewer entries a way is the same, or is gone. -/
theorem Way.within (less : Within d' d) (left : Way d' links dir names way)
    (leads : Way d links dir names way') : way = way' := by
  induction left generalizing way' with
  | here =>
    cases leads
    rfl
  | stay _ ih =>
    rcases leads.first with ⟨-, rest⟩ | ⟨other, -⟩ | ⟨sought, -⟩ | ⟨sought, -⟩
    · exact ih rest
    · exact absurd other (by decide)
    · exact absurd rfl sought.notHere
    · exact absurd rfl sought.notHere
  | up _ ih =>
    rcases leads.first with ⟨other, -⟩ | ⟨-, rest⟩ | ⟨sought, -⟩ | ⟨sought, -⟩
    · exact absurd other (by decide)
    · exact ih rest
    · exact absurd rfl sought.notUp
    · exact absurd rfl sought.notUp
  | down sought found _ ih =>
    rcases leads.first with ⟨rfl, -⟩ | ⟨rfl, -⟩ | ⟨-, -, ⟨way, rfl, rest⟩⟩ | ⟨-, target, other, -⟩
    · exact absurd rfl sought.notHere
    · exact absurd rfl sought.notUp
    · rw [ih rest]
    · cases (less _ _ found).symm.trans other
  | link sought found _ ih =>
    rcases leads.first with
      ⟨rfl, -⟩ | ⟨rfl, -⟩ | ⟨-, other, -⟩ | ⟨-, target, other, links, way, same, rfl, rest⟩
    · exact absurd rfl sought.notHere
    · exact absurd rfl sought.notUp
    · cases (less _ _ found).symm.trans other
    · cases (less _ _ found).symm.trans other
      cases same
      rw [ih rest]

theorem Way.held (leads : Way d links dir names way) (q : Place) (met : q ∈ way) :
    d.entry? q ≠ none := by
  induction leads with
  | here => cases met
  | stay _ ih | up _ ih => exact ih met
  | down _ found _ ih | link _ found _ ih =>
    rcases List.mem_cons.mp met with rfl | met
    · simp [found]
    · exact ih met

/-- The way to a place that stands as it is spelled is the directories above it. -/
theorem Way.covers (leads : Way d links dir names way) (solid : Solid d (dir ++ names)) (q : Place)
    (met : q ∈ way) : q.covers (dir ++ names) = true := by
  induction leads with
  | here => cases met
  | @stay _ dir names _ _ _ => exact absurd rfl (solid dir "." names rfl).1.notHere
  | @up _ dir names _ _ _ => exact absurd rfl (solid dir ".." names rfl).1.notUp
  | @down _ dir name names _ _ _ _ ih =>
    have whole : dir ++ name :: names = dir ++ [name] ++ names := by simp
    rw [whole] at solid ⊢
    rcases List.mem_cons.mp met with rfl | met
    · exact covers_append _ _
    · exact ih solid met
  | @link _ dir name _ names _ _ found _ _ =>
    cases found.symm.trans (solid dir name names rfl).2

/-! What is left after operands were removed. -/

/-- The session's directory stays exactly if its whole way does. -/
theorem isDir_after {args : List String} (meets : Meets args cwd d deeds d')
    (accepted : Accepted cwd) (leads : Way d Disk.linkLimit [] cwd way) :
    d'.isDir cwd = true ↔ ∀ p ∈ way, (taken deeds).any (·.covers p) = false := by
  have shown (p : Place) (met : p ∈ way) :
      look? d' p ≠ none ↔ (taken deeds).any (·.covers p) = false := by
    rw [meets.looks]
    cases (taken deeds).any (·.covers p) with
    | true => simp
    | false => simpa [look?_eq_none] using leads.held p met
  rw [isDir_iff_way]
  constructor
  · rintro ⟨-, way', left⟩ p met
    obtain rfl := Way.within meets.within left leads
    exact (shown p met).mp (mt look?_eq_none.mp (left.held p met))
  · intro stays
    refine ⟨accepted, way, leads.kept fun p met => ?_⟩
    obtain ⟨e, found⟩ := Option.ne_none_iff_exists'.mp
      (mt look?_eq_none.mpr ((shown p met).mpr (stays p met)))
    exact found.trans (meets.within p e found).symm

/-! Directories that are seen where they are. -/

/-- Of operands spelled plainly none takes the session's directory or one above it. -/
theorem taken_beside (inTurn : InTurn o cwd d₁ deeds d') (less : Within d₁ d) (solid : Solid d cwd)
    (plain : ∀ deed ∈ deeds, Plain d cwd deed.operand) (q : Place) (gone : q ∈ taken deeds) :
    q.covers cwd = false := by
  induction inTurn with
  | done => cases gone
  | refused _ _ ih =>
    obtain ⟨-, others⟩ := List.forall_mem_cons.mp plain
    exact ih less others gone
  | @removed d₁ d₂ d' operand q' e deeds may without _ ih =>
    obtain ⟨first, others⟩ := List.forall_mem_cons.mp plain
    have here : taken (⟨operand, .ok q'⟩ :: deeds) = q' :: taken deeds := rfl
    rw [here] at gone
    rcases List.mem_cons.mp gone with rfl | later
    · -- It would be a directory above `cwd`, spelled so, and therefore refused.
      by_contra covers
      rw [Bool.not_eq_false] at covers
      have there := may.denotes.more less
      have spelled := first q e there covers
      have dir : e = .dir := by
        obtain ⟨before, last, cut⟩ : ∃ before last, q = before ++ [last] := by
          rcases List.eq_nil_or_concat q with top | ⟨before, last, cut⟩
          · exact absurd top may.root
          · exact ⟨before, last, cut.trans (List.concat_eq_append ..)⟩
        obtain ⟨rest, below⟩ := covers_iff.mp covers
        have found := (solid before last rest (by rw [below, cut]; simp)).2
        rw [← cut, there.held] at found
        exact Option.some.inj found
      have outside := may.outside dir
      rw [← spelled, covers] at outside
      cases outside
    · exact ih (fun p e held => less p e (without.within p e held)) others later

theorem solid_of_linkless (linkless : Linkless d) (normal : Normal cwd)
    (leads : Leads d Disk.linkLimit [] cwd links' p) : Solid d cwd := by
  obtain ⟨same, solid⟩ :=
    leads.lexical linkless (fun empty => (isName_iff.mp (normal "" empty)).1 rfl) solid_nil
  rwa [same, foldl_enter normal] at solid

theorem plain_of_linkless (linkless : Linkless d) (normal : Normal cwd) (operand : String) :
    Plain d cwd operand := by
  intro q e denotes _
  have whole := resolve_normal normal operand
  generalize Path.resolve cwd operand = p at denotes whole
  cases denotes with
  | root => rfl
  | @entry before dir links last e _ leads _ _ =>
    obtain ⟨first, -⟩ := normal_append.mp whole
    obtain ⟨same, -⟩ :=
      leads.lexical linkless (fun empty => (isName_iff.mp (first "" empty)).1 rfl) solid_nil
    rw [same, foldl_enter first, List.nil_append]

/-- After `rm` the session's directory is still a directory exactly if none of the
operands that were removed took an entry that its path goes through. It always is if
there are no links, and also with links if its path goes through none and each operand
that denotes it, or a directory above it, is spelled so. -/
theorem directory_stays_while_its_way_does (args : List String) (s : Session)
    (normal : Normal s.cwd) (nested : Nested s.disk) (here : s.disk.isDir s.cwd = true) :
    ∃ deeds d' way, (Rm.run args).start s = some (lastWord args deeds, { s with disk := d' }) ∧
      Meets args s.cwd s.disk deeds d' ∧ Way s.disk Disk.linkLimit [] s.cwd way ∧
      (d'.isDir s.cwd = true ↔ ∀ p ∈ way, (taken deeds).any (·.covers p) = false) ∧
      (Linkless s.disk → d'.isDir s.cwd = true) ∧
      (Solid s.disk s.cwd → (∀ deed ∈ deeds, Plain s.disk s.cwd deed.operand) →
        d'.isDir s.cwd = true) := by
  obtain ⟨deeds, d', ran, meets⟩ := start_rm normal nested args
  obtain ⟨accepted, links', p, leads⟩ := isDir_iff_leads.mp here
  obtain ⟨way, along⟩ := leads_iff_way.mp ⟨links', p, leads⟩
  have stays := isDir_after meets accepted along
  have beside (solid : Solid s.disk s.cwd)
      (plain : ∀ deed ∈ deeds, Plain s.disk s.cwd deed.operand) : d'.isDir s.cwd = true := by
    refine stays.mpr fun p met => List.any_eq_false.mpr fun q gone covers => ?_
    have above : q.covers s.cwd = true := covers_trans covers (along.covers solid p met)
    unfold Meets at meets
    split at meets
    · obtain ⟨rfl, -⟩ := meets
      cases gone
    · rw [taken_beside meets.2 (fun _ _ held => held) solid plain q gone] at above
      cases above
  exact ⟨deeds, d', way, ran, meets, along, stays,
    fun linkless => beside (solid_of_linkless linkless normal leads) fun deed _ =>
      plain_of_linkless linkless normal deed.operand, beside⟩

/-- A session in one of two directories, and a link to the one above both. -/
def lodged : Session where
  disk :=
    { entries := [(["a"], .dir), (["a", "w"], .dir), (["a", "x"], .dir), (["a", "x", "f"], .file 0),
        (["l"], .link "a")]
      contents := [[]] }
  cwd := ["a", "w"]

/-- The other directory is removed through the link, and the session's stays. -/
theorem other_directory_removed_behind_link :
    (Normal lodged.cwd ∧ Nested lodged.disk ∧ lodged.disk.isDir lodged.cwd = true) ∧
    ∃ deeds d', (Rm.run ["-r", "/l/x"]).start lodged =
        some (.ok .proceed, { lodged with disk := d' }) ∧
      Meets ["-r", "/l/x"] lodged.cwd lodged.disk deeds d' ∧ d'.entry? ["a", "x"] = none ∧
      d'.isDir lodged.cwd = true := by
  have normal : Normal lodged.cwd := (by decide : ∀ name ∈ lodged.cwd, Path.isName name = true)
  have nested : Nested lodged.disk := by decide
  have here : lodged.disk.isDir lodged.cwd = true := by decide +kernel
  have known : ((Rm.run ["-r", "/l/x"]).start lodged).map
      (fun ended => (ended.1, Disk.entry? ended.2.disk ["a", "x"])) =
        some (.ok .proceed, none) := by
    decide +kernel
  obtain ⟨deeds, d', way, ran, meets, -, -, -, beside⟩ :=
    directory_stays_while_its_way_does ["-r", "/l/x"] lodged normal nested here
  rw [ran] at known
  obtain ⟨ended, gone⟩ := Prod.mk.inj (Option.some.inj known)
  have solid : Solid lodged.disk lodged.cwd :=
    (solid_nil.concat ⟨by decide, by decide, by decide +kernel⟩ (by decide)).concat
      ⟨by decide, by decide, by decide +kernel⟩ (by decide)
  have named : deeds.map Deed.operand = ["/l/x"] := meets.1
  have plain (deed : Deed) (member : deed ∈ deeds) : Plain lodged.disk lodged.cwd deed.operand := by
    have same : deed.operand ∈ deeds.map Deed.operand := List.mem_map_of_mem member
    rw [named, List.mem_singleton] at same
    have found : lodged.disk.locate false (Path.resolve lodged.cwd "/l/x") =
        .ok (.found ["a", "x"] .dir) := by decide +kernel
    rintro q e denotes covers
    rw [same] at denotes
    cases found.symm.trans denotes.located
    cases covers
  exact ⟨⟨normal, nested, here⟩, deeds, d', ended ▸ ran, meets, gone, beside solid plain⟩

/-- The lodged session's disk without the session's directory. -/
def lostDisk : Disk :=
  { lodged.disk with entries := lodged.disk.entries.filter (·.1 ≠ ["a", "w"]) }

/-- Behind the link the session's directory is not seen to be it, and goes. -/
theorem session_directory_removed_behind_link :
    (Normal lodged.cwd ∧ Nested lodged.disk ∧ lodged.disk.isDir lodged.cwd = true) ∧
    (Rm.run ["-r", "/l/w"]).start lodged = some (.ok .proceed, { lodged with disk := lostDisk }) ∧
    lostDisk.isDir lodged.cwd = false := by
  refine ⟨⟨?_, ?_, ?_⟩, ?_, ?_⟩
  · exact (by decide : ∀ name ∈ lodged.cwd, Path.isName name = true)
  · decide
  · decide +kernel
  · decide +kernel
  · decide +kernel

end LineShell.SessionDirectory
