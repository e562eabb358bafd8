import LineShell.Proofs.MovedEntries
import LineShell.Proofs.SessionDirectory

/-! Several sources moved into one directory. While they are moved the disk shows under
each name in the directory what the source of that name was, nothing where the sources
were, but for a file that had that name already and stays, and elsewhere what it did. So
a path whose way does not meet a link that gave way to a source leads where it did, or
nowhere; and as long as nothing is said against a source, each of them is the entry that
it was at first, and goes to the same directory. -/
namespace LineShell.GatheredSources
open DenotedEntries DiskTrees GrownDisks MovedEntries PathNames RenamedEntries SessionDirectory
open WalkedPaths

/-- A source, the place of the entry that it denotes, and the last name of its path. -/
structure Load where
  operand : String
  place : Place
  name : String

/-- On this disk the source denotes the entry at its place. -/
structure Load.Named (d : Disk) (cwd : Place) (load : Load) : Prop where
  denotes : ∃ e, Denotes d (Path.resolve cwd load.operand) load.place e
  last : (Path.resolve cwd load.operand).getLast? = some load.name

/-- No link at `w` is met on the way of the names. -/
def Avoids (d : Disk) (names : List String) (w : Place) : Prop :=
  ∀ way, Way d Disk.linkLimit [] names way → w ∈ way → ∀ text, d.entry? w ≠ some (.link text)

/-- Neither place lies in the other. -/
structure Separate (p q : Place) : Prop where
  beside : p.covers q = false
  beside' : q.covers p = false

/-- Two sources of a move into the directory `r`, to which the path `dest` leads: they
have different last names and are not in each other, and no link that stands in the
directory under the first one's last name is met on the way to the directory or to the
second source. -/
structure Apart (d : Disk) (cwd dest r : Place) (first second : Load) : Prop where
  names : first.name ≠ second.name
  places : Separate first.place second.place
  dest : Avoids d dest (r ++ [first.name])
  source : Avoids d (Path.resolve cwd second.operand).dropLast (r ++ [first.name])

/-- The disk `d₁` is `d` with some sources moved into the directory `r`. -/
structure Gathered (d : Disk) (r : Place) (done : List Load) (d₁ : Disk) : Prop where
  nested : Nested d₁
  contents : d₁.contents = d.contents
  arrived : ∀ load ∈ done, ∀ x, d₁.entry? (r ++ load.name :: x) = d.entry? (load.place ++ x)
  cleared : ∀ load ∈ done, ∀ z, load.place.covers z = true →
    d₁.entry? z = none ∨ d₁.entry? z = d.entry? z
  aside : ∀ z, (∀ load ∈ done, load.place.covers z = false ∧
    Place.covers (r ++ [load.name]) z = false) → d₁.entry? z = d.entry? z
  gave : ∀ load ∈ done, ∀ x e, d.entry? (r ++ load.name :: x) = some e →
    x = [] ∧ (e = .dir → d.entry? load.place = some .dir)
  outside : ∀ load ∈ done, Separate load.place r

variable {d d₁ d₂ d' : Disk} {cwd dest dir p q r z : Place} {links links' links₁ : Nat}
  {names x : List String} {name : String} {e : Entry} {done : List Load} {load : Load}

/-! Ways on a disk that has changed elsewhere. -/

/-- Where the entries on the way are the same or gone, the names lead to the same
directory or nowhere. -/
theorem same_end (leads : Leads d links dir names links' p)
    (steady : ∀ way, Way d links dir names way →
      ∀ z ∈ way, d₁.entry? z = none ∨ d₁.entry? z = d.entry? z)
    (now : Leads d₁ links dir names links₁ q) : q = p := by
  induction leads generalizing links₁ with
  | here =>
    cases now
    rfl
  | stay _ ih =>
    rcases now.first with ⟨-, rest⟩ | ⟨other, -⟩ | ⟨sought, -⟩ | ⟨sought, -⟩
    · exact ih (fun way along => steady way (.stay along)) rest
    · exact absurd other (by decide)
    · exact absurd rfl sought.notHere
    · exact absurd rfl sought.notHere
  | up _ ih =>
    rcases now.first with ⟨other, -⟩ | ⟨-, rest⟩ | ⟨sought, -⟩ | ⟨sought, -⟩
    · exact absurd other (by decide)
    · exact ih (fun way along => steady way (.up along)) rest
    · exact absurd rfl sought.notUp
    · exact absurd rfl sought.notUp
  | down sought found later ih =>
    obtain ⟨way, along⟩ := leads_iff_way.mp ⟨_, _, later⟩
    have here := steady _ (.down sought found along) _ List.mem_cons_self
    rw [found] at here
    rcases now.first with ⟨rfl, -⟩ | ⟨rfl, -⟩ | ⟨-, -, rest⟩ | ⟨-, text, -, link, -⟩
    · exact absurd rfl sought.notHere
    · exact absurd rfl sought.notUp
    · exact ih (fun way along z met =>
        steady _ (.down sought found along) z (List.mem_cons_of_mem _ met)) rest
    · rw [link] at here
      simp at here
  | link sought found later ih =>
    obtain ⟨way, along⟩ := leads_iff_way.mp ⟨_, _, later⟩
    have here := steady _ (.link sought found along) _ List.mem_cons_self
    rw [found] at here
    rcases now.first with
      ⟨rfl, -⟩ | ⟨rfl, -⟩ | ⟨-, dir, -⟩ | ⟨-, text, fewer, link, same, rest⟩
    · exact absurd rfl sought.notHere
    · exact absurd rfl sought.notUp
    · rw [dir] at here
      simp at here
    · rw [link] at here
      obtain rfl : text = _ := by simpa using here
      obtain rfl := Nat.succ.inj same
      exact ih (fun way along z met =>
        steady _ (.link sought found along) z (List.mem_cons_of_mem _ met)) rest

/-- A way meets directories and links. -/
theorem met_kind {way : List Place} (along : Way d links dir names way) (met : z ∈ way) :
    d.entry? z = some .dir ∨ ∃ text, d.entry? z = some (.link text) := by
  induction along with
  | here => cases met
  | stay _ ih | up _ ih => exact ih met
  | down _ found _ ih =>
    rcases List.mem_cons.mp met with rfl | met
    · exact .inl found
    · exact ih met
  | link _ found _ ih =>
    rcases List.mem_cons.mp met with rfl | met
    · exact .inr ⟨_, found⟩
    · exact ih met

/-! Places that are not in each other. -/

theorem Separate.not_both (separate : Separate p q) (covers : p.covers z = true) :
    q.covers z = false := by
  rw [← Bool.not_eq_true]
  intro covers'
  rcases covers_or covers covers' with both | both
  · rw [separate.beside] at both
    cases both
  · rw [separate.beside'] at both
    cases both

theorem Separate.symm (separate : Separate p q) : Separate q p :=
  ⟨separate.beside', separate.beside⟩

/-- What is not in a directory, nor holds it, is not in it under any name. -/
theorem Separate.child (separate : Separate p r) (name : String) : Separate p (r ++ [name]) where
  beside := by
    rw [← Bool.not_eq_true]
    intro covers
    rcases covers_concat covers with above | rfl
    · rw [separate.beside] at above
      cases above
    · have inside := separate.beside'
      rw [covers_append] at inside
      cases inside
  beside' := by
    rw [← Bool.not_eq_true]
    intro covers
    have inside := covers_trans (covers_append r [name]) covers
    rw [separate.beside'] at inside
    cases inside

theorem separate_names {other : String} (apart : name ≠ other) :
    Separate (r ++ [name]) (r ++ [other]) where
  beside := by
    rw [← Bool.not_eq_true]
    intro covers
    obtain ⟨rest, whole⟩ := covers_iff.mp covers
    simp [Ne.symm apart] at whole
  beside' := by
    rw [← Bool.not_eq_true]
    intro covers
    obtain ⟨rest, whole⟩ := covers_iff.mp covers
    simp [apart] at whole

/-! One source more. -/

theorem gathered_none (nested : Nested d) : Gathered d r [] d where
  nested := nested
  contents := rfl
  arrived _ member := by cases member
  cleared _ member := by cases member
  aside _ _ := rfl
  gave _ member := by cases member
  outside _ member := by cases member

/-- A source that is moved into the directory neither holds it nor was in it. -/
theorem separate_of_movable {target : Place} (may : Movable d₁ z target p (r ++ [name]) e)
    (inside : r.covers p = true → p = r) : Separate p r where
  beside := by
    rw [← Bool.not_eq_true]
    intro covers
    have above := covers_trans covers (covers_append r [name])
    rw [may.beside] at above
    cases above
  beside' := by
    rw [← Bool.not_eq_true]
    intro covers
    have above := may.beside
    rw [inside covers, covers_append] at above
    cases above

/-- Where no source was or went, and at the next source and where it goes, everything is
as it was. -/
theorem Gathered.untouched (gathered : Gathered d r done d₁)
    (separate : ∀ other ∈ done, Separate other.place p ∧ Separate (r ++ [other.name]) p)
    (covers : p.covers z = true) : d₁.entry? z = d.entry? z := by
  apply gathered.aside
  intro other member
  obtain ⟨place, name⟩ := separate other member
  exact ⟨place.symm.not_both covers, name.symm.not_both covers⟩

theorem Gathered.untouched_next (gathered : Gathered d r done d₁) (outside : Separate load.place r)
    (names : ∀ other ∈ done, other.name ≠ load.name)
    (places : ∀ other ∈ done, Separate other.place load.place) :
    (∀ {y : Place}, load.place.covers y = true → d₁.entry? y = d.entry? y) ∧
      ∀ {y : Place}, Place.covers (r ++ [load.name]) y = true → d₁.entry? y = d.entry? y := by
  constructor
  · intro y covers
    apply gathered.untouched _ covers
    intro other member
    exact ⟨places other member, (outside.child other.name).symm⟩
  · intro y covers
    apply gathered.untouched _ covers
    intro other member
    exact ⟨(gathered.outside other member).child _, separate_names (names other member)⟩

/-- One more source is there, if what is said of all sources is true of it, and nothing has changed
but where it was and where it is. -/
theorem Gathered.add (gathered : Gathered d r done d₁) (nested : Nested d₂)
    (contents : d₂.contents = d₁.contents) (outside : Separate load.place r)
    (names : ∀ other ∈ done, other.name ≠ load.name)
    (places : ∀ other ∈ done, Separate other.place load.place)
    (aside : ∀ z, load.place.covers z = false → Place.covers (r ++ [load.name]) z = false →
      d₂.entry? z = d₁.entry? z)
    (arrived : ∀ x, d₂.entry? (r ++ load.name :: x) = d.entry? (load.place ++ x))
    (cleared : ∀ z, load.place.covers z = true → d₂.entry? z = none ∨ d₂.entry? z = d.entry? z)
    (gave : ∀ x e, d.entry? (r ++ load.name :: x) = some e →
      x = [] ∧ (e = .dir → d.entry? load.place = some .dir)) :
    Gathered d r (done ++ [load]) d₂ := by
  have also {P : Load → Prop} (old : ∀ other ∈ done, P other) (new : P load) :
      ∀ other ∈ done ++ [load], P other :=
    List.forall_mem_append.mpr ⟨old, List.forall_mem_singleton.mpr new⟩
  constructor
  · exact nested
  · exact contents.trans gathered.contents
  · refine also (fun other old x => ?_) arrived
    have here := covers_append (r ++ [other.name]) x
    rw [List.append_assoc, List.singleton_append] at here
    rw [aside _ ((outside.child other.name).symm.not_both here)
      ((separate_names (names other old)).not_both here)]
    exact gathered.arrived other old x
  · refine also (fun other old z covers => ?_) cleared
    have apart := ((gathered.outside other old).child load.name).not_both covers
    rw [aside z ((places other old).not_both covers) apart]
    exact gathered.cleared other old z covers
  · intro z apart
    obtain ⟨here, there⟩ := apart load (by simp)
    rw [aside z here there]
    apply gathered.aside
    intro other member
    exact apart other (List.mem_append_left _ member)
  · exact also gathered.gave gave
  · exact also gathered.outside outside

theorem Gathered.moved {target : Place} (gathered : Gathered d r done d₁)
    (may : Movable d₁ z target load.place (r ++ [load.name]) e)
    (relocated : Relocated d₁ load.place (r ++ [load.name]) d₂)
    (inside : r.covers load.place = true → load.place = r)
    (names : ∀ other ∈ done, other.name ≠ load.name)
    (places : ∀ other ∈ done, Separate other.place load.place) :
    Gathered d r (done ++ [load]) d₂ := by
  have outside := separate_of_movable may inside
  obtain ⟨source, place⟩ := gathered.untouched_next outside names places
  refine gathered.add (may.nested relocated gathered.nested) relocated.contents outside names places
    (fun z here there => relocated.aside here there) (fun x => ?_) (fun z covers => ?_)
    fun x old held => ?_
  · rw [List.append_cons, relocated.arrived]
    exact source (covers_append load.place x)
  · exact .inl (relocated.gone covers ((outside.child load.name).not_both covers))
  · rw [List.append_cons, ← place (covers_append _ x)] at held
    obtain ⟨here, kind⟩ := may.gives.replaced gathered.nested held
    refine ⟨here, fun dir => ?_⟩
    rw [← source (covers_self load.place), may.denotes.held, kind dir]

/-- Nothing is below a file. -/
theorem nothing_below_file {id : FileId} (nested : Nested d) (held : d.entry? p = some (.file id))
    (below : x ≠ []) : d.entry? (p ++ x) = none := by
  by_contra some
  have dir := nested.above some below
  rw [held] at dir
  cases dir

/-- A file that is not in a directory is apart from it. -/
theorem separate_of_file {id : FileId} (nested : Nested d) (held : d.entry? p = some (.file id))
    (dir : d.entry? r = some .dir) (inside : r.covers p = true → p = r) : Separate p r where
  beside := by
    rw [← Bool.not_eq_true]
    intro covers
    obtain ⟨x, rfl⟩ := covers_iff.mp covers
    have file := nested.dir_above dir
    rw [held] at file
    cases file
  beside' := by
    rw [← Bool.not_eq_true]
    intro covers
    rw [inside covers, dir] at held
    cases held

theorem Gathered.entry_dest (gathered : Gathered d r done d₁) : d₁.entry? r = d.entry? r :=
  gathered.aside r fun other member =>
    ⟨(gathered.outside other member).beside, not_covers_above r other.name⟩

/-- A source that is one file with what has its name in the directory stays, and is there, too. -/
theorem Gathered.linked {id : FileId} (gathered : Gathered d r done d₁)
    (dir : d.entry? r = some .dir) (held : d₁.entry? load.place = some (.file id))
    (held' : d₁.entry? (r ++ [load.name]) = some (.file id))
    (inside : r.covers load.place = true → load.place = r)
    (names : ∀ other ∈ done, other.name ≠ load.name)
    (places : ∀ other ∈ done, Separate other.place load.place) :
    Gathered d r (done ++ [load]) d₁ := by
  have nested := gathered.nested
  have outside := separate_of_file nested held (gathered.entry_dest.trans dir) inside
  obtain ⟨source, place⟩ := gathered.untouched_next outside names places
  refine gathered.add nested rfl outside names places (fun z _ _ => rfl) (fun x => ?_)
    (fun z covers => .inr (source covers)) fun x old there => ?_
  · rw [← source (covers_append load.place x), List.append_cons]
    by_cases here : x = []
    · rw [here, List.append_nil, List.append_nil, held, held']
    · rw [nothing_below_file nested held here, nothing_below_file nested held' here]
  · rw [List.append_cons, ← place (covers_append _ x)] at there
    by_cases here : x = []
    · rw [here, List.append_nil, held'] at there
      cases there
      exact ⟨here, nofun⟩
    · rw [nothing_below_file nested held' here] at there
      cases there

/-! Where paths lead in the meantime. -/

/-- On a way that meets no link that gave way every entry is the same or gone. -/
theorem Gathered.steady (gathered : Gathered d r done d₁)
    (avoids : ∀ other ∈ done, Avoids d names (r ++ [other.name])) {way : List Place}
    (along : Way d Disk.linkLimit [] names way) (met : z ∈ way) :
    d₁.entry? z = none ∨ d₁.entry? z = d.entry? z := by
  by_cases taken : ∃ other ∈ done, other.place.covers z = true
  · obtain ⟨other, member, covers⟩ := taken
    exact gathered.cleared other member z covers
  by_cases filled : ∃ other ∈ done, Place.covers (r ++ [other.name]) z = true
  · obtain ⟨other, member, covers⟩ := filled
    obtain ⟨x, rfl⟩ := covers_iff.mp covers
    obtain ⟨e, held⟩ := Option.ne_none_iff_exists'.mp (along.held _ met)
    obtain ⟨rfl, gave⟩ := gathered.gave other member x e (by rw [List.append_cons]; exact held)
    rw [List.append_nil] at met held ⊢
    rcases met_kind along met with dir | ⟨text, link⟩
    · right
      rw [held] at dir
      rw [gathered.arrived other member [], List.append_nil, held, gave (Option.some.inj dir), dir]
    · exact absurd link (avoids other member way along met text)
  · right
    apply gathered.aside
    intro other member
    constructor
    · exact Bool.eq_false_iff.mpr fun covers => taken ⟨other, member, covers⟩
    · exact Bool.eq_false_iff.mpr fun covers => filled ⟨other, member, covers⟩

theorem Gathered.same_end (gathered : Gathered d r done d₁)
    (avoids : ∀ other ∈ done, Avoids d names (r ++ [other.name]))
    (before : Leads d Disk.linkLimit [] names links p)
    (now : Leads d₁ Disk.linkLimit [] names links' q) : q = p :=
  GatheredSources.same_end before (fun _ along _ met => gathered.steady avoids along met) now

/-- The path of a source denotes the entry that it did, or none. -/
theorem Gathered.denotes {e' : Entry} (gathered : Gathered d r done d₁)
    (avoids : ∀ other ∈ done, Avoids d z.dropLast (r ++ [other.name]))
    (before : Denotes d z p e) (now : Denotes d₁ z q e') : q = p := by
  cases before with
  | root => exact now.root_iff.mpr rfl
  | @entry first dir _ last _ _ leads _ _ =>
    rw [List.dropLast_concat] at avoids
    generalize whole : first ++ [last] = z at now
    cases now with
    | root => simp at whole
    | entry _ leads' _ _ =>
      obtain ⟨rfl, same⟩ := List.append_inj' whole rfl
      cases same
      rw [gathered.same_end avoids leads leads']

/-- A name in the directory is the one that it was, or the path does not lead there. -/
theorem Gathered.points (gathered : Gathered d r done d₁)
    (avoids : ∀ other ∈ done, Avoids d dest (r ++ [other.name]))
    (before : Leads d Disk.linkLimit [] dest links r) (now : Points d₁ (dest ++ [name]) q) :
    q = r ++ [name] := by
  generalize whole : dest ++ [name] = z at now
  obtain ⟨_, leads, _⟩ := now
  obtain ⟨rfl, same⟩ := List.append_inj' whole rfl
  cases same
  rw [gathered.same_end avoids before leads]

theorem points_of_denotes (denotes : Denotes d z p e) (below : z ≠ []) : Points d z p := by
  cases denotes with
  | root => exact absurd rfl below
  | entry accepted leads sought _ => exact .intro accepted leads sought

/-! All sources. -/

section
variable {m : Plan} {deeds : List Deed} {rest : List Load}

theorem target_of_named (into : m.intoDir = true) (named : load.Named d cwd) :
    m.target? (Path.resolve cwd load.operand) = some (m.dest ++ [load.name]) := by
  rw [Plan.target?, Cp.target?, if_pos into, named.last]
  rfl

theorem left_of_fine {operand : String} {fate : Fate} (stays : Stays m d₁ operand z fate)
    (fine : Deed.complaint? ⟨operand, d₁, fate⟩ = none) : fate = .left := by
  cases stays with
  | there | kept | same | linked => rfl
  | missing | nameless | inside | failed => cases fine

/-- A source that is left where it is was in the directory under its own name, or is one file with
what is there. -/
theorem Gathered.left (nested : Nested d) (gathered : Gathered d r done d₁)
    (into : m.intoDir = true) (replaces : m.keepOld = false)
    (leads : Leads d Disk.linkLimit [] m.dest links r)
    (named : load.Named d cwd) (apart : ∀ other ∈ done, Apart d cwd m.dest r other load)
    (stays : Stays m d₁ load.operand (Path.resolve cwd load.operand) .left) :
    load.place = r ++ [load.name] ∨ ∃ id, d₁.entry? load.place = some (.file id) ∧
      d₁.entry? (r ++ [load.name]) = some (.file id) := by
  have aims := target_of_named into named
  obtain ⟨e, denotes⟩ := named.denotes
  cases stays with
  | there aims' =>
    have path := Option.some.inj (aims.symm.trans aims')
    have below : Path.resolve cwd load.operand ≠ [] := by
      rw [← path]
      simp
    have points := points_of_denotes denotes below
    rw [← path] at points
    exact .inl ((gathered_none nested).points nofun leads points)
  | kept _ asked _ =>
    rw [replaces] at asked
    cases asked
  | same aims' one =>
    cases aims.symm.trans aims'
    obtain ⟨p, e', denotes', points⟩ := one
    obtain rfl := gathered.denotes (fun other member => (apart other member).source) denotes denotes'
    exact .inl (gathered.points (fun other member => (apart other member).dest) leads points)
  | linked aims' one =>
    cases aims.symm.trans aims'
    obtain ⟨p, q, id, denotes', points, held⟩ := one
    obtain rfl := gathered.denotes (fun other member => (apart other member).source) denotes denotes'
    obtain rfl := gathered.points (fun other member => (apart other member).dest) leads points
    exact .inr ⟨id, denotes'.held, held⟩

/-- The next source is moved, too, if nothing is said against it. -/
theorem gathered_next (nested : Nested d) (into : m.intoDir = true) (replaces : m.keepOld = false)
    (leads : Leads d Disk.linkLimit [] m.dest links r) (gathered : Gathered d r done d₁)
    (named : load.Named d cwd) (inside : r.covers load.place = true → load.place = r)
    (apart : ∀ other ∈ done, Apart d cwd m.dest r other load) {deed : Deed}
    (inTurn : InTurn m cwd d₁ (deed :: deeds) d') (same : deed.operand = load.operand)
    (fine : deed.complaint? = none) :
    ∃ d₂, Gathered d r (done ++ [load]) d₂ ∧ InTurn m cwd d₂ deeds d' := by
  have names (other : Load) (member : other ∈ done) : other.name ≠ load.name :=
    (apart other member).names
  have places (other : Load) (member : other ∈ done) : Separate other.place load.place :=
    (apart other member).places
  cases inTurn with
  | @moved _ d₂ _ operand p q _ goes relocated later =>
    cases same
    obtain ⟨e, denotes⟩ := named.denotes
    obtain ⟨target, e', aims, may, -⟩ := goes.moves
    cases (target_of_named into named).symm.trans aims
    obtain rfl :=
      gathered.denotes (fun other member => (apart other member).source) denotes may.denotes
    obtain rfl := gathered.points (fun other member => (apart other member).dest) leads may.points
    exact ⟨d₂, gathered.moved may relocated inside names places, later⟩
  | @stayed _ _ operand fate _ stays later =>
    cases same
    cases left_of_fine stays fine
    rcases gathered.left nested into replaces leads named apart stays with here | ⟨id, held, held'⟩
    · -- then the source lies in the directory, but is not the directory itself
      have top := inside (by rw [here]; exact covers_append _ _)
      rw [top] at here
      simp at here
    · have dir : d.entry? r = some .dir := walk_stands nested (walk_eq_of_leads leads) rfl
      exact ⟨d₁, gathered.linked dir held held' inside names places, later⟩

theorem gathered_all (nested : Nested d) (into : m.intoDir = true) (replaces : m.keepOld = false)
    (leads : Leads d Disk.linkLimit [] m.dest links r) (gathered : Gathered d r done d₁)
    (named : ∀ load ∈ rest, load.Named d cwd)
    (inside : ∀ load ∈ rest, r.covers load.place = true → load.place = r)
    (apart : (done ++ rest).Pairwise (Apart d cwd m.dest r)) (inTurn : InTurn m cwd d₁ deeds d')
    (same : deeds.map Deed.operand = rest.map Load.operand)
    (fine : ∀ deed ∈ deeds, deed.complaint? = none) : Gathered d r (done ++ rest) d' := by
  induction rest generalizing done d₁ deeds with
  | nil =>
    obtain rfl := List.map_eq_nil_iff.mp same
    cases inTurn
    rwa [List.append_nil]
  | cons load rest ih =>
    obtain ⟨deed, deeds, rfl, sameFirst, sameRest⟩ := List.map_eq_cons_iff.mp same
    obtain ⟨namedFirst, namedRest⟩ := List.forall_mem_cons.mp named
    obtain ⟨insideFirst, insideRest⟩ := List.forall_mem_cons.mp inside
    obtain ⟨fineFirst, fineRest⟩ := List.forall_mem_cons.mp fine
    obtain ⟨-, -, across⟩ := List.pairwise_append.mp apart
    obtain ⟨d₂, gathered', later⟩ := gathered_next nested into replaces leads gathered namedFirst
      insideFirst (fun other member => across other member load List.mem_cons_self) inTurn
      sameFirst fineFirst
    rw [List.append_cons] at apart ⊢
    exact ih gathered' namedRest insideRest apart later sameRest fineRest

end

theorem plan_eq {s : Session} {args sources : List String} {o : Options} {dest : String} {m : Plan}
    (parsed : Options.parse "n".toList args = .ok o) (operands : o.operands = sources ++ [dest])
    (planned : plan s args = .ok m) : m =
      ⟨o.has 'n', sources, Path.resolve s.cwd dest, s.disk.isDir (Path.resolve s.cwd dest)⟩ := by
  have order : o.operands.reverse = dest :: sources.reverse := by simp [operands]
  unfold plan at planned
  rw [parsed] at planned
  dsimp only at planned
  rw [order] at planned
  cases backwards : sources.reverse with
  | nil =>
    rw [backwards] at planned
    cases planned
  | cons last others =>
    rw [backwards] at planned
    dsimp only at planned
    split at planned
    · cases planned
    · cases planned
      rw [← backwards, List.reverse_reverse]

theorem fine_of_proceed {s : Session} {args : List String} {deeds : List Deed}
    (ended : lastWord s args deeds = .ok .proceed) :
    ∃ m, plan s args = .ok m ∧ ∀ deed ∈ deeds, deed.complaint? = none := by
  unfold lastWord at ended
  split at ended
  · cases ended
  · rename_i m planned
    split at ended
    · cases ended
    · rename_i none
      exact ⟨m, planned, List.findSome?_eq_none_iff.mp none⟩

/-- A move without `n` into a directory, of sources that have different last names and
of which none lies in another or in the directory: if it goes on, what was at and below
each source is shown in the directory under the source's last name, and all else shows
what it did. A path may lead through links, but not through one that stands in the
directory under the last name of a source before. -/
theorem sources_are_found_in_directory (args : List String) (s s' : Session) {o : Options}
    {dest : String} {loads : List Load} {r : Place} (normal : Normal s.cwd)
    (nested : Nested s.disk) (parsed : Options.parse "n".toList args = .ok o)
    (replaces : o.has 'n' = false) (operands : o.operands = loads.map Load.operand ++ [dest])
    (dir : s.disk.find (Path.resolve s.cwd dest) = .ok (r, .dir))
    (named : ∀ load ∈ loads, load.Named s.disk s.cwd)
    (inside : ∀ load ∈ loads, r.covers load.place = true → load.place = r)
    (apart : loads.Pairwise (Apart s.disk s.cwd (Path.resolve s.cwd dest) r))
    (ran : (Mv.run args).start s = some (.ok .proceed, s')) :
    ∃ d', s' = { s with disk := d' } ∧
      (∀ load ∈ loads, ∀ x,
        look? d' (r ++ load.name :: x) = look? s.disk (load.place ++ x)) ∧
      ∀ z, (∀ load ∈ loads, load.place.covers z = false ∧
        Place.covers (r ++ [load.name]) z = false) → look? d' z = look? s.disk z := by
  obtain ⟨deeds, d', ended, meets⟩ := start_mv normal nested args
  obtain ⟨word, rfl⟩ := Prod.mk.inj (Option.some.inj (ended.symm.trans ran))
  obtain ⟨m, planned, fine⟩ := fine_of_proceed word
  obtain ⟨links, leads⟩ := leads_of_walk (walk_of_locate (require_eq_ok_iff.mp dir))
  have isDir : s.disk.isDir (Path.resolve s.cwd dest) = true := by
    rw [Disk.isDir, require_eq_ok_iff.mp dir]
    rfl
  obtain rfl := plan_eq parsed operands planned
  unfold Meets at meets
  rw [planned] at meets
  have gathered : Gathered s.disk r ([] ++ loads) d' :=
    gathered_all nested isDir replaces leads (gathered_none nested) named inside apart meets.2 meets.1
      fine
  have shows : lookOf d' = lookOf s.disk := by
    funext e
    cases e <;> simp [lookOf, Disk.content, gathered.contents]
  refine ⟨d', rfl, ?_, ?_⟩
  · intro load member x
    rw [look?, look?, gathered.arrived load member x, shows]
  · intro z aside
    rw [look?, look?, gathered.aside z aside, shows]

/-- A directory with a file in it, a file, two links, and another directory behind one
of them, with an empty directory under the name of the first. -/
def depot : Session where
  disk :=
    { entries := [(["a"], .dir), (["a", "f"], .file 0), (["b"], .file 1), (["l"], .link "d"),
        (["k"], .link "d"), (["d"], .dir), (["d", "a"], .dir), (["d", "b"], .file 2)]
      contents := [Text.bytes "1", Text.bytes "2", Text.bytes "old"] }

/-- The directory, the file and a link of the depot. -/
def cargo : List Load := [⟨"a", ["a"], "a"⟩, ⟨"b", ["b"], "b"⟩, ⟨"l", ["l"], "l"⟩]

/-- The depot with all of them in the other directory. -/
def stackedDisk : Disk where
  entries := [(["d", "a"], .dir), (["d", "a", "f"], .file 0), (["d", "b"], .file 1),
    (["d", "l"], .link "d"), (["k"], .link "d"), (["d"], .dir)]
  contents := depot.disk.contents

theorem cargo_named : ∀ load ∈ cargo, load.Named depot.disk depot.cwd := by
  have denoted : ∀ load ∈ cargo, ∃ e ∈ [Entry.dir, .file 1, .link "d"],
      depot.disk.locate false (Path.resolve depot.cwd load.operand) = .ok (.found load.place e) ∧
        (Path.resolve depot.cwd load.operand).getLast? = some load.name := by decide +kernel
  intro load member
  obtain ⟨e, -, located, last⟩ := denoted load member
  exact ⟨⟨e, denotes_of_located (resolve_normal ResolvedPaths.normal_nil _) located⟩, last⟩

theorem cargo_apart :
    cargo.Pairwise (Apart depot.disk depot.cwd (Path.resolve depot.cwd "k") ["d"]) := by
  have places : cargo.Pairwise fun first second => first.name ≠ second.name ∧
      first.place.covers second.place = false ∧ second.place.covers first.place = false := by decide
  have linkless : ∀ load ∈ cargo, ∀ text,
      depot.disk.entry? (["d"] ++ [load.name]) ≠ some (.link text) := by
    have kinds : ∀ load ∈ cargo, depot.disk.entry? (["d"] ++ [load.name]) ∈
        [some .dir, some (.file 2), none] := by decide
    intro load member text held
    have kind := kinds load member
    rw [held] at kind
    simp at kind
  apply places.imp_of_mem
  rintro first second member - ⟨names, beside, beside'⟩
  exact ⟨names, ⟨beside, beside'⟩, fun _ _ _ => linkless first member,
    fun _ _ _ => linkless first member⟩

/-- They are found behind the link that was named; the directory takes the place of the
empty one, and the file that of the old file. -/
theorem cargo_is_found_behind_link :
    (Normal depot.cwd ∧ Nested depot.disk ∧
      Options.parse "n".toList ["a", "b", "l", "k"] = .ok ⟨[], ["a", "b", "l", "k"]⟩ ∧
      depot.disk.find (Path.resolve depot.cwd "k") = .ok (["d"], .dir) ∧
      (∀ load ∈ cargo, load.Named depot.disk depot.cwd) ∧
      (∀ load ∈ cargo, Place.covers ["d"] load.place = true → load.place = ["d"]) ∧
      cargo.Pairwise (Apart depot.disk depot.cwd (Path.resolve depot.cwd "k") ["d"])) ∧
    (Mv.run ["a", "b", "l", "k"]).start depot =
      some (.ok .proceed, { depot with disk := stackedDisk }) ∧
    (∀ load ∈ cargo, ∀ x,
      look? stackedDisk (["d"] ++ load.name :: x) = look? depot.disk (load.place ++ x)) ∧
    look? stackedDisk ["k"] = look? depot.disk ["k"] := by
  have normal : Normal depot.cwd := ResolvedPaths.normal_nil
  have nested : Nested depot.disk := by decide
  have parsed : Options.parse "n".toList ["a", "b", "l", "k"] = .ok ⟨[], ["a", "b", "l", "k"]⟩ := by
    decide
  have operands : ["a", "b", "l", "k"] = cargo.map Load.operand ++ ["k"] := rfl
  have dir : depot.disk.find (Path.resolve depot.cwd "k") = .ok (["d"], .dir) := by decide +kernel
  have inside : ∀ load ∈ cargo, Place.covers ["d"] load.place = true → load.place = ["d"] := by
    decide
  have ran : (Mv.run ["a", "b", "l", "k"]).start depot =
      some (.ok .proceed, { depot with disk := stackedDisk }) := by decide +kernel
  obtain ⟨d', same, found, aside⟩ := sources_are_found_in_directory ["a", "b", "l", "k"] depot
    { depot with disk := stackedDisk } normal nested parsed rfl operands dir cargo_named inside
    cargo_apart ran
  obtain rfl : stackedDisk = d' := congrArg Session.disk same
  exact ⟨⟨normal, nested, parsed, dir, cargo_named, inside, cargo_apart⟩, ran, found,
    aside ["k"] (by decide)⟩

/-- Two files of one name, and a directory. -/
def twins : Session where
  disk :=
    { entries := [(["a"], .dir), (["a", "x"], .file 0), (["b"], .dir), (["b", "x"], .file 1),
        (["d"], .dir)]
      contents := [Text.bytes "1", Text.bytes "2"] }

/-- The directory with the second of the files. -/
def survivorDisk : Disk where
  entries := [(["a"], .dir), (["b"], .dir), (["d", "x"], .file 1), (["d"], .dir)]
  contents := twins.disk.contents

/-- A directory that is reached through a link in it, and a link of the same name that
leads to another directory in the same way. -/
def maze : Session where
  disk :=
    { entries := [(["x"], .dir), (["x", "n"], .link "../z2"), (["b"], .file 0), (["d"], .dir),
        (["d", "n"], .link "../z"), (["z"], .dir), (["z", "k"], .link "../d"), (["z2"], .dir),
        (["z2", "k"], .link "../d2"), (["d2"], .dir)]
      contents := [Text.bytes "1"] }

/-- The maze with the link in place of the other, and the file in the other directory. -/
def divertedDisk : Disk where
  entries := [(["x"], .dir), (["d", "n"], .link "../z2"), (["d2", "b"], .file 0), (["d"], .dir),
    (["z"], .dir), (["z", "k"], .link "../d"), (["z2"], .dir), (["z2", "k"], .link "../d2"),
    (["d2"], .dir)]
  contents := maze.disk.contents

/-- Of two files of one name the first is lost; and behind the first of two sources the
second can be led to another directory. -/
theorem source_is_lost_by_name_or_behind_link :
    ((Normal twins.cwd ∧ Nested twins.disk ∧ twins.disk.find ["d"] = .ok (["d"], .dir) ∧
        Separate ["a", "x"] ["b", "x"] ∧ Separate ["a", "x"] ["d"] ∧ Separate ["b", "x"] ["d"]) ∧
      (Mv.run ["a/x", "b/x", "d"]).start twins =
        some (.ok .proceed, { twins with disk := survivorDisk }) ∧
      look? survivorDisk ["d", "x"] ≠ look? twins.disk ["a", "x"]) ∧
    (Normal maze.cwd ∧ Nested maze.disk ∧ maze.disk.find ["d", "n", "k"] = .ok (["d"], .dir) ∧
        Separate ["x", "n"] ["b"] ∧ Separate ["x", "n"] ["d"] ∧ Separate ["b"] ["d"]) ∧
      (Mv.run ["x/n", "b", "d/n/k"]).start maze =
        some (.ok .proceed, { maze with disk := divertedDisk }) ∧
      look? divertedDisk ["d", "b"] ≠ look? maze.disk ["b"] := by
  refine ⟨⟨⟨ResolvedPaths.normal_nil, ?_, ?_, ⟨?_, ?_⟩, ⟨?_, ?_⟩, ⟨?_, ?_⟩⟩, ?_, ?_⟩,
    ⟨ResolvedPaths.normal_nil, ?_, ?_, ⟨?_, ?_⟩, ⟨?_, ?_⟩, ⟨?_, ?_⟩⟩, ?_, ?_⟩
  all_goals decide +kernel

end LineShell.GatheredSources
