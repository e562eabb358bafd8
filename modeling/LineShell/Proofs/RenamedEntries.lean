import LineShell.Proofs.GrownDisks
import LineShell.Proofs.RemovedEntries

/-! What a rename does. The entry that the old path denotes, with everything below it,
goes to the name where the new path ends. An entry that has that name gives way only if
it is of the same kind, and a directory only if nothing is in it; no directory goes
below itself, and two names of one file both stay. Else every place at and below the new
name then shows what the old one did, those of the old name show nothing, and all others
show what they did. -/
namespace LineShell.RenamedEntries
open DenotedEntries DiskTrees GrownDisks OpenedTargets PathNames WalkedPaths
open RemovedEntries (Bare bare_iff bare_of_nested)

/-- The path of `z` ends at the name `q` in a directory, taken or free. -/
inductive Points (d : Disk) : Place → Place → Prop where
  | intro {before dir : Place} {links : Nat} {last : String} (accepted : Accepted (before ++ [last]))
      (leads : Leads d Disk.linkLimit [] before links dir) (sought : Sought last) :
      Points d (before ++ [last]) (dir ++ [last])

/-- What stands at `q`, if anything does, gives way to the entry `e`: an empty directory
to a directory, and what is no directory to what is none. -/
inductive GivesWay (d : Disk) (e : Entry) (q : Place) : Prop where
  | free (vacant : d.entry? q = none)
  | dirs (dir : e = .dir) (held : d.entry? q = some .dir) (bare : Bare d q)
  | others {old : Entry} (other : e ≠ .dir) (held : d.entry? q = some old) (other' : old ≠ .dir)

/-- The entry `e` at `p`, which the path `z` denotes, can be moved to `q`, where the path
`target` ends. -/
structure Movable (d : Disk) (z target p q : Place) (e : Entry) : Prop where
  denotes : Denotes d z p e
  points : Points d target q
  beside : p.covers q = false
  beside' : q.covers p = false
  gives : GivesWay d e q

/-- The disk `d₁` is `d` with all that stood at and below `p` at and below `q`. -/
structure Relocated (d : Disk) (p q : Place) (d₁ : Disk) : Prop where
  entries : ∀ z, d₁.entry? z = if q.covers z then d.entry? (p ++ z.drop q.length)
    else if p.covers z then none else d.entry? z
  contents : d₁.contents = d.contents

/-- The paths of source and target name one entry. -/
def OneEntry (d : Disk) (z target : Place) : Prop := ∃ p e, Denotes d z p e ∧ Points d target p

/-- The paths of source and target name two entries of one file. -/
def OneFile (d : Disk) (z target : Place) : Prop := ∃ p q id, Denotes d z p (.file id) ∧
  Points d target q ∧ d.entry? q = some (.file id)

/-- How a rename ends. -/
inductive Renames (d : Disk) (z target : Place) : Except IoError Disk → Prop where
  | moves {p q : Place} {e : Entry} (root : p ≠ []) (may : Movable d z target p q e) :
      Renames d z target (.ok (d.relocate p q))
  | same (one : OneEntry d z target) : Renames d z target (.ok d)
  | linked (one : OneFile d z target) : Renames d z target (.ok d)
  | fails (why : IoError) : Renames d z target (.error why)

variable {d d₁ : Disk} {z target p q : Place} {e : Entry} {spot : Spot}

/-! Where a target's path ends. -/

theorem Points.located (points : Points d z q) : d.locate false z =
    .ok (match d.entry? q with
      | none => .free q
      | some e => .found q e) := by
  obtain @⟨before, dir, links, last, accepted, leads, sought⟩ := points
  rw [locate_of_accepted accepted, walk_of_leads leads (.inl (List.cons_ne_nil _ _)),
    walk_last sought.notHere sought.notUp, if_neg (Nat.not_lt.mpr sought.short)]
  cases d.entry? (dir ++ [last]) with
  | none => rfl
  | some e => rfl

theorem points_of_located (normal : Normal z) (below : z ≠ [])
    (ran : d.locate false z = .ok spot) : ∃ q, Points d z q := by
  have accepted := accepted_of_locate ran
  rw [locate_of_accepted accepted] at ran
  rcases List.eq_nil_or_concat z with top | ⟨before, last, rfl⟩
  · exact absurd top below
  · rw [List.concat_eq_append] at ran normal accepted ⊢
    obtain ⟨links, dir, leads, ends⟩ := leads_of_walk_append (List.cons_ne_nil _ _) ran
    obtain ⟨-, notHere, notUp, -⟩ := isName_iff.mp (normal last (by simp))
    rw [walk_last notHere notUp] at ends
    split at ends
    · cases ends
    · rename_i short
      exact ⟨dir ++ [last], .intro accepted leads ⟨notHere, notUp, Nat.not_lt.mp short⟩⟩

/-- The directory of the name is there. -/
theorem Points.parent (nested : Nested d) (points : Points d z q) :
    ∃ dir name, q = dir ++ [name] ∧ d.entry? dir = some .dir := by
  obtain @⟨_, dir, _, last, -, leads, -⟩ := points
  exact ⟨dir, last, rfl, walk_stands nested (walk_eq_of_leads leads) rfl⟩

theorem Points.ne_nil (points : Points d z q) : q ≠ [] := by
  obtain ⟨-, -, -⟩ := points
  simp

/-- A path that ends at an entry other than a link leads to it. -/
theorem Points.reaches (points : Points d z q) (held : d.entry? q = some e)
    (plain : ∀ text, e ≠ .link text) : d.reaches z = true := by
  obtain @⟨before, dir, links, last, accepted, leads, sought⟩ := points
  have found : d.locate true (before ++ [last]) = .ok (.found (dir ++ [last]) e) := by
    rw [locate_of_accepted accepted, walk_of_leads leads (.inl (List.cons_ne_nil _ _))]
    unfold Disk.walk
    rw [stride_sought sought, held]
    cases e with
    | dir | file id => rfl
    | link text => exact absurd rfl (plain text)
  rw [Disk.reaches, Disk.find, found]
  rfl

/-! An entry that goes elsewhere. -/

theorem GivesWay.nothing_below (gives : GivesWay d e q) (nested : Nested d) {rest : List String}
    (below : rest ≠ []) : d.entry? (q ++ rest) = none := by
  by_contra held
  have dir := nested.above held below
  cases gives with
  | free vacant =>
    rw [vacant] at dir
    cases dir
  | dirs _ _ bare =>
    obtain ⟨name, rest, rfl⟩ := List.exists_cons_of_ne_nil below
    rw [List.append_cons] at held
    exact nested.held_above held (bare name)
  | others _ there other' =>
    rw [there] at dir
    exact other' (Option.some.inj dir)

/-- Only the name itself can be taken, and a directory only gives way to a directory. -/
theorem GivesWay.replaced {rest : List String} {old : Entry} (gives : GivesWay d e q)
    (nested : Nested d) (held : d.entry? (q ++ rest) = some old) :
    rest = [] ∧ (old = .dir → e = .dir) := by
  have here : rest = [] := by
    by_contra below
    rw [gives.nothing_below nested below] at held
    cases held
  subst here
  rw [List.append_nil] at held
  refine ⟨rfl, ?_⟩
  rintro rfl
  cases gives with
  | free vacant =>
    rw [vacant] at held
    cases held
  | dirs dir => exact dir
  | others _ there other' =>
    rw [there] at held
    exact absurd (Option.some.inj held) other'

/-- Where an entry is taken that goes from `p` to `q`. -/
def carry (p q r : Place) : Place := if p.covers r then q ++ r.drop p.length else r

theorem carry_inside (p q x : Place) : carry p q (p ++ x) = q ++ x := by
  rw [carry, if_pos (covers_append p x), List.drop_left]

/-- What is at a place after the move was taken there, or has stayed. -/
theorem carry_eq {r : Place} (same : carry p q r = z) :
    (∃ x, r = p ++ x ∧ z = q ++ x) ∨ (p.covers r = false ∧ r = z) := by
  cases covers : p.covers r with
  | true =>
    obtain ⟨x, rfl⟩ := covers_iff.mp covers
    exact .inl ⟨x, rfl, same.symm.trans (carry_inside p q x)⟩
  | false =>
    rw [carry, if_neg (by simp [covers])] at same
    exact .inr ⟨rfl, same⟩

theorem relocate_entries (p q : Place) : (d.relocate p q).entries =
    (d.entries.filter (·.1 ≠ q)).map fun entry => (carry p q entry.1, entry.2) := by
  unfold Disk.relocate carry
  dsimp only
  congr 1
  funext ⟨r, e⟩
  dsimp only
  split
  · rfl
  · rfl

theorem lookup_map_of_inj {entries : List (Place × Entry)} {f : Place → Place} {r : Place}
    (inj : ∀ entry ∈ entries, f entry.1 = f r → entry.1 = r) :
    (entries.map fun entry => (f entry.1, entry.2)).lookup (f r) = entries.lookup r := by
  induction entries with
  | nil => rfl
  | cons entry entries ih =>
    obtain ⟨first, others⟩ := List.forall_mem_cons.mp inj
    rw [List.map_cons, List.lookup_cons, List.lookup_cons, ih others]
    by_cases same : entry.1 = r
    · simp [same]
    · have apart : f entry.1 ≠ f r := fun both => same (first both)
      have apart' : (f r == f entry.1) = false := by simpa using Ne.symm apart
      have same' : (r == entry.1) = false := by simpa using Ne.symm same
      rw [apart', same']

theorem lookup_eq_none {entries : List (Place × Entry)} {r : Place}
    (missing : ∀ entry ∈ entries, entry.1 ≠ r) : entries.lookup r = none := by
  rw [List.lookup_eq_none_iff]
  intro entry member
  simpa using Ne.symm (missing entry member)

/-- Only what has the new name gives way. -/
theorem lookup_others {r : Place} (other : r ≠ q) (below : r ≠ []) :
    (d.entries.filter (·.1 ≠ q)).lookup r = d.entry? r := by
  rw [entry?_below below, lookup_filter (fun r => decide (r ≠ q)), if_pos (by simpa)]

theorem entry?_relocate_new (root : p ≠ []) (root' : q ≠ []) (beside : p.covers q = false)
    (bare : ∀ rest, rest ≠ [] → d.entry? (q ++ rest) = none) (x : Place) :
    Disk.entry? (d.relocate p q) (q ++ x) = d.entry? (p ++ x) := by
  have other : p ++ x ≠ q := by
    rintro rfl
    rw [covers_append] at beside
    cases beside
  rw [entry?_below (by simp [root']), relocate_entries, ← carry_inside p q x,
    ← lookup_others other (by simp [root])]
  apply lookup_map_of_inj
  rintro ⟨r, e⟩ member same
  obtain ⟨member, notHere⟩ := List.mem_filter.mp member
  rw [carry_inside] at same
  rcases carry_eq same with ⟨y, rfl, both⟩ | ⟨-, here⟩
  · rw [List.append_cancel_left both]
  · dsimp only at here
    subst here
    by_cases top : x = []
    · simp [top] at notHere
    · exact absurd (bare x top) (entry?_of_mem member)

theorem entry?_relocate_old (root : p ≠ []) (covers : p.covers z = true)
    (outside : q.covers z = false) : Disk.entry? (d.relocate p q) z = none := by
  have below : z ≠ [] := by
    rintro rfl
    rw [not_covers_nil root] at covers
    cases covers
  rw [entry?_below below, relocate_entries]
  apply lookup_eq_none
  intro entry member
  obtain ⟨⟨r, e⟩, -, rfl⟩ := List.mem_map.mp member
  intro here
  rcases carry_eq here with ⟨x, -, rfl⟩ | ⟨stays, rfl⟩
  · rw [covers_append] at outside
    cases outside
  · rw [covers] at stays
    cases stays

theorem entry?_relocate_aside (outside : p.covers z = false) (outside' : q.covers z = false) :
    Disk.entry? (d.relocate p q) z = d.entry? z := by
  by_cases top : z = []
  · rw [top]
    rfl
  have other : z ≠ q := by
    rintro rfl
    rw [covers_self] at outside'
    cases outside'
  have stays : carry p q z = z := if_neg (by simp [outside])
  rw [entry?_below top, relocate_entries, ← lookup_others other top]
  conv_lhs => rw [← stays]
  apply lookup_map_of_inj
  rintro ⟨r, e⟩ - same
  rw [stays] at same
  rcases carry_eq same with ⟨x, -, rfl⟩ | ⟨-, same⟩
  · rw [covers_append] at outside'
    cases outside'
  · exact same

theorem entry?_relocate (root : p ≠ []) (root' : q ≠ []) (beside : p.covers q = false)
    (bare : ∀ rest, rest ≠ [] → d.entry? (q ++ rest) = none) (z : Place) :
    Disk.entry? (d.relocate p q) z = if q.covers z then d.entry? (p ++ z.drop q.length)
      else if p.covers z then none else d.entry? z := by
  cases arrives : q.covers z with
  | true =>
    obtain ⟨x, rfl⟩ := covers_iff.mp arrives
    rw [if_pos rfl, List.drop_left, entry?_relocate_new root root' beside bare]
  | false =>
    rw [if_neg Bool.false_ne_true]
    cases leaves : p.covers z with
    | true => rw [if_pos rfl, entry?_relocate_old root leaves arrives]
    | false => rw [if_neg Bool.false_ne_true, entry?_relocate_aside leaves arrives]

theorem Movable.relocated (may : Movable d z target p q e) (nested : Nested d) (root : p ≠ []) :
    Relocated d p q (d.relocate p q) where
  entries := entry?_relocate root may.points.ne_nil may.beside fun _ => may.gives.nothing_below nested
  contents := rfl

theorem Relocated.arrived (moved : Relocated d p q d₁) (x : Place) :
    d₁.entry? (q ++ x) = d.entry? (p ++ x) := by
  rw [moved.entries, if_pos (covers_append q x), List.drop_left]

theorem Relocated.gone (moved : Relocated d p q d₁) (covers : p.covers z = true)
    (outside : q.covers z = false) : d₁.entry? z = none := by
  rw [moved.entries, if_neg (by simp [outside]), if_pos covers]

/-- Where neither the old nor the new name is above, nothing changes. -/
theorem Relocated.aside (moved : Relocated d p q d₁) (outside : p.covers z = false)
    (outside' : q.covers z = false) : d₁.entry? z = d.entry? z := by
  rw [moved.entries, if_neg (by simp [outside']), if_neg (by simp [outside])]

theorem Movable.nested (may : Movable d z target p q e) (moved : Relocated d p q d₁)
    (nested : Nested d) : Nested d₁ := by
  intro r name held
  cases arrives : Place.covers q (r ++ [name]) with
  | true =>
    rcases covers_concat arrives with above | same
    · obtain ⟨x, rfl⟩ := covers_iff.mp above
      rw [List.append_assoc, moved.arrived, ← List.append_assoc] at held
      rw [moved.arrived]
      exact nested _ name held
    · -- the name is the new one itself, so its directory was there
      obtain ⟨dir, last, whole, parent⟩ := may.points.parent nested
      obtain ⟨rfl, -⟩ := List.append_inj' (same.symm.trans whole) rfl
      have outside : p.covers r = false := not_covers_upper (same ▸ may.beside)
      rw [moved.aside outside (same ▸ not_covers_above r name)]
      exact parent
  | false =>
    cases leaves : Place.covers p (r ++ [name]) with
    | true => exact absurd (moved.gone leaves arrives) held
    | false =>
      rw [moved.aside leaves arrives] at held
      rw [moved.aside (not_covers_upper leaves) (not_covers_upper arrives)]
      exact nested r name held

/-! What a rename does. -/

theorem rename_located (nested : Nested d) (root : p ≠ []) (denotes : Denotes d z p e)
    (points : Points d target q) : Renames d z target (d.rename z target) := by
  unfold Disk.rename
  rw [require_eq_ok_iff.mpr denotes.located, points.located]
  simp only [bind, Except.bind, if_neg root]
  cases held : d.entry? q with
  | none =>
    dsimp only
    cases beside : p.covers q with
    | true => exact .fails _
    | false =>
      have beside' : q.covers p = false := by
        rw [← Bool.not_eq_true]
        intro covers
        obtain ⟨rest, rfl⟩ := covers_iff.mp covers
        exact nested.held_above (denotes.held ▸ Option.some_ne_none e) held
      exact .moves root ⟨denotes, points, beside, beside', .free held⟩
  | some old =>
    dsimp only
    rw [if_neg points.ne_nil]
    by_cases one : p = q
    · subst one
      rw [if_pos rfl]
      exact .same ⟨p, e, denotes, points⟩
    rw [if_neg one]
    cases beside : p.covers q with
    | true => exact .fails _
    | false =>
      cases beside' : q.covers p with
      | true => exact .fails _
      | false =>
        simp only [Bool.false_eq_true, if_false]
        have moves (gives : GivesWay d e q) : Renames d z target (.ok (d.relocate p q)) :=
          .moves root ⟨denotes, points, beside, beside', gives⟩
        cases e with
        | dir =>
          cases old with
          | dir =>
            cases bare : (d.children q).isEmpty with
            | true => exact moves (.dirs rfl held (bare_iff.mpr bare))
            | false => exact .fails _
          | file id | link text => exact .fails _
        | file id =>
          cases old with
          | dir => exact .fails _
          | file id' =>
            dsimp only
            split
            · rename_i same
              subst same
              exact .linked ⟨p, q, id, denotes, points, held⟩
            · exact moves (.others (by simp) held (by simp))
          | link text => exact moves (.others (by simp) held (by simp))
        | link text =>
          cases old with
          | dir => exact .fails _
          | file id | link text' => exact moves (.others (by simp) held (by simp))

theorem rename_ends (nested : Nested d) (normal : Normal z) (proper : Normal target) :
    Renames d z target (d.rename z target) := by
  rcases require_cases normal d with ⟨p, e, found, denotes⟩ | ⟨⟨why, missing⟩, -⟩
  · by_cases root : p = []
    · have busy : ∃ why, d.rename z target = .error why := by
        unfold Disk.rename
        rw [found]
        cases d.locate false target with
        | error why => exact ⟨why, rfl⟩
        | ok spot => exact ⟨.busy, by simp [bind, Except.bind, root, throw, throwThe,
            MonadExceptOf.throw]⟩
      obtain ⟨why, busy⟩ := busy
      rw [busy]
      exact .fails why
    by_cases top : target = []
    · have busy : d.rename z target = .error .busy := by
        unfold Disk.rename
        rw [found, top]
        simp only [bind, Except.bind, if_neg root]
        rfl
      rw [busy]
      exact .fails _
    cases located : d.locate false target with
    | error why =>
      have failed : d.rename z target = .error why := by
        unfold Disk.rename
        rw [found, located]
        rfl
      rw [failed]
      exact .fails why
    | ok spot =>
      obtain ⟨q, points⟩ := points_of_located proper top located
      exact rename_located nested root denotes points
  · have failed : d.rename z target = .error why := by
      unfold Disk.rename
      rw [missing]
      rfl
    rw [failed]
    exact .fails why

end LineShell.RenamedEntries
