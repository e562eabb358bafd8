import Mathlib.Data.List.Induction
import LineShell.Proofs.OpenedTargets

/-! Disks as trees. Every entry stands in a directory, so nothing lies below a free
name, a file or a link. What a place shows is its kind, with the content of a file in
place of the file's number; each change of a disk is a change of what places show. -/
namespace LineShell.DiskTrees
open OpenedTargets

/-- Every entry stands in a directory. -/
def Nested (d : Disk) : Prop :=
  ∀ p name, d.entry? (p ++ [name]) ≠ none → d.entry? p = some .dir

/-- No file stands at two places. -/
def Single (d : Disk) : Prop :=
  ∀ p q id, d.entry? p = some (.file id) → d.entry? q = some (.file id) → p = q

/-- The disk `d'` has only entries of `d`, and has them where they are. -/
def Within (d' d : Disk) : Prop := ∀ p e, d'.entry? p = some e → d.entry? p = some e

/-- What a place shows. -/
inductive Look where
  | file (bs : Bytes)
  | dir
  | link (target : String)
  deriving Repr, DecidableEq

/-- What an entry shows. -/
def lookOf (d : Disk) : Entry → Look
  | .file id => .file (d.content id)
  | .dir => .dir
  | .link target => .link target

/-- What a place shows, if there is an entry. -/
def look? (d : Disk) (p : Place) : Option Look := (d.entry? p).map (lookOf d)

variable {d d' : Disk} {p q r : Place} {names rest : List String} {e : Entry} {id : FileId}

/-! Places below places. -/

theorem covers_iff : p.covers q = true ↔ ∃ rest, q = p ++ rest := by
  rw [Place.covers, List.isPrefixOf_iff_prefix]
  constructor
  · rintro ⟨rest, rfl⟩
    exact ⟨rest, rfl⟩
  · rintro ⟨rest, rfl⟩
    exact ⟨rest, rfl⟩

theorem covers_append (p rest : List String) : Place.covers p (p ++ rest) = true :=
  covers_iff.mpr ⟨rest, rfl⟩

theorem covers_self (p : Place) : p.covers p = true := covers_iff.mpr ⟨[], by simp⟩

theorem covers_trans (upper : p.covers q = true) (lower : q.covers r = true) :
    p.covers r = true := by
  obtain ⟨xs, rfl⟩ := covers_iff.mp upper
  obtain ⟨ys, rfl⟩ := covers_iff.mp lower
  exact covers_iff.mpr ⟨xs ++ ys, List.append_assoc ..⟩

theorem not_covers_upper {rest : List String} (outside : p.covers (q ++ rest) = false) :
    p.covers q = false := by
  rw [← Bool.not_eq_true] at outside ⊢
  exact fun covers => outside (covers_trans covers (covers_append q rest))

theorem not_covers_above (p : Place) (name : String) : Place.covers (p ++ [name]) p = false := by
  rw [← Bool.not_eq_true]
  intro covers
  obtain ⟨rest, whole⟩ := covers_iff.mp covers
  simp at whole

/-- Of two places above the same one, one is above the other. -/
theorem covers_or (left : p.covers r = true) (right : q.covers r = true) :
    p.covers q = true ∨ q.covers p = true := by
  simp only [Place.covers, List.isPrefixOf_iff_prefix] at *
  exact List.prefix_or_prefix_of_prefix left right

/-- What lies above a name lies above its directory, or is it. -/
theorem covers_concat {name : String} (covers : p.covers (q ++ [name]) = true) :
    p.covers q = true ∨ p = q ++ [name] := by
  obtain ⟨rest, whole⟩ := covers_iff.mp covers
  rcases List.eq_nil_or_concat rest with rfl | ⟨rest, last, rfl⟩
  · exact .inr (by rw [whole, List.append_nil])
  · rw [List.concat_eq_append, ← List.append_assoc] at whole
    exact .inl (covers_iff.mpr ⟨rest, (List.append_inj' whole rfl).1⟩)

theorem not_covers_nil (below : p ≠ []) : Place.covers p [] = false := by
  cases p with
  | nil => exact absurd rfl below
  | cons name p => rfl

/-! What stands where. -/

theorem entry?_nil (d : Disk) : d.entry? [] = some .dir := rfl

theorem Nested.above (nested : Nested d) (held : d.entry? (p ++ rest) ≠ none) (more : rest ≠ []) :
    d.entry? p = some .dir := by
  induction rest using List.reverseRecOn with
  | nil => exact absurd rfl more
  | append_singleton rest name ih =>
    rw [← List.append_assoc] at held
    have parent := nested _ name held
    by_cases ends : rest = []
    · subst ends
      rwa [List.append_nil] at parent
    · exact ih (by simp [parent]) ends

theorem Nested.held_above (nested : Nested d) (held : d.entry? (p ++ rest) ≠ none) :
    d.entry? p ≠ none := by
  by_cases here : rest = []
  · rwa [here, List.append_nil] at held
  · exact nested.above held here ▸ Option.some_ne_none _

theorem Nested.dir_above (nested : Nested d) (dir : d.entry? (p ++ rest) = some .dir) :
    d.entry? p = some .dir := by
  by_cases here : rest = []
  · rwa [here, List.append_nil] at dir
  · exact nested.above (dir ▸ Option.some_ne_none _) here

theorem lookOf_congr {d₁ : Disk} (same : d₁.contents = d.contents) : lookOf d₁ = lookOf d := by
  funext e
  cases e <;> simp [lookOf, Disk.content, same]

theorem look?_eq_none : look? d p = none ↔ d.entry? p = none := Option.map_eq_none_iff

theorem look?_eq_dir : look? d p = some .dir ↔ d.entry? p = some .dir := by
  rcases held : d.entry? p with _ | _ | _ | _ <;> simp [look?, held, lookOf]

theorem look?_of_file (held : d.entry? p = some (.file id)) :
    look? d p = some (.file (d.content id)) := by
  rw [look?, held]
  rfl

theorem entry?_of_look_file {bs : Bytes} (looks : look? d p = some (.file bs)) :
    ∃ id, d.entry? p = some (.file id) := by
  rcases held : d.entry? p with _ | id | _ | _ <;> simp [look?, held, lookOf] at looks
  exact ⟨id, rfl⟩

theorem mem_of_held (held : d.entry? p = some e) (below : p ≠ []) : (p, e) ∈ d.entries := by
  rw [entry?_below below] at held
  obtain ⟨before, after, same, -⟩ := List.lookup_eq_some_iff.mp held
  simp [same]

theorem entry?_of_mem (member : (p, e) ∈ d.entries) : d.entry? p ≠ none := by
  by_cases top : p = []
  · subst top
    simp [entry?_nil]
  · rw [entry?_below top, Ne, ← Option.isNone_iff_eq_none, Bool.not_eq_true,
      Option.isNone_eq_false_iff, List.lookup_isSome_iff]
    exact ⟨(p, e), member, beq_self_eq_true p⟩

instance : Decidable (Nested d) :=
  decidable_of_iff (∀ entry ∈ d.entries, d.entry? entry.1.dropLast = some .dir) <| by
    constructor
    · intro checked p name held
      obtain ⟨e, found⟩ := Option.ne_none_iff_exists'.mp held
      have parent := checked _ (mem_of_held found (by simp))
      rwa [List.dropLast_concat] at parent
    · rintro nested ⟨p, e⟩ member
      rcases List.eq_nil_or_concat p with rfl | ⟨before, name, rfl⟩
      · rfl
      · rw [List.concat_eq_append] at member ⊢
        rw [List.dropLast_concat]
        exact nested before name (entry?_of_mem member)

/-- The file that stands at a place, if one does. -/
def file? (d : Disk) (p : Place) : Option FileId :=
  match d.entry? p with
  | some (.file id) => some id
  | _ => none

theorem file?_eq_some : file? d p = some id ↔ d.entry? p = some (.file id) := by
  rcases held : d.entry? p with _ | _ | _ | _ <;> simp [file?, held]

theorem mem_of_file? (held : file? d p = some id) : (p, .file id) ∈ d.entries :=
  mem_of_held (file?_eq_some.mp held) (by rintro rfl; cases held)

instance : Decidable (Single d) :=
  decidable_of_iff (∀ one ∈ d.entries, ∀ other ∈ d.entries,
      file? d one.1 = file? d other.1 → file? d one.1 = none ∨ one.1 = other.1) <| by
    constructor
    · intro checked p q id held held'
      have one := file?_eq_some.mpr held
      have other := file?_eq_some.mpr held'
      rcases checked _ (mem_of_file? one) _ (mem_of_file? other) (one.trans other.symm) with
        none | same
      · rw [one] at none
        cases none
      · exact same
    · rintro single ⟨p, _⟩ - ⟨q, _⟩ - same
      cases held : file? d p with
      | none => exact .inl rfl
      | some id =>
        have held' := same.symm.trans held
        exact .inr (single p q id (file?_eq_some.mp held) (file?_eq_some.mp held'))

instance : Decidable (Sound d) :=
  decidable_of_iff (∀ entry ∈ d.entries, (file? d entry.1).all (· < d.contents.length) = true) <| by
    constructor
    · intro checked p id held
      have found := file?_eq_some.mpr held
      have short := checked _ (mem_of_file? found)
      simpa [found] using short
    · rintro sound ⟨p, _⟩ -
      cases held : file? d p with
      | none => rfl
      | some id => simpa [held] using sound p id (file?_eq_some.mp held)

/-- The names that lead from `p` to what stands at and below it. -/
def below (d : Disk) (p : Place) : List (List String) :=
  (([] :: d.entries.map Prod.fst).filter p.covers).map (·.drop p.length)

theorem mem_below : names ∈ below d p ↔ d.entry? (p ++ names) ≠ none := by
  simp only [below, List.mem_map, List.mem_filter]
  constructor
  · rintro ⟨q, ⟨member, covers⟩, rfl⟩
    obtain ⟨rest, rfl⟩ := covers_iff.mp covers
    rw [List.drop_left]
    rcases List.mem_cons.mp member with top | member
    · simp [top, entry?_nil]
    · obtain ⟨⟨_, e⟩, member, rfl⟩ := List.mem_map.mp member
      exact entry?_of_mem member
  · intro held
    refine ⟨p ++ names, ⟨?_, covers_append p names⟩, List.drop_left⟩
    by_cases top : p ++ names = []
    · rw [top]
      exact List.mem_cons_self
    · obtain ⟨e, held⟩ := Option.ne_none_iff_exists'.mp held
      exact List.mem_cons_of_mem _ (List.mem_map.mpr ⟨_, mem_of_held held top, rfl⟩)

/-! Entries taken out and put in. -/

theorem lookup_filter (keep : Place → Bool) (entries : List (Place × Entry)) (p : Place) :
    (entries.filter (keep ·.1)).lookup p = if keep p then entries.lookup p else none := by
  induction entries with
  | nil => simp
  | cons entry rest ih =>
    obtain ⟨q, e⟩ := entry
    by_cases here : p = q
    · subst here
      cases kept : keep p <;> simp [kept, ih]
    · have other : (p == q) = false := by simpa using here
      cases kept : keep q <;> simp [kept, ih, List.lookup_cons, other]

theorem entry?_erase (root : p ≠ []) (q : Place) :
    Disk.entry? (d.erase p) q = if q = p then none else d.entry? q := by
  by_cases top : q = []
  · subst top
    rw [if_neg (Ne.symm root)]
    rfl
  · have looked := lookup_filter (· ≠ p) d.entries q
    rw [entry?_below top, entry?_below top, Disk.erase, looked]
    by_cases here : q = p <;> simp [here]

theorem entry?_eraseTree (root : p ≠ []) (q : Place) :
    Disk.entry? (d.eraseTree p) q = if p.covers q then none else d.entry? q := by
  by_cases top : q = []
  · subst top
    rw [not_covers_nil root]
    rfl
  · have looked := lookup_filter (! p.covers ·) d.entries q
    rw [entry?_below top, entry?_below top, Disk.eraseTree, looked]
    cases p.covers q <;> simp

theorem entry?_put (root : p ≠ []) (e : Entry) (q : Place) :
    Disk.entry? (d.put p e) q = if q = p then some e else d.entry? q := by
  by_cases top : q = []
  · subst top
    rw [if_neg (Ne.symm root)]
    rfl
  · rw [entry?_below top, entry?_below top]
    exact lookup_put _ _ _ _

end LineShell.DiskTrees
