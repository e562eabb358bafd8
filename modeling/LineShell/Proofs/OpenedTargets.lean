import Mathlib.Data.List.Basic
import LineShell.Disk.Change

/-! Opening files to write. A path leads to a file or to a free name where it can
be opened; a free name becomes a new file, and an old file is emptied or kept. No
other path sees a difference: the walk of a path changes only where it meets the
new entry, and then it ends there or could not have gone on before. -/
namespace LineShell.OpenedTargets

/-- What can be opened to be written. -/
inductive Lead where
  | file (id : FileId)
  | free (p : Place)
  deriving Repr, DecidableEq

/-- What can be opened at the end of a walk. -/
def Lead.of? : Spot → Option Lead
  | .found _ (.file id) => some (.file id)
  | .found _ _ => none
  | .free q => some (.free q)

/-- Where a path ends, all links followed. -/
def spot? (d : Disk) (p : Place) : Option Spot := (d.locate true p).toOption

/-- What can be opened at a path, all links followed. Two paths lead to the same
file if this is the same. -/
def lead? (d : Disk) (p : Place) : Option Lead := (spot? d p).bind Lead.of?

/-- The content of the file that a path leads to. -/
def contentAt? (d : Disk) (p : Place) : Option Bytes :=
  match lead? d p with
  | some (.file id) => some (d.content id)
  | _ => none

/-- Every file on the disk has a content. -/
def Sound (d : Disk) : Prop := ∀ p id, d.entry? p = some (.file id) → id < d.contents.length

variable {d d₁ D : Disk} {p q : Place} {id : FileId}

/-! Where walks end. -/

/-- What a walk says of the place where it ends. -/
def Told (d : Disk) : Spot → Prop
  | .found q (.file id) => d.entry? q = some (.file id)
  | .found _ _ => True
  | .free q => d.entry? q = none

theorem stride_told {follow : Bool} {dir : Place} {names : List String} {spot : Spot}
    (ends : d.stride follow dir names = .ends spot) : Told d spot := by
  induction names generalizing dir with
  | nil =>
    cases ends
    trivial
  | cons name rest ih =>
    unfold Disk.stride at ends
    split at ends
    · exact ih ends
    · split at ends
      · exact ih ends
      · split at ends
        · cases ends
        · dsimp only at ends
          split at ends
          · split at ends <;> cases ends
            assumption
          · exact ih ends
          · split at ends <;> cases ends
            assumption
          · split at ends <;> cases ends
            trivial

theorem walk_told {follow : Bool} {links : Nat} {dir : Place} {names : List String} {spot : Spot}
    (ends : d.walk follow links dir names = .ok spot) : Told d spot := by
  induction links generalizing dir names with
  | zero =>
    unfold Disk.walk at ends
    split at ends <;> cases ends
    exact stride_told (by assumption)
  | succ links ih =>
    unfold Disk.walk at ends
    split at ends
    · cases ends
      exact stride_told (by assumption)
    · cases ends
    · exact ih ends

theorem spot?_eq_some {spot : Spot} : spot? d p = some spot ↔ d.locate true p = .ok spot := by
  unfold spot?
  cases d.locate true p <;> simp [Except.toOption]

theorem spot?_told {spot : Spot} (ends : spot? d p = some spot) : Told d spot := by
  have located := spot?_eq_some.mp ends
  unfold Disk.locate at located
  split at located
  · cases located
  · split at located
    · cases located
    · exact walk_told located

theorem lead?_eq_file : lead? d p = some (.file id) ↔ ∃ q, spot? d p = some (.found q (.file id)) := by
  constructor
  · intro leads
    obtain ⟨spot, ends, same⟩ := Option.bind_eq_some_iff.mp leads
    rcases spot with ⟨q, _ | _ | _⟩ | q <;> cases same
    exact ⟨q, ends⟩
  · rintro ⟨q, ends⟩
    simp [lead?, ends, Lead.of?]

theorem lead?_eq_free : lead? d p = some (.free q) ↔ spot? d p = some (.free q) := by
  constructor
  · intro leads
    obtain ⟨spot, ends, same⟩ := Option.bind_eq_some_iff.mp leads
    rcases spot with ⟨_, _ | _ | _⟩ | _ <;> cases same
    exact ends
  · intro ends
    simp [lead?, ends, Lead.of?]

theorem Sound.lt (sound : Sound d) (leads : lead? d p = some (.file id)) :
    id < d.contents.length := by
  obtain ⟨q, ends⟩ := lead?_eq_file.mp leads
  exact sound q id (spot?_told ends)

theorem contentAt?_of_lead (leads : lead? d p = some (.file id)) :
    contentAt? d p = some (d.content id) := by
  simp only [contentAt?, leads]

/-! Walks on a disk with a new file. -/

/-- A disk with one more file, number `id` at `q`. -/
structure Grown (d : Disk) (q : Place) (id : FileId) (d₁ : Disk) : Prop where
  free : d.entry? q = none
  made : Disk.entry? d₁ q = some (.file id)
  other : ∀ p, p ≠ q → Disk.entry? d₁ p = d.entry? p

/-- The end of a walk, once the file is there. -/
def filled (q : Place) (id : FileId) (spot : Spot) : Spot :=
  if spot = .free q then .found q (.file id) else spot

/-- How a walk goes on the two disks: it ends alike, but for the new file, or
fails on both, or follows the same link. -/
inductive Filled (q : Place) (id : FileId) : Disk.Pause → Disk.Pause → Prop where
  | ends (spot : Spot) : Filled q id (.ends spot) (.ends (filled q id spot))
  | fails (e e' : IoError) : Filled q id (.fails e) (.fails e')
  | follows (dir : Place) (target : String) (rest : List String) :
      Filled q id (.follows dir target rest) (.follows dir target rest)

theorem stride_filled (grown : Grown d q id d₁) (follow : Bool) (dir : Place) (names : List String) :
    Filled q id (d.stride follow dir names) (d₁.stride follow dir names) := by
  induction names generalizing dir with
  | nil => exact .ends (.found dir .dir)
  | cons name rest ih =>
    unfold Disk.stride
    split
    · exact ih dir
    · split
      · exact ih dir.dropLast
      · split
        · exact .fails _ _
        · dsimp only
          by_cases here : dir ++ [name] = q
          · rw [here, grown.free, grown.made]
            dsimp only
            split
            · have now : Filled q id _ _ := .ends (.free q)
              rwa [filled, if_pos rfl] at now
            · exact .fails _ _
          · rw [grown.other _ here]
            split
            · split
              · have now : Filled q id _ _ := .ends (.free (dir ++ [name]))
                rwa [filled, if_neg (by simpa using here)] at now
              · exact .fails _ _
            · exact ih _
            · split
              · exact .ends (.found _ _)
              · exact .fails _ _
            · split
              · exact .ends (.found _ _)
              · exact .follows _ _ _

theorem walk_filled (grown : Grown d q id d₁) (follow : Bool) (links : Nat) (dir : Place)
    (names : List String) :
    (d₁.walk follow links dir names).toOption =
      (d.walk follow links dir names).toOption.map (filled q id) := by
  induction links generalizing dir names with
  | zero =>
    have strides := stride_filled grown follow dir names
    unfold Disk.walk
    generalize d.stride follow dir names = old at strides
    generalize d₁.stride follow dir names = new at strides
    cases strides <;> rfl
  | succ links ih =>
    have strides := stride_filled grown follow dir names
    unfold Disk.walk
    generalize d.stride follow dir names = old at strides
    generalize d₁.stride follow dir names = new at strides
    cases strides with
    | ends => rfl
    | fails => rfl
    | follows => exact ih _ _

theorem spot?_filled (grown : Grown d q id d₁) (p : Place) :
    spot? d₁ p = (spot? d p).map (filled q id) := by
  unfold spot? Disk.locate
  split
  · rfl
  · split
    · rfl
    · exact walk_filled grown true _ _ _

/-- Walks look at entries only. -/
theorem locate_congr (same : ∀ p, d₁.entry? p = d.entry? p) (follow : Bool) (p : Place) :
    d₁.locate follow p = d.locate follow p := by
  have stride (dir : Place) (names : List String) :
      d₁.stride follow dir names = d.stride follow dir names := by
    induction names generalizing dir with
    | nil => rfl
    | cons name rest ih => simp only [Disk.stride, same, ih]
  have walk (links : Nat) (dir : Place) (names : List String) :
      d₁.walk follow links dir names = d.walk follow links dir names := by
    induction links generalizing dir names with
    | zero =>
      unfold Disk.walk
      rw [stride]
    | succ links ih =>
      unfold Disk.walk
      rw [stride]
      simp only [ih]
  simp only [Disk.locate, walk]

theorem spot?_setContent (bs : Bytes) (p : Place) : spot? (d.setContent id bs) p = spot? d p := by
  have same (q : Place) : Disk.entry? (d.setContent id bs) q = d.entry? q := rfl
  exact congrArg Except.toOption (locate_congr same true p)

theorem lead?_setContent (bs : Bytes) (p : Place) : lead? (d.setContent id bs) p = lead? d p := by
  rw [lead?, spot?_setContent, lead?]

theorem content_setContent (bs : Bytes) (other : FileId) (held : id < d.contents.length) :
    (d.setContent id bs).content other = if other = id then bs else d.content other := by
  simp only [Disk.content, Disk.setContent, List.getD_eq_getElem?_getD, List.getElem?_set]
  by_cases same : id = other
  · subst same
    simp [held]
  · simp [same, Ne.symm same]

theorem sound_setContent (sound : Sound d) (bs : Bytes) : Sound (d.setContent id bs) := by
  intro p other found
  simpa [Disk.setContent] using sound p other found

/-! A new file. -/

theorem lookup_put (entries : List (Place × Entry)) (q : Place) (e : Entry) (p : Place) :
    (entries.filter (·.1 ≠ q) ++ [(q, e)]).lookup p =
      if p = q then some e else entries.lookup p := by
  have lookup_cons (r : Place) (e : Entry) (rest : List (Place × Entry)) :
      ((r, e) :: rest).lookup p = if p = r then some e else rest.lookup p := by
    by_cases same : p = r
    · subst same
      simp
    · have other : (p == r) = false := by simpa using same
      simp [List.lookup_cons, other, same]
  induction entries with
  | nil => exact lookup_cons q e []
  | cons entry rest ih =>
    obtain ⟨r, e'⟩ := entry
    by_cases gone : r = q
    · subst gone
      rw [List.filter_cons_of_neg (by simp), ih, lookup_cons]
      split
      · rfl
      · rfl
    · rw [List.filter_cons_of_pos (by simpa using gone), List.cons_append, lookup_cons,
        lookup_cons, ih]
      by_cases here : p = r
      · subst here
        rw [if_pos rfl, if_neg gone, if_pos rfl]
      · rw [if_neg here, if_neg here]

theorem ne_nil_of_free (free : d.entry? q = none) : q ≠ [] := by
  rintro rfl
  cases free

theorem entry?_below {d : Disk} {p : Place} (below : p ≠ []) : d.entry? p = d.entries.lookup p :=
  if_neg below

theorem entry?_create (free : d.entry? q = none) (p : Place) :
    Disk.entry? (d.create q).1 p = if p = q then some (.file d.contents.length) else d.entry? p := by
  by_cases root : p = []
  · subst root
    rw [if_neg (Ne.symm (ne_nil_of_free free))]
    rfl
  · rw [entry?_below root, entry?_below root]
    exact lookup_put _ _ _ _

theorem create_grown (free : d.entry? q = none) :
    Grown d q d.contents.length (d.create q).1 where
  free := free
  made := by rw [entry?_create free, if_pos rfl]
  other p apart := by rw [entry?_create free, if_neg apart]

theorem content_create (q : Place) (other : FileId) :
    (d.create q).1.content other = d.content other := by
  simp only [Disk.content, Disk.create, Disk.put, List.getD_eq_getElem?_getD, List.getElem?_append]
  by_cases held : other < d.contents.length
  · rw [if_pos held]
  · rw [if_neg held, List.getElem?_eq_none (l := d.contents) (Nat.le_of_not_lt held)]
    cases other - d.contents.length <;> rfl

theorem length_create (q : Place) : (d.create q).1.contents.length = d.contents.length + 1 := by
  simp [Disk.create, Disk.put]

theorem sound_create (sound : Sound d) (free : d.entry? q = none) : Sound (d.create q).1 := by
  intro p id found
  rw [entry?_create free] at found
  rw [length_create]
  split at found
  · cases found
    exact Nat.lt_succ_self _
  · exact Nat.lt_succ_of_lt (sound p id found)

/-! Opening files one after the other. -/

/-- A file to open: at a path, with the old content kept or not. -/
structure Target where
  keep : Bool
  place : Place

/-- What a target holds once it is open. -/
def Target.base (d : Disk) (t : Target) : Bytes :=
  if t.keep then (contentAt? d t.place).getD [] else []

/-- The disk `D` is `d` with the targets open: they hold what they should, paths
that lead to different files still do, no path has come to lead to an old file, and
nothing else has changed. -/
structure Opened (d : Disk) (targets : List Target) (D : Disk) : Prop where
  sound : Sound D
  longer : d.contents.length ≤ D.contents.length
  apart : ∀ p p', lead? d p ≠ lead? d p' → lead? D p ≠ lead? D p'
  spots : ∀ p, (∀ t ∈ targets, lead? d p ≠ lead? d t.place) → spot? D p = spot? d p
  holds : ∀ t ∈ targets, contentAt? D t.place = some (t.base d)
  entries : ∀ q, (∀ t ∈ targets, lead? d t.place ≠ some (.free q)) → D.entry? q = d.entry? q
  contents : ∀ id, id < d.contents.length → (∀ t ∈ targets, lead? d t.place ≠ some (.file id)) →
    D.content id = d.content id
  old : ∀ p id, id < d.contents.length → lead? D p = some (.file id) → lead? d p = some (.file id)

theorem lead?_of_spots (same : spot? D p = spot? d p) : lead? D p = lead? d p := by
  rw [lead?, same, lead?]

/-- A path that leads to none of the targets leads to what it did, with the same
content. -/
theorem Opened.contentAt? {targets : List Target} (opened : Opened d targets D) (sound : Sound d)
    (others : ∀ t ∈ targets, lead? d p ≠ lead? d t.place) : contentAt? D p = contentAt? d p := by
  have leads := lead?_of_spots (opened.spots p others)
  match found : lead? d p with
  | some (.file id) =>
    rw [found] at leads others
    rw [contentAt?_of_lead leads, contentAt?_of_lead found]
    exact congrArg some (opened.contents id (sound.lt found) fun t member => Ne.symm (others t member))
  | some (.free q) =>
    rw [found] at leads
    simp only [OpenedTargets.contentAt?, leads, found]
  | none =>
    rw [found] at leads
    simp only [OpenedTargets.contentAt?, leads, found]

/-- Targets opened after others are opened on the disk that those left. -/
theorem Opened.append {first later : List Target} (before : Opened d first d₁)
    (after : Opened d₁ later D) (sound : Sound d)
    (distinct : ∀ t ∈ first, ∀ u ∈ later, lead? d t.place ≠ lead? d u.place) :
    Opened d (first ++ later) D where
  sound := after.sound
  longer := Nat.le_trans before.longer after.longer
  apart p p' apart := after.apart p p' (before.apart p p' apart)
  spots p others := by
    obtain ⟨here, there⟩ := List.forall_mem_append.mp others
    rw [after.spots p fun u member => before.apart _ _ (there u member), before.spots p here]
  holds t member := by
    rcases List.mem_append.mp member with member | member
    · rw [after.contentAt? before.sound fun u held => before.apart _ _ (distinct t member u held)]
      exact before.holds t member
    · have unmet (u : Target) (held : u ∈ first) : lead? d t.place ≠ lead? d u.place :=
        Ne.symm (distinct u held t member)
      rw [after.holds t member, Target.base, Target.base, before.contentAt? sound unmet]
  entries q others := by
    obtain ⟨here, there⟩ := List.forall_mem_append.mp others
    rw [after.entries q fun u member => ?_, before.entries q here]
    rw [lead?_of_spots (before.spots _ fun t held => Ne.symm (distinct t held u member))]
    exact there u member
  contents id held others := by
    obtain ⟨here, there⟩ := List.forall_mem_append.mp others
    rw [after.contents id (Nat.lt_of_lt_of_le held before.longer) fun u member => ?_,
      before.contents id held here]
    rw [lead?_of_spots (before.spots _ fun t held => Ne.symm (distinct t held u member))]
    exact there u member
  old p id held leads :=
    before.old p id held (after.old p id (Nat.lt_of_lt_of_le held before.longer) leads)

/-- An old file is emptied or kept. -/
theorem opened_file {t : Target} (sound : Sound d) (leads : lead? d t.place = some (.file id)) :
    d.openForWriting t.place t.keep = .ok (if t.keep then d else d.setContent id [], id) ∧
      Opened d [t] (if t.keep then d else d.setContent id []) := by
  obtain ⟨q, ends⟩ := lead?_eq_file.mp leads
  have located := spot?_eq_some.mp ends
  constructor
  · rw [Disk.openForWriting, located]
    rfl
  · cases keep : t.keep with
    | true =>
      rw [if_pos rfl]
      refine ⟨sound, Nat.le_refl _, fun _ _ apart => apart, fun _ _ => rfl, ?_, fun _ _ => rfl,
        fun _ _ _ => rfl, fun _ _ _ leads => leads⟩
      intro u member
      rw [List.mem_singleton.mp member, Target.base, keep, if_pos rfl, contentAt?_of_lead leads]
      rfl
    | false =>
      rw [if_neg Bool.false_ne_true]
      have held := sound.lt leads
      refine ⟨sound_setContent sound [], ?_, ?_, ?_, ?_, fun _ _ => rfl, ?_, ?_⟩
      · simp [Disk.setContent]
      · intro p p' apart
        rwa [lead?_setContent, lead?_setContent]
      · intro p _
        exact spot?_setContent [] p
      · intro u member
        rw [List.mem_singleton.mp member, Target.base, keep, if_neg Bool.false_ne_true,
          contentAt?_of_lead ((lead?_setContent [] _).trans leads), content_setContent _ _ held,
          if_pos rfl]
      · intro other _ others
        have different : other ≠ id := by
          rintro rfl
          exact others t (List.mem_singleton_self t) leads
        rw [content_setContent _ _ held, if_neg different]
      · intro p other _ leads
        rwa [lead?_setContent] at leads

/-- A free name becomes an empty file. -/
theorem opened_free {t : Target} (sound : Sound d) (leads : lead? d t.place = some (.free q)) :
    d.openForWriting t.place t.keep = .ok (d.create q) ∧ Opened d [t] (d.create q).1 ∧
      lead? (d.create q).1 t.place = some (.file d.contents.length) := by
  have ends := lead?_eq_free.mp leads
  have located := spot?_eq_some.mp ends
  have free : d.entry? q = none := spot?_told ends
  have spots := spot?_filled (create_grown free)
  -- A path that leads elsewhere ends where it did.
  have kept (p : Place) (other : lead? d p ≠ some (.free q)) :
      spot? (d.create q).1 p = spot? d p := by
    rw [spots]
    cases found : spot? d p with
    | none => rfl
    | some spot =>
      have unmet : spot ≠ .free q := by
        rintro rfl
        exact other (lead?_eq_free.mpr found)
      rw [Option.map_some, filled, if_neg unmet]
  have moved (p : Place) (same : lead? d p = some (.free q)) :
      lead? (d.create q).1 p = some (.file d.contents.length) := by
    rw [lead?_eq_file]
    refine ⟨q, ?_⟩
    rw [spots, lead?_eq_free.mp same, Option.map_some, filled, if_pos rfl]
  -- The new file's number is not that of an old one.
  have fresh (p : Place) (other : lead? d p ≠ some (.free q)) :
      lead? (d.create q).1 p ≠ some (.file d.contents.length) := by
    rw [lead?_of_spots (kept p other)]
    intro same
    exact Nat.lt_irrefl _ (sound.lt same)
  refine ⟨?_, ⟨sound_create sound free, ?_, ?_, ?_, ?_, ?_, ?_, ?_⟩, moved t.place leads⟩
  · rw [Disk.openForWriting, located]
    rfl
  · rw [length_create]
    exact Nat.le_succ _
  · intro p p' apart
    by_cases here : lead? d p = some (.free q)
    · have there : lead? d p' ≠ some (.free q) := by
        rw [← here]
        exact Ne.symm apart
      rw [moved p here]
      exact Ne.symm (fresh p' there)
    · by_cases there : lead? d p' = some (.free q)
      · rw [moved p' there]
        exact fresh p here
      · rwa [lead?_of_spots (kept p here), lead?_of_spots (kept p' there)]
  · intro p others
    have other := others t (List.mem_singleton_self t)
    rw [leads] at other
    exact kept p other
  · intro u member
    have empty : t.base d = [] := by
      simp [Target.base, contentAt?, leads]
    have content : d.content d.contents.length = [] := by simp [Disk.content]
    rw [List.mem_singleton.mp member, contentAt?_of_lead (moved t.place leads), empty,
      content_create, content]
  · intro p others
    have other : p ≠ q := by
      rintro rfl
      exact others t (List.mem_singleton_self t) leads
    rw [entry?_create free, if_neg other]
  · intro other _ _
    exact content_create q other
  · intro p other held there
    by_cases here : lead? d p = some (.free q)
    · obtain rfl : d.contents.length = other := by simpa [moved p here] using there
      exact absurd held (Nat.lt_irrefl _)
    · rwa [lead?_of_spots (kept p here)] at there

/-- A target that can be opened is opened. -/
theorem exists_opened_one {t : Target} (sound : Sound d) (leads : (lead? d t.place).isSome) :
    ∃ D id, d.openForWriting t.place t.keep = .ok (D, id) ∧ Opened d [t] D ∧
      lead? D t.place = some (.file id) := by
  obtain ⟨lead, found⟩ := Option.isSome_iff_exists.mp leads
  cases lead with
  | file id =>
    obtain ⟨opens, opened⟩ := opened_file sound found
    refine ⟨_, id, opens, opened, ?_⟩
    split
    · exact found
    · rw [lead?_setContent, found]
  | free q =>
    obtain ⟨opens, opened, now⟩ := opened_free sound found
    exact ⟨_, _, opens, opened, now⟩

end LineShell.OpenedTargets
