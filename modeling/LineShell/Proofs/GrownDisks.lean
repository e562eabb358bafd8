import LineShell.Proofs.DenotedEntries

/-! Disks that grow. Making directories and copying files take no entry away and add no
link, so a walk ends where it did before unless something was missing on its way. What
one such step does is said by what places show: one place shows something new, and all
others what they did. -/
namespace LineShell.GrownDisks
open DenotedEntries DiskTrees OpenedTargets WalkedPaths

/-- The disk `d'` has the entries of `d`, and no link besides. -/
structure Grows (d d' : Disk) : Prop where
  kept : Within d d'
  plain : ∀ p target, d'.entry? p = some (.link target) → d.entry? p = some (.link target)

/-- Entries stand in directories, and each file at one place and with a content. -/
structure Treelike (d : Disk) : Prop where
  nested : Nested d
  single : Single d
  sound : Sound d

/-- The disk `d'` has grown from `d`, and only what `q` shows is another. -/
structure Puts (d : Disk) (q : Place) (look : Look) (d' : Disk) : Prop where
  tree : Treelike d'
  grows : Grows d d'
  looks : ∀ p, look? d' p = if p = q then some look else look? d p

variable {d d₁ d' : Disk} {follow : Bool} {links : Nat} {dir p q z : Place} {names : List String}
  {spot : Spot} {e : Entry} {id : FileId} {bs : Bytes}

instance : Decidable (Treelike d) :=
  decidable_of_iff (Nested d ∧ Single d ∧ Sound d)
    ⟨fun ⟨nested, single, sound⟩ => ⟨nested, single, sound⟩,
      fun ⟨nested, single, sound⟩ => ⟨nested, single, sound⟩⟩

theorem Grows.refl (d : Disk) : Grows d d := ⟨fun _ _ held => held, fun _ _ held => held⟩

theorem Grows.trans (first : Grows d d₁) (second : Grows d₁ d') : Grows d d' :=
  ⟨fun p e held => second.kept p e (first.kept p e held),
    fun p target held => first.plain p target (second.plain p target held)⟩

/-! Walks on a disk that has grown. -/

/-- How a walk ends on a disk and on one grown from it: alike, or at a free name that is
taken now, or it could not go on before. -/
inductive Later : Except IoError Spot → Except IoError Spot → Prop where
  | same (ran : Except IoError Spot) : Later ran ran
  | taken (q : Place) (e : Entry) : Later (.ok (.free q)) (.ok (.found q e))
  | missing (ran : Except IoError Spot) : Later (.error .notFound) ran

/-- The same of a part of a walk without links. -/
inductive LaterPause : Disk.Pause → Disk.Pause → Prop where
  | same (pause : Disk.Pause) : LaterPause pause pause
  | taken (q : Place) (e : Entry) : LaterPause (.ends (.free q)) (.ends (.found q e))
  | missing (pause : Disk.Pause) : LaterPause (.fails .notFound) pause

theorem stride_later (grows : Grows d d') (follow : Bool) (dir : Place) (names : List String) :
    LaterPause (d.stride follow dir names) (d'.stride follow dir names) := by
  induction names generalizing dir with
  | nil => exact .same _
  | cons name names ih =>
    by_cases here : name = "."
    · subst here
      exact ih dir
    by_cases up : name = ".."
    · subst up
      exact ih dir.dropLast
    by_cases long : Disk.nameLimit < name.utf8ByteSize
    · simp only [Disk.stride, here, up, long, if_true, if_false]
      exact .same _
    have sought : Sought name := ⟨here, up, Nat.not_lt.mp long⟩
    rw [stride_sought sought, stride_sought sought]
    cases held : d.entry? (dir ++ [name]) with
    | some e =>
      rw [grows.kept _ _ held]
      cases e with
      | dir => exact ih _
      | file id | link target => exact .same _
    | none =>
      cases names with
      | cons => exact .missing _
      | nil =>
        cases now : d'.entry? (dir ++ [name]) with
        | none => exact .same _
        | some e =>
          cases e with
          | dir | file id => exact .taken _ _
          | link target =>
            rw [grows.plain _ _ now] at held
            cases held

theorem walk_later (grows : Grows d d') (follow : Bool) (links : Nat) (dir : Place)
    (names : List String) :
    Later (d.walk follow links dir names) (d'.walk follow links dir names) := by
  induction links generalizing dir names with
  | zero =>
    have strides := stride_later grows follow dir names
    unfold Disk.walk
    generalize d.stride follow dir names = old at strides
    generalize d'.stride follow dir names = new at strides
    cases strides with
    | same => exact .same _
    | taken q e => exact .taken q e
    | missing => exact .missing _
  | succ links ih =>
    have strides := stride_later grows follow dir names
    unfold Disk.walk
    generalize d.stride follow dir names = old at strides
    generalize d'.stride follow dir names = new at strides
    cases strides with
    | same =>
      cases old with
      | ends | fails => exact .same _
      | follows => exact ih _ _
    | taken q e => exact .taken q e
    | missing => exact .missing _

theorem locate_later (grows : Grows d d') (follow : Bool) (p : Place) :
    Later (d.locate follow p) (d'.locate follow p) := by
  unfold Disk.locate
  split
  · exact .same _
  · split
    · exact .same _
    · exact walk_later grows follow _ _ _

theorem locate_found (grows : Grows d d') (found : d.locate follow p = .ok (.found q e)) :
    d'.locate follow p = .ok (.found q e) := by
  have later := locate_later grows follow p
  rw [found] at later
  generalize d'.locate follow p = ran at later
  cases later
  rfl

theorem find_grown (grows : Grows d d') (found : d.find p = .ok (q, e)) : d'.find p = .ok (q, e) :=
  require_eq_ok_iff.mpr (locate_found grows (require_eq_ok_iff.mp found))

/-! Where walks end. -/

/-- What stands where a walk ended; and a free name is free if links are followed, too. -/
def Stands (d : Disk) (followed : Except IoError Spot) : Spot → Prop
  | .found q e => d.entry? q = some e
  | .free q => followed = .ok (.free q) ∧
      ∃ p name, q = p ++ [name] ∧ d.entry? p = some .dir ∧ d.entry? q = none

theorem walk_stands (nested : Nested d) (ran : d.walk follow links dir names = .ok spot)
    (start : d.entry? dir = some .dir) : Stands d (d.walk true links dir names) spot := by
  -- A link puts more names in front, so the links that are left go first.
  induction links using Nat.strongRecOn generalizing dir names with
  | ind links fewer =>
    induction names generalizing dir with
    | nil =>
      rw [walk_nil] at ran
      cases ran
      exact start
    | cons name names ih =>
      cases passes_of_walk ran with
      | stay onwards =>
        rw [walk_stay]
        exact ih onwards start
      | up onwards =>
        rw [walk_up]
        refine ih onwards ?_
        rcases List.eq_nil_or_concat dir with rfl | ⟨before, last, rfl⟩
        · rfl
        · rw [List.concat_eq_append, List.dropLast_concat]
          exact nested before last (by simp [← List.concat_eq_append, start])
      | down sought found onwards =>
        rw [walk_down sought found]
        exact ih onwards found
      | link sought found onwards =>
        rw [walk_link sought found (.inr rfl)]
        refine fewer _ (Nat.lt_succ_self _) onwards ?_
        split
        · rfl
        · exact start
      | last _ found _ ends =>
        cases ends
        exact found
      | free ends =>
        cases ends
        have free : d.entry? (dir ++ [name]) = none := walk_told ran
        refine ⟨?_, dir, name, rfl, start, free⟩
        have same : d.stride true dir [name] = d.stride follow dir [name] := by
          simp only [Disk.stride, free]
        unfold Disk.walk at ran ⊢
        rw [same]
        cases ended : d.stride follow dir [name] with
        | ends | fails => rwa [ended] at ran
        | follows =>
          simp only [Disk.stride, free, List.isEmpty_nil, if_true] at ended
          split_ifs at ended

theorem located_free (nested : Nested d) (free : d.locate follow z = .ok (.free q)) :
    d.locate true z = .ok (.free q) ∧
      ∃ p name, q = p ++ [name] ∧ d.entry? p = some .dir ∧ d.entry? q = none := by
  rw [locate_of_accepted (accepted_of_locate free)]
  exact walk_stands nested (walk_of_locate free) rfl

theorem entry?_of_find (nested : Nested d) (found : d.find z = .ok (q, e)) : d.entry? q = some e :=
  walk_stands nested (walk_of_locate (require_eq_ok_iff.mp found)) rfl

/-! One place that shows something new. -/

theorem nested_put (nested : Nested d) {name : String} (parent : d.entry? p = some .dir)
    (free : d.entry? (p ++ [name]) = none) (entries : ∀ r, d'.entry? r =
      if r = p ++ [name] then some e else d.entry? r) : Nested d' := by
  intro r last held
  rw [entries] at held ⊢
  have upper : d.entry? r = some .dir := by
    split at held
    · rename_i same
      obtain ⟨rfl, -⟩ := List.append_inj' same rfl
      exact parent
    · exact nested r last held
  have other : r ≠ p ++ [name] := by
    rintro rfl
    rw [free] at upper
    cases upper
  rw [if_neg other, upper]

theorem grows_put (free : d.entry? q = none) (plain : ∀ target, e ≠ .link target)
    (entries : ∀ r, d'.entry? r = if r = q then some e else d.entry? r) : Grows d d' where
  kept p e' held := by
    rw [entries, if_neg, held]
    rintro rfl
    rw [free] at held
    cases held
  plain p target held := by
    rw [entries] at held
    split at held
    · exact absurd (Option.some.inj held) (plain target)
    · exact held

/-- A directory is made at a free name. -/
theorem puts_dir (tree : Treelike d) (free : d.locate false z = .ok (.free q)) :
    d.makeDir z = .ok (d.put q .dir) ∧ Puts d q .dir (d.put q .dir) := by
  obtain ⟨-, p, name, rfl, parent, vacant⟩ := located_free tree.nested free
  have entries := fun r => entry?_put (d := d) (ne_nil_of_free vacant) .dir r
  have old {r : Place} {id : FileId}
      (held : Disk.entry? (d.put (p ++ [name]) .dir) r = some (.file id)) :
      d.entry? r = some (.file id) := by
    rw [entries] at held
    split at held
    · cases held
    · exact held
  refine ⟨by rw [Disk.makeDir, free]; rfl, ⟨nested_put tree.nested parent vacant entries, ?_, ?_⟩,
    grows_put vacant (by simp) entries, ?_⟩
  · exact fun r r' id held held' => tree.single r r' id (old held) (old held')
  · exact fun r id held => tree.sound r id (old held)
  · intro r
    rw [look?, entries]
    split
    · rfl
    · rfl

/-- What a file shows changes with its content, and nothing else does. -/
theorem look?_setContent (tree : Treelike d) (held : d.entry? q = some (.file id)) (bs : Bytes)
    (r : Place) : look? (d.setContent id bs) r = if r = q then some (.file bs) else look? d r := by
  have entries : Disk.entry? (d.setContent id bs) r = d.entry? r := rfl
  rw [look?, entries]
  split
  · rename_i same
    rw [same, held]
    simp [lookOf, content_setContent bs id (tree.sound q id held)]
  · rename_i other
    rw [look?]
    rcases found : d.entry? r with _ | other' | _ | _
    · rfl
    · have apart : other' ≠ id := by
        rintro rfl
        exact other (tree.single r q _ found held)
      simp [lookOf, content_setContent bs other' (tree.sound q id held), apart]
    · rfl
    · rfl

theorem puts_content (tree : Treelike d) (held : d.entry? q = some (.file id)) (bs : Bytes) :
    Puts d q (.file bs) (d.setContent id bs) where
  tree := ⟨tree.nested, tree.single, sound_setContent tree.sound bs⟩
  grows := ⟨fun _ _ held => held, fun _ _ held => held⟩
  looks := look?_setContent tree held bs

/-- A new file at a free name. -/
theorem puts_create (tree : Treelike d) (free : d.locate true z = .ok (.free q)) :
    Disk.entry? (d.create q).1 q = some (.file d.contents.length) ∧
      Puts d q (.file []) (d.create q).1 := by
  obtain ⟨-, p, name, rfl, parent, vacant⟩ := located_free tree.nested free
  have entries := entry?_create vacant
  refine ⟨by rw [entries, if_pos rfl], ⟨nested_put tree.nested parent vacant entries, ?_,
    sound_create tree.sound vacant⟩, grows_put vacant (by simp) entries, ?_⟩
  · -- The new file's number is not that of an old one.
    intro r r' id held held'
    rw [entries] at held held'
    split at held
    · split at held'
      · simp [*]
      · cases held
        exact absurd (tree.sound _ _ held') (Nat.lt_irrefl _)
    · split at held'
      · cases held'
        exact absurd (tree.sound _ _ held) (Nat.lt_irrefl _)
      · exact tree.single r r' id held held'
  · intro r
    rw [look?, entries]
    split
    · rw [Option.map_some, lookOf, content_create]
      simp [Disk.content]
    · have same : lookOf (d.create (p ++ [name])).1 = lookOf d := by
        funext e
        cases e <;> simp [lookOf, content_create]
      rw [look?, same]

/-- What is written again after it was put. -/
theorem Puts.again {look look' : Look} (first : Puts d q look d₁) (second : Puts d₁ q look' d') :
    Puts d q look' d' where
  tree := second.tree
  grows := first.grows.trans second.grows
  looks p := by
    rw [second.looks, first.looks]
    split
    · rfl
    · rfl

end LineShell.GrownDisks
