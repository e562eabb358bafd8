import LineShell.Proofs.DiskTrees
import LineShell.Proofs.PlacePaths
import LineShell.Proofs.WalkedPaths

/-! The entry that a path denotes where it is removed or moved: links are followed in
every name but the last. A path that the system takes denotes at most one entry, and
without links on its way the one that stands where the path says. -/
namespace LineShell.DenotedEntries
open DiskTrees PathNames ResolvedPaths WalkedPaths

/-- The system takes the path of this place: it is not too long and has no NUL. -/
structure Accepted (p : Place) : Prop where
  textual : ∀ name ∈ p, '\x00' ∉ name.toList
  short : p.width < Disk.pathLimit

/-- The path of `p` denotes the entry `e`, which stands at `q`. -/
inductive Denotes (d : Disk) : Place → Place → Entry → Prop where
  | root : Denotes d [] [] .dir
  | entry {before : Place} {dir : Place} {links : Nat} {last : String} {e : Entry}
      (accepted : Accepted (before ++ [last])) (leads : Leads d Disk.linkLimit [] before links dir)
      (sought : Sought last) (found : d.entry? (dir ++ [last]) = some e) :
      Denotes d (before ++ [last]) (dir ++ [last]) e

variable {d d' : Disk} {follow : Bool} {links : Nat} {dir p q : Place} {name : String}
  {names rest : List String} {spot : Spot} {e : Entry}

/-! Paths that the system takes. -/

instance : Decidable (Accepted p) :=
  decidable_of_iff ((∀ name ∈ p, '\x00' ∉ name.toList) ∧ p.width < Disk.pathLimit)
    ⟨fun ⟨textual, short⟩ => ⟨textual, short⟩, fun ⟨textual, short⟩ => ⟨textual, short⟩⟩

theorem locate_of_accepted (accepted : Accepted p) :
    d.locate follow p = d.walk follow Disk.linkLimit [] p := by
  have textual : p.any (·.toList.contains '\x00') = false := by
    simpa [List.any_eq_false] using accepted.textual
  rw [Disk.locate, textual, if_neg Bool.false_ne_true,
    if_neg (Nat.not_le.mpr accepted.short)]

theorem accepted_of_locate (ran : d.locate follow p = .ok spot) : Accepted p := by
  unfold Disk.locate at ran
  split at ran
  · cases ran
  · rename_i textual
    split at ran
    · cases ran
    · rename_i short
      exact ⟨by simpa using textual, Nat.not_le.mp short⟩

theorem walk_of_locate (ran : d.locate follow p = .ok spot) :
    d.walk follow Disk.linkLimit [] p = .ok spot :=
  (locate_of_accepted (accepted_of_locate ran)).symm.trans ran

theorem width_append (p rest : List String) : Place.width p ≤ Place.width (p ++ rest) := by
  simp only [Place.width, List.foldl_append]
  have wider := PlacePaths.foldl_width rest (p.foldl (fun n name => n + 1 + name.utf8ByteSize) 0)
  omega

theorem Accepted.first (accepted : Accepted (p ++ rest)) : Accepted p where
  textual name member := accepted.textual name (List.mem_append_left _ member)
  short := Nat.lt_of_le_of_lt (width_append p rest) accepted.short

/-! The last name. -/

/-- A last name that leads down is looked up; nothing is followed. -/
theorem walk_last (notHere : name ≠ ".") (notUp : name ≠ "..") :
    d.walk false links dir [name] =
      if Disk.nameLimit < name.utf8ByteSize then .error .nameTooLong
      else match d.entry? (dir ++ [name]) with
        | none => .ok (.free (dir ++ [name]))
        | some e => .ok (.found (dir ++ [name]) e) := by
  unfold Disk.walk
  by_cases long : Disk.nameLimit < name.utf8ByteSize
  · rw [Disk.stride, if_neg notHere, if_neg notUp, if_pos long, if_pos long]
  · rw [stride_sought ⟨notHere, notUp, Nat.not_lt.mp long⟩, if_neg long]
    rcases d.entry? (dir ++ [name]) with _ | _ | _ | _
    · rfl
    · rfl
    · rfl
    · rfl

theorem Denotes.located (denotes : Denotes d p q e) : d.locate false p = .ok (.found q e) := by
  cases denotes with
  | root => rfl
  | entry accepted leads sought found =>
    rw [locate_of_accepted accepted, walk_of_leads leads (.inl (List.cons_ne_nil _ _))]
    exact walk_one sought found

theorem denotes_of_located (normal : Normal p) (ran : d.locate false p = .ok (.found q e)) :
    Denotes d p q e := by
  have accepted := accepted_of_locate ran
  rw [locate_of_accepted accepted] at ran
  rcases List.eq_nil_or_concat p with rfl | ⟨before, last, rfl⟩
  · rw [walk_nil] at ran
    cases ran
    exact .root
  · rw [List.concat_eq_append] at ran normal accepted ⊢
    obtain ⟨links, dir, leads, ends⟩ := leads_of_walk_append (List.cons_ne_nil _ _) ran
    obtain ⟨-, notHere, notUp, -⟩ := isName_iff.mp (normal last (by simp))
    rw [walk_last notHere notUp] at ends
    split at ends
    · cases ends
    · rename_i short
      cases found : d.entry? (dir ++ [last]) with
      | none =>
        rw [found] at ends
        cases ends
      | some e' =>
        rw [found] at ends
        cases ends
        exact .entry accepted leads ⟨notHere, notUp, Nat.not_lt.mp short⟩ found

theorem Denotes.unique {q' : Place} {e' : Entry} (one : Denotes d p q e)
    (other : Denotes d p q' e') : q = q' ∧ e = e' := by
  have same := one.located.symm.trans other.located
  cases same
  exact ⟨rfl, rfl⟩

/-- What is denoted is there. -/
theorem Denotes.held (denotes : Denotes d p q e) : d.entry? q = some e := by
  cases denotes with
  | root => rfl
  | entry _ _ _ found => exact found

/-- Only the path of the root denotes it. -/
theorem Denotes.root_iff (denotes : Denotes d p q e) : q = [] ↔ p = [] := by
  cases denotes with
  | root => simp
  | entry => simp

/-- Names lead where they do on a disk with more entries, too. -/
theorem leads_more {links' : Nat} (less : Within d' d) (leads : Leads d' links dir names links' p) :
    Leads d links dir names links' p := by
  induction leads with
  | here => exact .here
  | stay _ ih => exact .stay ih
  | up _ ih => exact .up ih
  | down sought found _ ih => exact .down sought (less _ _ found) ih
  | link sought found _ ih => exact .link sought (less _ _ found) ih

/-- From a directory its names lead into those below it. -/
theorem leads_below (nested : Nested d) (sought : ∀ name ∈ rest, Sought name)
    (held : d.entry? (dir ++ rest) = some .dir) : Leads d links dir rest links (dir ++ rest) := by
  induction rest generalizing dir with
  | nil =>
    rw [List.append_nil]
    exact .here
  | cons name rest ih =>
    obtain ⟨first, others⟩ := List.forall_mem_cons.mp sought
    rw [List.append_cons] at held ⊢
    exact .down first (nested.dir_above held) (ih others held)

theorem Denotes.more (less : Within d' d) (denotes : Denotes d' p q e) : Denotes d p q e := by
  cases denotes with
  | root => exact .root
  | entry accepted leads sought found =>
    exact .entry accepted (leads_more less leads) sought (less _ _ found)

/-- An operand is found and is what it denotes, or there is nothing that it denotes. -/
theorem require_cases (normal : Normal p) (d : Disk) :
    (∃ q e, Disk.require (d.locate false p) = .ok (q, e) ∧ Denotes d p q e) ∨
      (∃ why, Disk.require (d.locate false p) = .error why) ∧ ∀ q e, ¬Denotes d p q e := by
  cases found : Disk.require (d.locate false p) with
  | ok held =>
    obtain ⟨q, e⟩ := held
    exact .inl ⟨q, e, rfl, denotes_of_located normal (require_eq_ok_iff.mp found)⟩
  | error why =>
    refine .inr ⟨⟨why, rfl⟩, fun q e denotes => ?_⟩
    rw [require_eq_ok_iff.mpr denotes.located] at found
    cases found

/-! A name that the system does not take. -/

/-- A name that is one byte longer than the system takes. -/
def overlong : String := String.ofList (List.replicate (Disk.nameLimit + 1) 'd')

theorem utf8ByteSize_overlong : overlong.utf8ByteSize = Disk.nameLimit + 1 := by
  have each (n : Nat) : (String.ofList (List.replicate n 'd')).utf8ByteSize = n := by
    induction n with
    | zero => rfl
    | succ n ih =>
      have first : (String.ofList ['d']).utf8ByteSize = 1 := rfl
      rw [List.replicate_succ, ← List.singleton_append, String.ofList_append,
        String.utf8ByteSize_append, ih, first, Nat.add_comm]
  exact each _

/-- It is longer than any text of few characters. -/
theorem overlong_ne {text : String} (few : text.toList.length ≤ Disk.nameLimit) :
    overlong ≠ text := by
  rintro rfl
  rw [overlong, String.toList_ofList, List.length_replicate] at few
  exact Nat.not_succ_le_self _ few

theorem not_mem_overlong {c : Char} (other : c ≠ 'd') : c ∉ overlong.toList := by
  rw [overlong, String.toList_ofList]
  exact mt List.eq_of_mem_replicate other

theorem overlong_normal : Normal [overlong] := by
  intro name member
  obtain rfl := List.mem_singleton.mp member
  exact isName_iff.mpr ⟨overlong_ne (by decide), overlong_ne (by decide), overlong_ne (by decide),
    not_mem_overlong (by decide)⟩

theorem locate_overlong (d : Disk) (follow : Bool) :
    d.locate follow [overlong] = .error .nameTooLong := by
  have accepted : Accepted [overlong] := by
    refine ⟨by simpa using not_mem_overlong (by decide), ?_⟩
    simp [Place.width, utf8ByteSize_overlong, Disk.nameLimit, Disk.pathLimit]
  have long : Disk.nameLimit < overlong.utf8ByteSize := by
    rw [utf8ByteSize_overlong]
    exact Nat.lt_succ_self _
  rw [locate_of_accepted accepted]
  unfold Disk.walk
  rw [Disk.stride, if_neg (overlong_ne (by decide)), if_neg (overlong_ne (by decide)), if_pos long]

end LineShell.DenotedEntries
