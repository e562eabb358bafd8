import LineShell.Proofs.MovedEntries

/-! What `mv -n` spares. Before a source is moved its target's name is followed, so an
entry that leads anywhere keeps its name. A link that leads nowhere is not seen that
way, and the rename, which does not follow it, puts the source in its place. Nothing
else is ever written over. -/
namespace LineShell.SparedEntries
open DenotedEntries DiskTrees MovedEntries PathNames RenamedEntries

/-- The places that sources were moved from. -/
def taken (deeds : List Deed) : List Place := deeds.filterMap fun deed =>
  match deed.fate with
  | .moved p _ => some p
  | .left | .refused _ => none

/-- The source took the name of a link at `z`, which led nowhere when it was met. -/
inductive Supplants (z : Place) (text : String) : Deed → Prop where
  | intro {operand : String} {before : Disk} {p target : Place} (points : Points before target z)
      (link : before.entry? z = some (.link text)) (dead : before.reaches target = false) :
      Supplants z text ⟨operand, before, .moved p z⟩

variable {m : Plan} {d d₁ d' : Disk} {cwd p q r z target : Place} {e e' : Entry}
  {deeds : List Deed}

/-- Only a link can have a name that does not lead anywhere. -/
theorem link_of_unreached (points : Points d target q) (held : d.entry? q = some e)
    (dead : d.reaches target = false) : ∃ text, e = .link text := by
  cases e with
  | link text => exact ⟨text, rfl⟩
  | dir | file id =>
    have leads := points.reaches held (by simp)
    rw [dead] at leads
    cases leads

/-- An entry aside from the move stays, unless the move is to its own name. -/
theorem stays_aside (may : Movable d r target p q e') (nested : Nested d)
    (moved : Relocated d p q d₁) (held : d.entry? z = some e) (outside : p.covers z = false)
    (other : z ≠ q) : d₁.entry? z = some e ∧ look? d₁ z = look? d z := by
  have apart : q.covers z = false := by
    rw [← Bool.not_eq_true]
    intro covers
    obtain ⟨rest, rfl⟩ := covers_iff.mp covers
    have below : rest ≠ [] := by
      rintro rfl
      exact other (List.append_nil q)
    rw [may.gives.nothing_below nested below] at held
    cases held
  have same := moved.aside outside apart
  refine ⟨same.trans held, ?_⟩
  rw [look?, look?, same, lookOf_congr moved.contents]

theorem InTurn.kept (inTurn : InTurn m cwd d deeds d') (nested : Nested d)
    (keeps : m.keepOld = true) (held : d.entry? z = some e)
    (outside : ∀ p ∈ taken deeds, p.covers z = false) :
    look? d' z = look? d z ∨
      ∃ text, e = .link text ∧ ∃ deed ∈ deeds, Supplants z text deed := by
  induction inTurn with
  | done => exact .inl rfl
  | @stayed _ _ _ _ deeds _ _ ih =>
    have beside : ∀ p ∈ taken deeds, p.covers z = false := by
      intro p gone
      apply outside
      obtain ⟨deed, member, here⟩ := List.mem_filterMap.mp gone
      exact List.mem_filterMap.mpr ⟨deed, List.mem_cons_of_mem _ member, here⟩
    rcases ih nested held beside with same | ⟨text, link, deed, member, supplants⟩
    · exact .inl same
    · exact .inr ⟨text, link, deed, List.mem_cons_of_mem _ member, supplants⟩
  | @moved d d₁ d' operand p q deeds goes relocated later ih =>
    have gone : taken (⟨operand, d, .moved p q⟩ :: deeds) = p :: taken deeds := rfl
    rw [gone] at outside
    obtain ⟨here, others⟩ := List.forall_mem_cons.mp outside
    obtain ⟨target, e', -, may, fresh⟩ := goes.moves
    by_cases onto : z = q
    · -- the old entry has the name that the source goes to
      subst onto
      obtain ⟨text, rfl⟩ := link_of_unreached may.points held (fresh keeps)
      exact .inr ⟨text, rfl, _, List.mem_cons_self, .intro may.points held (fresh keeps)⟩
    · obtain ⟨stays, same⟩ := stays_aside may nested relocated held here onto
      rcases ih (goes.nested relocated nested) stays others with
        later | ⟨text, link, deed, member, supplants⟩
      · exact .inl (later.trans same)
      · exact .inr ⟨text, link, deed, List.mem_cons_of_mem _ member, supplants⟩

theorem keepOld_of_plan {s : Session} {args : List String}
    (asked : ∀ o, Options.parse "n".toList args = .ok o → o.has 'n' = true)
    (planned : plan s args = .ok m) : m.keepOld = true := by
  unfold plan at planned
  split at planned
  · cases planned
  · rename_i o parsed
    split at planned
    · cases planned
    · cases planned
    · dsimp only at planned
      split at planned
      · cases planned
      · cases planned
        exact asked o parsed

/-- With `n` among its flags `mv` meets its sources in turn, and afterwards every entry
that is not at or below a place that a source was moved from shows what it did. The only
exception is a link that led nowhere, whose name a source was moved to. -/
theorem old_entries_stay_unless_links_lead_nowhere (args : List String) (s : Session)
    (normal : Normal s.cwd) (nested : Nested s.disk)
    (asked : ∀ o, Options.parse "n".toList args = .ok o → o.has 'n' = true) :
    ∃ deeds d', (Mv.run args).start s = some (lastWord s args deeds, { s with disk := d' }) ∧
      Meets s args deeds d' ∧
      ∀ z e, s.disk.entry? z = some e → (∀ p ∈ taken deeds, p.covers z = false) →
        look? d' z = look? s.disk z ∨
          ∃ text, e = .link text ∧ ∃ deed ∈ deeds, Supplants z text deed := by
  obtain ⟨deeds, d', ran, meets⟩ := start_mv normal nested args
  refine ⟨deeds, d', ran, meets, ?_⟩
  intro z e held outside
  unfold Meets at meets
  split at meets
  · obtain ⟨-, rfl⟩ := meets
    exact .inl rfl
  · rename_i m planned
    exact InTurn.kept meets.2 nested (keepOld_of_plan asked planned) held outside

/-- Three files, and a directory with a file, a link to it and a link to nothing under
the names of these files. -/
def guarded : Session where
  disk :=
    { entries := [(["a"], .file 0), (["b"], .file 1), (["c"], .file 2), (["d"], .dir),
        (["d", "a"], .file 3), (["d", "b"], .link "a"), (["d", "c"], .link "gone")]
      contents := [Text.bytes "1", Text.bytes "2", Text.bytes "3", Text.bytes "old"] }

/-- The guarded directory with the third file in place of the link to nothing. -/
def breachedDisk : Disk where
  entries := [(["a"], .file 0), (["b"], .file 1), (["d", "c"], .file 2), (["d"], .dir),
    (["d", "a"], .file 3), (["d", "b"], .link "a")]
  contents := guarded.disk.contents

/-- The file and the link to it keep their names. -/
theorem file_and_link_keep_their_names :
    (Normal guarded.cwd ∧ Nested guarded.disk ∧
      ∀ o, Options.parse "n".toList ["-n", "a", "b", "c", "d"] = .ok o → o.has 'n' = true) ∧
    ∃ deeds, (Mv.run ["-n", "a", "b", "c", "d"]).start guarded =
        some (.ok .proceed, { guarded with disk := breachedDisk }) ∧
      Meets guarded ["-n", "a", "b", "c", "d"] deeds breachedDisk ∧
      ∀ z e, guarded.disk.entry? z = some e → (∀ p ∈ taken deeds, p.covers z = false) →
        look? breachedDisk z = look? guarded.disk z ∨
          ∃ text, e = .link text ∧ ∃ deed ∈ deeds, Supplants z text deed := by
  have normal : Normal guarded.cwd := ResolvedPaths.normal_nil
  have nested : Nested guarded.disk := by decide
  have asked : ∀ o, Options.parse "n".toList ["-n", "a", "b", "c", "d"] = .ok o →
      o.has 'n' = true := by
    intro o parsed
    cases parsed
    rfl
  have known : (Mv.run ["-n", "a", "b", "c", "d"]).start guarded =
      some (.ok .proceed, { guarded with disk := breachedDisk }) := by decide +kernel
  obtain ⟨deeds, d', ran, meets, kept⟩ :=
    old_entries_stay_unless_links_lead_nowhere ["-n", "a", "b", "c", "d"] guarded normal nested asked
  obtain ⟨-, same⟩ := Prod.mk.inj (Option.some.inj (ran.symm.trans known))
  obtain rfl : d' = breachedDisk := congrArg Session.disk same
  exact ⟨⟨normal, nested, asked⟩, deeds, known, meets, kept⟩

/-- A link to nothing is written over, though `n` is given. -/
theorem link_to_nothing_is_written_over :
    (Normal guarded.cwd ∧ Nested guarded.disk ∧
      Options.parse "n".toList ["-n", "c", "d/c"] = .ok ⟨['n'], ["c", "d/c"]⟩) ∧
    (Mv.run ["-n", "c", "d/c"]).start guarded =
      some (.ok .proceed, { guarded with disk := breachedDisk }) ∧
    Place.covers ["c"] ["d", "c"] = false ∧
    look? guarded.disk ["d", "c"] = some (.link "gone") ∧
    look? breachedDisk ["d", "c"] = some (.file (Text.bytes "3")) := by
  refine ⟨⟨ResolvedPaths.normal_nil, ?_, ?_⟩, ?_, ?_, ?_, ?_⟩
  · decide
  · decide
  · decide +kernel
  · decide
  · decide
  · decide

end LineShell.SparedEntries
