import LineShell.Proofs.ExtendedPaths
import LineShell.Proofs.WildcardWords

/-! The search for what a pattern stands for. It goes on by one name at a time, and
each of them was met: in the directory where the search stands, as one of the two names
that every directory has, or as an entry that was asked for. So the names that are found
follow the components of the pattern, and together they lead to an entry. -/
namespace LineShell.FoundPaths
open ExtendedPaths PathNames WalkedPaths Wildcard WildcardWords

/-- The name was met on a path. -/
def Met (d : Disk) (path name : String) : Prop :=
  name ∈ namesAt d path ∨ (name = "." ∨ name = "..") ∧ leadsToDir d path = true ∨
    isEntry d (extend path name) = true

/-- What a component with stars stands for; `.` and `..` only if it starts with a dot. -/
structure Stands (symbols : List Symbol) (name : String) : Prop where
  fills : Fills Within symbols name.toList
  named : Path.isName name = true ∨
    (name = "." ∨ name = "..") ∧ symbols.head? = some (.lit '.')

/-- The names that components stand for, one for each but for `**`, which stands for any
number of names, and for at least one at the end. -/
inductive Follows : List Component → List String → Prop where
  | done : Follows [] []
  | name {text rest names} (onwards : Follows rest names) :
      Follows (.name text :: rest) (text :: names)
  | pattern {symbols rest name names} (stands : Stands symbols name)
      (onwards : Follows rest names) : Follows (.pattern symbols :: rest) (name :: names)
  | pass {rest names} (more : rest ≠ []) (onwards : Follows rest names) :
      Follows (.anyDepth :: rest) names
  | deep {rest name names} (proper : Path.isName name = true)
      (onwards : Follows (.anyDepth :: rest) names) : Follows (.anyDepth :: rest) (name :: names)
  | last {name} (proper : Path.isName name = true) : Follows [.anyDepth] [name]

/-- What the search finds from a path on. -/
inductive Search (d : Disk) : List Component → String → List String → Prop where
  | done {path} : Search d [] path []
  | name {text rest path names} (met : Met d path text)
      (onwards : Search d rest (extend path text) names) :
      Search d (.name text :: rest) path (text :: names)
  | pattern {symbols rest path name names} (covered : covers symbols name.toList = true)
      (met : name ∈ namesAt d path ∨ (name = "." ∨ name = "..") ∧
        symbols.head? = some (.lit '.') ∧ leadsToDir d path = true)
      (onwards : Search d rest (extend path name) names) :
      Search d (.pattern symbols :: rest) path (name :: names)
  | pass {rest path names} (more : rest ≠ []) (onwards : Search d rest path names) :
      Search d (.anyDepth :: rest) path names
  | deep {rest path name names} (met : name ∈ namesAt d path)
      (onwards : Search d (.anyDepth :: rest) (extend path name) names) :
      Search d (.anyDepth :: rest) path (name :: names)
  | last {path name} (met : name ∈ namesAt d path) : Search d [.anyDepth] path [name]

variable {d : Disk} {needsDir : Bool} {comps rest : List Component} {path name r : String}
  {names : List String} {fuel : Nat} {here : String → String → List String} {p : Place}

/-! What the search does. -/

/-- Below a path something is found at one of the entries there. -/
theorem below_sound (member : r ∈ below d here fuel path)
    (found : ∀ path name, name ∈ namesAt d path → r ∈ here name (extend path name) →
      ∃ names, Search d (.anyDepth :: rest) path names ∧ r = extendAll path names) :
    ∃ names, Search d (.anyDepth :: rest) path names ∧ r = extendAll path names := by
  induction fuel generalizing path with
  | zero => cases member
  | succ fuel ih =>
    obtain ⟨name, met, inside⟩ := List.mem_flatMap.mp member
    rcases List.mem_append.mp inside with atName | deeper
    · exact found path name met atName
    · obtain ⟨names, search, ends⟩ := ih deeper
      exact ⟨name :: names, .deep met search, ends⟩

theorem paths_sound (member : r ∈ paths d needsDir comps path) :
    ∃ names, Search d comps path names ∧ r = extendAll path names := by
  induction comps, path using paths.induct d needsDir with
  | case1 path dead => simp [paths, dead] at member
  | case2 path alive =>
    rw [paths, if_neg alive, List.mem_singleton] at member
    exact ⟨[], .done, member⟩
  | case3 text rest path next seen ih =>
    rw [paths, if_pos seen] at member
    obtain ⟨names, search, ends⟩ := ih member
    refine ⟨text :: names, .name ?_ search, ends⟩
    by_cases dots : text = "." ∨ text = ".."
    · exact .inr (.inl ⟨dots, by simpa [dots] using seen⟩)
    · exact .inr (.inr (by simpa [dots] using seen))
  | case4 text rest path next unseen =>
    rw [paths, if_neg unseen] at member
    cases member
  | case5 symbols rest path ih =>
    rw [paths] at member
    obtain ⟨name, fits, inside⟩ := List.mem_flatMap.mp member
    obtain ⟨met, covered⟩ := List.mem_filter.mp fits
    obtain ⟨names, search, ends⟩ := ih name inside
    refine ⟨name :: names, .pattern covered ?_ search, ends⟩
    rcases List.mem_append.mp met with child | special
    · exact .inl child
    · split at special
      · rename_i dotted
        exact .inr ⟨by simpa using special, by simpa using dotted⟩
      · cases special
  | case6 rest path ih =>
    rw [paths] at member
    obtain ⟨names, search, ends⟩ := ih member
    exact ⟨names, .pass (List.cons_ne_nil _ _) search, ends⟩
  | case7 path =>
    rw [paths] at member
    refine below_sound member fun path name met inside => ⟨[name], .last met, ?_⟩
    split at inside
    · exact List.mem_singleton.mp inside
    · cases inside
  | case8 text rest path ih =>
    -- Below `**` a name is met in its directory, so the search does not ask for it again.
    rw [paths] at member
    refine below_sound member fun path name met inside => ?_
    split at inside
    · rename_i same
      subst same
      obtain ⟨names, search, ends⟩ := ih _ inside
      exact ⟨text :: names, .pass (List.cons_ne_nil _ _) (.name (.inl met) search), ends⟩
    · cases inside
  | case9 symbols rest path ih =>
    rw [paths] at member
    refine below_sound member fun path name met inside => ?_
    split at inside
    · rename_i covered
      obtain ⟨names, search, ends⟩ := ih _ inside
      exact ⟨name :: names, .pass (List.cons_ne_nil _ _) (.pattern covered (.inl met) search), ends⟩
    · cases inside

/-! What the names are. -/

theorem namesAt_sound (met : name ∈ namesAt d path) :
    ∃ p, d.locateText true [] path = .ok (.found p .dir) ∧ name ∈ d.children p := by
  unfold namesAt at met
  split at met
  · rename_i p located
    exact ⟨p, located, met⟩
  · cases met

theorem isName_of_met (orderly : Orderly d) (met : name ∈ namesAt d path) :
    Path.isName name = true := by
  obtain ⟨p, -, child⟩ := namesAt_sound met
  exact (child_sought orderly child).1

theorem whole_of_named (named : Path.isName name = true ∨ name = "." ∨ name = "..") :
    '/' ∉ name.toList := by
  rcases named with proper | rfl | rfl
  · exact (isName_iff.mp proper).2.2.2
  · decide
  · decide

theorem not_stands_here {symbols : List Symbol} (undotted : symbols.head? ≠ some (.lit '.')) :
    ¬Stands symbols "." := fun stands =>
  stands.named.elim (fun proper => (isName_iff.mp proper).2.1 rfl) fun dotted => undotted dotted.2

theorem Search.follows (orderly : Orderly d) (search : Search d comps path names) :
    Follows comps names := by
  induction search with
  | done => exact .done
  | name _ _ ih => exact .name ih
  | @pattern symbols _ _ name _ covered met _ ih =>
    have named : Path.isName name = true ∨
        (name = "." ∨ name = "..") ∧ symbols.head? = some (.lit '.') :=
      met.imp (isName_of_met orderly) fun special => ⟨special.1, special.2.1⟩
    have whole := whole_of_named (named.imp_right And.left)
    have inside : ∀ c ∈ name.toList, Within c := by
      rintro c member rfl
      exact whole member
    exact .pattern ⟨(covers_iff.mp covered).restrict inside, named⟩ ih
  | pass more _ ih => exact .pass more ih
  | deep met _ ih => exact .deep (isName_of_met orderly met) ih
  | last met => exact .last (isName_of_met orderly met)

theorem Follows.whole (follows : Follows comps names)
    (texts : ∀ text, .name text ∈ comps → '/' ∉ text.toList) :
    ∀ name ∈ names, '/' ∉ name.toList := by
  induction follows with
  | done => exact fun _ member => absurd member List.not_mem_nil
  | name _ ih =>
    exact List.forall_mem_cons.mpr ⟨texts _ List.mem_cons_self,
      ih fun text member => texts text (List.mem_cons_of_mem _ member)⟩
  | pattern stands _ ih =>
    exact List.forall_mem_cons.mpr ⟨whole_of_named (stands.named.imp_right And.left),
      ih fun text member => texts text (List.mem_cons_of_mem _ member)⟩
  | pass _ _ ih => exact ih fun text member => texts text (List.mem_cons_of_mem _ member)
  | deep proper _ ih => exact List.forall_mem_cons.mpr ⟨whole_of_named (.inl proper), ih texts⟩
  | last proper =>
    exact List.forall_mem_singleton.mpr (whole_of_named (.inl proper))

/-! Where the names lead. -/

theorem leads_of_located (located : d.locateText true [] path = .ok (.found p .dir)) :
    ∃ links, Leads d Disk.linkLimit [] (spelled (Path.names path)) links p := by
  obtain ⟨links, leads⟩ := leads_of_walk (walk_of_locateText located)
  exact leads.undotted (undotted_steps path)

theorem leadsToDir_sound (dir : leadsToDir d path = true) :
    ∃ p, d.locateText true [] path = .ok (.found p .dir) := by
  unfold leadsToDir Disk.endsAtDir at dir
  split at dir
  · exact ⟨_, by assumption⟩
  · cases dir

theorem isEntry_sound (entry : isEntry d path = true) :
    Held d Disk.linkLimit [] (Disk.steps path) := by
  unfold isEntry at entry
  cases looked : Disk.require (d.locateText false [] path) with
  | error e =>
    rw [looked] at entry
    cases entry
  | ok found => exact ⟨found.1, found.2, walk_of_locateText (require_eq_ok_iff.mp looked)⟩

theorem Met.held (orderly : Orderly d) (whole : '/' ∉ name.toList) (met : Met d path name) :
    Held d Disk.linkLimit [] (spelled (Path.names path) ++ spelled [name]) := by
  rcases met with child | ⟨dots, dir⟩ | entry
  · obtain ⟨p, located, child⟩ := namesAt_sound child
    obtain ⟨proper, sought⟩ := child_sought orderly child
    obtain ⟨links, leads⟩ := leads_of_located located
    obtain ⟨e, found⟩ := Option.isSome_iff_exists.mp (mem_children.mp child)
    have kept : spelled [name] = [name] := by
      simp [spelled, (isName_iff.mp proper).1]
    rw [kept]
    exact (held_append leads (List.cons_ne_nil _ _)).mpr ⟨_, e, walk_one sought found⟩
  · obtain ⟨p, located⟩ := leadsToDir_sound dir
    obtain ⟨links, leads⟩ := leads_of_located located
    rcases dots with rfl | rfl
    · exact held_of_leads (leads.append (.stay .here))
    · exact held_of_leads (leads.append (.up .here))
  · rw [← spelled_names_extend whole]
    exact (isEntry_sound entry).undotted (undotted_steps _)

/-- All names together lead to an entry. -/
theorem Search.held (orderly : Orderly d) (search : Search d comps path names)
    (some : comps ≠ []) (whole : ∀ name ∈ names, '/' ∉ name.toList) :
    Held d Disk.linkLimit [] (spelled (Path.names path) ++ spelled names) := by
  -- That a name was met counts only for the last one: the others are on its path.
  have next {name : String} {rest : List Component} {names : List String} {path : String}
      (met : Met d path name) (first : '/' ∉ name.toList)
      (onwards : Search d rest (extend path name) names)
      (ih : rest ≠ [] →
        Held d Disk.linkLimit [] (spelled (Path.names (extend path name)) ++ spelled names)) :
      Held d Disk.linkLimit [] (spelled (Path.names path) ++ spelled (name :: names)) := by
    by_cases ends : rest = []
    · subst ends
      cases onwards
      exact met.held orderly first
    · have longer := ih ends
      rwa [spelled_names_extend first, List.append_assoc, ← spelled_append] at longer
  induction search with
  | done => exact absurd rfl some
  | name met onwards ih =>
    obtain ⟨first, others⟩ := List.forall_mem_cons.mp whole
    exact next met first onwards fun more => ih more others
  | pattern _ met onwards ih =>
    obtain ⟨first, others⟩ := List.forall_mem_cons.mp whole
    exact next (met.imp_right fun special => .inl ⟨special.1, special.2.2⟩) first onwards
      fun more => ih more others
  | pass more _ ih => exact ih more whole
  | deep met onwards ih =>
    obtain ⟨first, others⟩ := List.forall_mem_cons.mp whole
    exact next (.inl met) first onwards fun more => ih more others
  | last met => exact Met.held orderly (whole _ List.mem_cons_self) (.inl met)

end LineShell.FoundPaths
