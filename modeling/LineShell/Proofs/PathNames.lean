import LineShell.Disk.Place

/-! Places as absolute paths. The names of a place are what stands between the
slashes of its path, so a place of proper names is an absolute path without
superfluous parts. Resolution takes its names from between slashes and leaves out
the others, so it never leaves these places. -/
namespace LineShell.PathNames

/-- Every name of the place is one that an entry can have. -/
def Normal (p : Place) : Prop := ∀ name ∈ p, Path.isName name = true

/-- An absolute path in which every slash is followed by a name, none of them `.`
or `..`, or the root. -/
def Normalised (path : String) : Prop :=
  path = "/" ∨ ∃ names, names ≠ [] ∧ Path.names path = "" :: names ∧
    ∀ name ∈ names, name ≠ "" ∧ name ≠ "." ∧ name ≠ ".."

theorem isName_iff {name : String} : Path.isName name = true ↔
    name ≠ "" ∧ name ≠ "." ∧ name ≠ ".." ∧ '/' ∉ name.toList := by
  simp [Path.isName, and_assoc]

/-! Cutting at separators, and joining again. -/

theorem not_sep_of_mem_splitWhere {α : Type} {sep : α → Bool} {xs piece : List α}
    (member : piece ∈ Text.splitWhere sep xs) (x : α) (held : x ∈ piece) : sep x = false := by
  induction xs generalizing piece with
  | nil =>
    rw [Text.splitWhere_nil, List.mem_singleton] at member
    subst member
    cases held
  | cons y ys ih =>
    cases known : sep y with
    | true =>
      rw [Text.splitWhere_cons_sep ys known] at member
      rcases List.mem_cons.mp member with rfl | later
      · cases held
      · exact ih later held
    | false =>
      rw [Text.splitWhere_cons_other ys known] at member
      obtain ⟨first, later, cut⟩ := List.exists_cons_of_ne_nil (Text.splitWhere_ne_nil sep ys)
      rw [cut, List.modifyHead_cons] at member
      rcases List.mem_cons.mp member with rfl | member
      · rcases List.mem_cons.mp held with rfl | held
        · exact known
        · exact ih (by simp [cut]) held
      · exact ih (by simp [cut, member]) held

/-- Pieces without separators come apart again where they were joined. -/
theorem splitWhere_joinWith {α : Type} {sep : α → Bool} {x : α} (isSep : sep x = true)
    {pieces : List (List α)} (some : pieces ≠ [])
    (clean : ∀ piece ∈ pieces, ∀ y ∈ piece, sep y = false) :
    Text.splitWhere sep (Text.joinWith [x] pieces) = pieces := by
  induction pieces with
  | nil => exact absurd rfl some
  | cons first rest ih =>
    obtain ⟨cleanFirst, cleanRest⟩ := List.forall_mem_cons.mp clean
    cases rest with
    | nil =>
      have single : Text.joinWith [x] [first] = first := by simp [Text.joinWith]
      rw [single, Text.splitWhere_clean cleanFirst]
    | cons second rest =>
      rw [Text.joinWith_cons_cons, List.singleton_append, Text.splitWhere_append_sep _ _ isSep,
        Text.splitWhere_clean cleanFirst, ih (by simp) cleanRest]
      rfl

/-! Resolution. -/

theorem slash_not_mem_names {path name : String} (member : name ∈ Path.names path) :
    '/' ∉ name.toList := by
  obtain ⟨piece, held, rfl⟩ := List.mem_map.mp member
  intro slash
  rw [String.toList_ofList] at slash
  have other := not_sep_of_mem_splitWhere held '/' slash
  simp at other

theorem enter_normal {p : Place} {name : String} (normal : Normal p) (whole : '/' ∉ name.toList) :
    Normal (Path.enter p name) := by
  unfold Path.enter
  split
  · exact normal
  · rename_i proper
    split
    · intro other member
      exact normal other ((List.dropLast_prefix p).subset member)
    · rename_i notUp
      simp only [Bool.or_eq_true, decide_eq_true_eq, not_or] at proper
      intro other member
      rcases List.mem_append.mp member with member | member
      · exact normal other member
      · rw [List.mem_singleton.mp member]
        exact isName_iff.mpr ⟨proper.1, proper.2, notUp, whole⟩

/-- From a place of proper names every path leads to one. -/
theorem resolve_normal {cwd : Place} (normal : Normal cwd) (path : String) :
    Normal (Path.resolve cwd path) := by
  have walk : ∀ (names : List String) (p : Place), (∀ name ∈ names, '/' ∉ name.toList) →
      Normal p → Normal (names.foldl Path.enter p) := by
    intro names
    induction names with
    | nil => exact fun p _ normal => normal
    | cons name names ih =>
      intro p whole normal
      obtain ⟨first, others⟩ := List.forall_mem_cons.mp whole
      exact ih (Path.enter p name) others (enter_normal normal first)
  refine walk _ _ (fun name member => slash_not_mem_names member) ?_
  split
  · exact fun name member => absurd member List.not_mem_nil
  · exact normal

/-! Paths of places. -/

theorem names_join {names : List String} (some : names ≠ [])
    (whole : ∀ name ∈ names, '/' ∉ name.toList) :
    Path.names (Text.join "/" names) = names := by
  have clean : ∀ piece ∈ names.map String.toList, ∀ c ∈ piece, decide (c = '/') = false := by
    intro piece member c held
    obtain ⟨name, named, rfl⟩ := List.mem_map.mp member
    exact decide_eq_false (by rintro rfl; exact whole name named held)
  have cut : Text.splitWhere (· = '/') (Text.joinWith ['/'] (names.map String.toList)) =
      names.map String.toList := splitWhere_joinWith (by simp) (by simpa using some) clean
  simp [Path.names, Text.toList_join, show "/".toList = ['/'] from rfl, cut]

/-- The path of a place other than the root has the place's names between its
slashes. -/
theorem names_text {p : Place} (normal : Normal p) (below : p ≠ []) :
    Path.names p.text = "" :: p := by
  have chars : p.text.toList = '/' :: (Text.join "/" p).toList := by simp [Place.text]
  have joined := names_join below fun name member => (isName_iff.mp (normal name member)).2.2.2
  rw [Path.names] at joined
  rw [Path.names, chars, Text.splitWhere_cons_sep _ rfl, List.map_cons, joined]

theorem normalised_text {p : Place} (normal : Normal p) : Normalised p.text := by
  by_cases root : p = []
  · exact .inl (by rw [root]; rfl)
  · refine .inr ⟨p, root, names_text normal root, fun name member => ?_⟩
    obtain ⟨some, notHere, notUp, -⟩ := isName_iff.mp (normal name member)
    exact ⟨some, notHere, notUp⟩

end LineShell.PathNames
