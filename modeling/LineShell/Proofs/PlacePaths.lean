import LineShell.Proofs.ResolvedPaths
import LineShell.Proofs.WalkedPaths

/-! The path of a place as the walk of a path takes it. Its names are the steps of
its path, which is as long as the place is wide and has no characters but theirs and
slashes; so a place is found by its path. -/
namespace LineShell.PlacePaths
open PathNames ResolvedPaths WalkedPaths

variable {d : Disk} {p : Place} {names : List String} {c : Char}

theorem join_cons_cons (first second : String) (rest : List String) :
    Text.join "/" (first :: second :: rest) = first ++ "/" ++ Text.join "/" (second :: rest) := by
  simp [← String.toList_inj, Text.toList_join, Text.joinWith_cons_cons]

theorem join_singleton (name : String) : Text.join "/" [name] = name := by
  simp [← String.toList_inj, Text.toList_join, Text.joinWith]

theorem mem_join (other : c ≠ '/') :
    c ∈ (Text.join "/" names).toList ↔ ∃ name ∈ names, c ∈ name.toList := by
  induction names with
  | nil => simp [Text.join]
  | cons first rest ih =>
    cases rest with
    | nil => simp [join_singleton]
    | cons second rest =>
      have slash : c ∉ "/".toList := by simpa using other
      rw [join_cons_cons, String.toList_append, String.toList_append, List.mem_append,
        List.mem_append, ih]
      simp only [slash, or_false, List.mem_cons, exists_eq_or_imp]

theorem foldl_width (names : List String) (n : Nat) :
    names.foldl (fun n name => n + 1 + name.utf8ByteSize) n =
      n + names.foldl (fun n name => n + 1 + name.utf8ByteSize) 0 := by
  induction names generalizing n with
  | nil => rfl
  | cons name names ih =>
    rw [List.foldl_cons, List.foldl_cons, ih, ih (0 + 1 + name.utf8ByteSize)]
    omega

theorem size_join (names : List String) :
    1 + (Text.join "/" names).utf8ByteSize = Place.width names := by
  induction names with
  | nil => rfl
  | cons first rest ih =>
    cases rest with
    | nil => simp [join_singleton, Place.width]
    | cons second rest =>
      have slash : "/".utf8ByteSize = 1 := rfl
      rw [join_cons_cons, String.utf8ByteSize_append, String.utf8ByteSize_append, slash]
      have wide : 1 ≤ (second :: rest).foldl (fun n name => n + 1 + name.utf8ByteSize) 0 := by
        rw [List.foldl_cons, foldl_width]
        omega
      rw [Place.width] at ih ⊢
      rw [List.foldl_cons, foldl_width]
      omega

theorem join_ne_empty (more : names ≠ []) (some : "" ∉ names)
    (whole : ∀ name ∈ names, '/' ∉ name.toList) : Text.join "/" names ≠ "" := by
  intro empty
  have parts := names_join more whole
  have single : Path.names "" = [""] := rfl
  rw [empty, single] at parts
  exact some (parts ▸ List.mem_singleton.mpr rfl)

/-- A text made of names does not end with a slash. -/
theorem getLast?_join (some : "" ∉ names) (whole : ∀ name ∈ names, '/' ∉ name.toList) :
    (Text.join "/" names).toList.getLast? ≠ .some '/' := by
  induction names with
  | nil => simp [Text.join]
  | cons first rest ih =>
    obtain ⟨text, others⟩ := not_or.mp (mt List.mem_cons.mpr some)
    obtain ⟨wholeFirst, wholeRest⟩ := List.forall_mem_cons.mp whole
    cases rest with
    | nil =>
      rw [join_singleton]
      exact fun last => wholeFirst (List.mem_of_getLast? last)
    | cons second rest =>
      have later := ih others wholeRest
      have more : (Text.join "/" (second :: rest)).toList ≠ [] :=
        mt String.toList_eq_nil_iff.mp (join_ne_empty (List.cons_ne_nil _ _) others wholeRest)
      rw [join_cons_cons, String.toList_append, List.getLast?_append,
        Option.or_of_isSome (List.getLast?_isSome.mpr more)]
      exact later

theorem steps_of_names {path : String} (ends : path.toList.getLast? ≠ .some '/') :
    Disk.steps path = (Path.names path).filter (· ≠ "") := by
  simp [Disk.steps, ends]

theorem filter_names (some : "" ∉ names) : names.filter (· ≠ "") = names := by
  rw [List.filter_eq_self]
  exact fun name member => decide_eq_true fun empty => some (empty ▸ member)

/-- Names joined by slashes are the steps of the text. -/
theorem steps_join (some : "" ∉ names) (whole : ∀ name ∈ names, '/' ∉ name.toList) :
    Disk.steps (Text.join "/" names) = names := by
  rw [steps_of_names (getLast?_join some whole)]
  by_cases none : names = []
  · subst none
    decide
  · rw [names_join none whole, filter_names some]

/-! The path of a place. -/

theorem parts_of_normal (normal : Normal p) : "" ∉ p ∧ ∀ name ∈ p, '/' ∉ name.toList :=
  ⟨fun empty => (isName_iff.mp (normal "" empty)).1 rfl,
    fun name member => (isName_iff.mp (normal name member)).2.2.2⟩

theorem size_text (p : Place) : p.text.utf8ByteSize = p.width := by
  rw [Place.text, String.utf8ByteSize_append, ← size_join]
  rfl

theorem steps_text (normal : Normal p) (below : p ≠ []) : Disk.steps p.text = p := by
  obtain ⟨some, whole⟩ := parts_of_normal normal
  have more : (Text.join "/" p).toList ≠ [] :=
    mt String.toList_eq_nil_iff.mp (join_ne_empty below some whole)
  have ends : p.text.toList.getLast? ≠ .some '/' := by
    rw [Place.text, String.toList_append, List.getLast?_append,
      Option.or_of_isSome (List.getLast?_isSome.mpr more)]
    exact getLast?_join some whole
  rw [steps_of_names ends, names_text normal below, List.filter_cons_of_neg (by simp),
    filter_names some]

/-- A place is found by its path, from whatever directory the path is taken. -/
theorem locateText_text (normal : Normal p) (follow : Bool) (base : Place) :
    d.locateText follow base p.text = d.locate follow p := by
  have zeros : p.text.toList.contains '\x00' = p.any (·.toList.contains '\x00') := by
    rw [Bool.eq_iff_iff, List.any_eq_true]
    simp only [List.contains_iff_mem]
    rw [Place.text, String.toList_append, List.mem_append, mem_join (by decide)]
    simp
  have text : p.text ≠ "" := by
    intro empty
    have size := congrArg String.utf8ByteSize empty
    simp [Place.text] at size
  have walks : d.walk follow Disk.linkLimit [] (Disk.steps p.text) =
      d.walk follow Disk.linkLimit [] p := by
    by_cases root : p = []
    · subst root
      exact walk_stay
    · rw [steps_text normal root]
  rw [Disk.locateText, Disk.locate, zeros, if_neg text, size_text, isRooted_text]
  simp only [if_true, walks]

end LineShell.PlacePaths
