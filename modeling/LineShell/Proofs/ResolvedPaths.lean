import Mathlib.Data.List.Induction
import Mathlib.Logic.Function.Iterate
import LineShell.Proofs.PathNames

/-! Resolution of paths as texts. A resolved path is the normal form of the place
it names, so resolving it again changes nothing, and a path can be resolved in two
parts, wherever a slash cuts it. Each `..` takes one name off and finds none at the
root. -/
namespace LineShell.ResolvedPaths
open PathNames

/-- One level up. -/
def climb (path : String) : String := Path.resolveText path ".."

variable {cwd path : String} {p : Place} {names : List String}

theorem normal_nil : Normal [] := fun _ member => absurd member List.not_mem_nil

theorem normal_append : Normal (p ++ names) ↔ Normal p ∧ Normal names := by
  simp [PathNames.Normal, or_imp, forall_and]

/-! Proper names are what they are called. -/

theorem foldl_enter (normal : Normal names) : names.foldl Path.enter p = p ++ names := by
  induction names generalizing p with
  | nil => simp
  | cons name names ih =>
    obtain ⟨first, others⟩ := List.forall_mem_cons.mp normal
    obtain ⟨some, notHere, notUp, -⟩ := isName_iff.mp first
    have down : Path.enter p name = p ++ [name] := by simp [Path.enter, some, notHere, notUp]
    rw [List.foldl_cons, down, ih others, List.append_assoc, List.singleton_append]

theorem isRooted_text (p : Place) : Path.isRooted p.text = true := by
  simp [Path.isRooted, Place.text]

/-- The path of a place leads to it from everywhere. -/
theorem resolve_text (normal : Normal p) (cwd : Place) : Path.resolve cwd p.text = p := by
  rw [Path.resolve, if_pos (isRooted_text p)]
  by_cases root : p = []
  · subst root
    decide
  · have stay : Path.enter [] "" = [] := by simp [Path.enter]
    rw [names_text normal root, List.foldl_cons, stay, foldl_enter normal, List.nil_append]

/-! Names joined by slashes. -/

theorem isRooted_join (some : "" ∉ names) (whole : ∀ name ∈ names, '/' ∉ name.toList) :
    Path.isRooted (Text.join "/" names) = false := by
  cases names with
  | nil => rfl
  | cons name names =>
    have text : name ≠ "" := fun empty => some (by simp [empty])
    obtain ⟨c, rest, spelled⟩ := List.exists_cons_of_ne_nil (mt String.toList_eq_nil_iff.mp text)
    have begins : (Text.join "/" (name :: names)).toList.head? = Option.some c := by
      cases names <;> simp [Text.toList_join, Text.joinWith, spelled]
    have other : c ≠ '/' := by
      rintro rfl
      exact whole name (by simp) (by simp [spelled])
    simp [Path.isRooted, begins, other]

/-- Names joined by slashes are gone through one by one. -/
theorem resolve_join (some : "" ∉ names) (whole : ∀ name ∈ names, '/' ∉ name.toList) :
    Path.resolve p (Text.join "/" names) = names.foldl Path.enter p := by
  by_cases none : names = []
  · subst none
    simp [Text.join]
  · rw [Path.resolve, isRooted_join some whole, names_join none whole]
    rfl

/-- From a place, proper names joined by slashes lead down along them. -/
theorem resolve_join_normal (normal : Normal names) :
    Path.resolve p (Text.join "/" names) = p ++ names := by
  have parts (name : String) (member : name ∈ names) : name ≠ "" ∧ '/' ∉ name.toList := by
    obtain ⟨text, -, -, whole⟩ := isName_iff.mp (normal name member)
    exact ⟨text, whole⟩
  rw [resolve_join (fun empty => (parts "" empty).1 rfl) fun name member => (parts name member).2,
    foldl_enter normal]

/-! Two paths, one after the other. -/

theorem names_append_slash (first second : String) :
    Path.names (first ++ "/" ++ second) = Path.names first ++ Path.names second := by
  simp [Path.names, Text.splitWhere_append_sep]

theorem isRooted_append {first : String} (some : first ≠ "") (second : String) :
    Path.isRooted (first ++ second) = Path.isRooted first := by
  obtain ⟨c, rest, spelled⟩ := List.exists_cons_of_ne_nil (mt String.toList_eq_nil_iff.mp some)
  simp [Path.isRooted, spelled]

theorem resolve_append_slash {first second : String} (some : first ≠ "")
    (relative : Path.isRooted second = false) :
    Path.resolve p (first ++ "/" ++ second) = Path.resolve (Path.resolve p first) second := by
  have start : Path.isRooted (first ++ "/" ++ second) = Path.isRooted first := by
    rw [String.append_assoc, isRooted_append some]
  simp [Path.resolve, start, names_append_slash, relative]

theorem resolve_of_isRooted (rooted : Path.isRooted path = true) (p q : Place) :
    Path.resolve p path = Path.resolve q path := by
  simp [Path.resolve, rooted]

theorem resolve_up (p : Place) : Path.resolve p ".." = p.dropLast := rfl

/-! Resolution of texts is resolution of places. -/

theorem resolveText_eq (rooted : Path.isRooted cwd = true ∨ Path.isRooted path = true) :
    Path.resolveText cwd path = (Path.resolve (Path.resolve [] cwd) path).text := by
  rw [Path.resolveText, if_pos (by simpa using rooted)]

theorem resolveText_text (normal : Normal p) (path : String) :
    Path.resolveText p.text path = (Path.resolve p path).text := by
  rw [resolveText_eq (.inl (isRooted_text p)), resolve_text normal]

theorem normal_resolved (cwd path : String) :
    Normal (Path.resolve (Path.resolve [] cwd) path) :=
  resolve_normal (resolve_normal normal_nil cwd) path

theorem climb_text (normal : Normal p) : climb p.text = Place.text p.dropLast := by
  rw [climb, resolveText_text normal, resolve_up]

/-- As many steps up as there were names down lead back. -/
theorem climb_names (normal : Normal p) (proper : Normal names) :
    climb^[names.length] (p ++ names).text = p.text := by
  induction names using List.reverseRecOn with
  | nil => simp
  | append_singleton names name ih =>
    have both := normal_append.mp proper
    have whole : Normal (p ++ (names ++ [name])) := normal_append.mpr ⟨normal, proper⟩
    rw [List.length_append, List.length_singleton, Function.iterate_succ_apply, climb_text whole,
      ← List.append_assoc, List.dropLast_concat, ih both.1]

theorem climb_root (k : Nat) : climb^[k] "/" = "/" := by
  have stays : climb "/" = "/" := climb_text normal_nil
  exact Function.iterate_fixed stays k

/-- From an absolute directory every path resolves to an absolute path without
superfluous parts, which resolves to itself, and for an absolute path the directory
makes no difference. A path cut at a slash is resolved part by part. Proper names
lead down and as many `..` back up; further ones end at the root and stay there, and
at the root a `..` in the middle of a path counts for nothing. -/
theorem resolved_paths_are_normal_and_compose (cwd : String)
    (rooted : Path.isRooted cwd = true) :
    (∀ path, Path.isRooted (Path.resolveText cwd path) = true ∧
      Normalised (Path.resolveText cwd path)) ∧
    (∀ path, Path.resolveText cwd (Path.resolveText cwd path) = Path.resolveText cwd path) ∧
    (∀ path, Path.isRooted path = true →
      ∀ other, Path.resolveText cwd path = Path.resolveText other path) ∧
    (∀ first second, first ≠ "" → Path.isRooted second = false →
      Path.resolveText cwd (first ++ "/" ++ second) =
        Path.resolveText (Path.resolveText cwd first) second) ∧
    (∀ names, (∀ name ∈ names, Path.isName name = true) →
      climb^[names.length] (Path.resolveText cwd (Text.join "/" names)) =
        Path.resolveText "/" cwd) ∧
    (∀ path, ∃ depth, ∀ k, depth ≤ k → climb^[k] (Path.resolveText cwd path) = "/") ∧
    ∀ first second, first ≠ "" → Path.isRooted second = false →
      Path.resolveText cwd first = "/" →
      Path.resolveText cwd (first ++ "/../" ++ second) =
        Path.resolveText cwd (first ++ "/" ++ second) := by
  have resolved (path : String) : Path.resolveText cwd path =
      (Path.resolve (Path.resolve [] cwd) path).text := resolveText_eq (.inl rooted)
  have fromRoot (path : String) : Path.resolveText "/" path = (Path.resolve [] path).text :=
    resolveText_text normal_nil path
  have here : Normal (Path.resolve [] cwd) := resolve_normal normal_nil cwd
  have composed (first second : String) (some : first ≠ "")
      (relative : Path.isRooted second = false) :
      Path.resolveText cwd (first ++ "/" ++ second) =
        Path.resolveText (Path.resolveText cwd first) second := by
    rw [resolved, resolved first, resolveText_text (normal_resolved cwd first),
      resolve_append_slash some relative]
  refine ⟨fun path => ?_, fun path => ?_, fun path absolute other => ?_, composed,
    fun names proper => ?_, fun path => ?_, fun first second some relative atRoot => ?_⟩
  · rw [resolved]
    exact ⟨isRooted_text _, normalised_text (normal_resolved cwd path)⟩
  · rw [resolved, resolved path, resolve_text (normal_resolved cwd path)]
  · rw [resolved, resolveText_eq (.inr absolute), resolve_of_isRooted absolute]
  · rw [resolved, resolve_join_normal proper, climb_names here proper, fromRoot]
  · refine ⟨(Path.resolve (Path.resolve [] cwd) path).length, fun k deep => ?_⟩
    obtain ⟨more, rfl⟩ := Nat.exists_eq_add_of_le deep
    have back := climb_names normal_nil (normal_resolved cwd path)
    rw [List.nil_append] at back
    rw [resolved, Nat.add_comm, Function.iterate_add_apply, back]
    exact climb_root more
  · have up : first ++ "/../" ++ second = first ++ "/" ++ (".." ++ "/" ++ second) := by
      simp [← String.toList_inj]
    have atRootUp : Path.resolveText "/" (".." ++ "/" ++ second) = Path.resolveText "/" second := by
      rw [fromRoot, fromRoot, resolve_append_slash (by decide) relative]
      rfl
    have relativeUp : Path.isRooted (".." ++ "/" ++ second) = false := by
      rw [String.append_assoc, isRooted_append (by decide)]
      rfl
    rw [up, composed first _ some relativeUp, composed first second some relative, atRoot, atRootUp]

/-- A directory with superfluous parts, two names below it, and a path that goes up
further than it went down. -/
theorem up_and_down_from_superfluous_parts :
    Path.isRooted "/home//./u/" = true ∧
    (∀ name ∈ ["a", "b"], Path.isName name = true) ∧
    climb^[2] (Path.resolveText "/home//./u/" "a/b") = "/home/u" ∧
    Path.isRooted "../../../c" = false ∧
    Path.resolveText "/home//./u/" ("a/b/../.." ++ "/" ++ "../../../c") = "/c" := by
  have rooted : Path.isRooted "/home//./u/" = true := by decide
  have proper : ∀ name ∈ ["a", "b"], Path.isName name = true := by decide
  have relative : Path.isRooted "../../../c" = false := by decide
  obtain ⟨-, -, -, composes, back, -⟩ := resolved_paths_are_normal_and_compose "/home//./u/" rooted
  refine ⟨rooted, proper, ?_, relative, ?_⟩
  · have joined : Text.join "/" ["a", "b"] = "a/b" := by decide +kernel
    have normal : Path.resolveText "/" "/home//./u/" = "/home/u" := by decide +kernel
    have returned := back ["a", "b"] proper
    rwa [joined, normal] at returned
  · rw [composes "a/b/../.." "../../../c" (by decide) relative]
    decide +kernel

end LineShell.ResolvedPaths
