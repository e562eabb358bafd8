import Mathlib.Data.List.DropRight
import LineShell.Application.Ls
import LineShell.Proofs.ExtendedPaths
import LineShell.Proofs.PlacePaths

/-! The paths that `ls -R` prints. It makes the path of a child from the one printed for
its directory, and looks the child up by it; so a path that is printed leads down from
the operand by the names in it. Only the empty operand is not such a path. -/
namespace LineShell.PrintedPaths
open ExtendedPaths Ls PathNames PlacePaths ResolvedPaths

/-- How the directory that some names below `dir` lead to is called. -/
def pathFrom (dir : String) (names : List String) : String :=
  if names = [] then dir
  else if dir = "." then Text.join "/" names
  else String.ofList (dir.toList.rdropWhile (· = '/')) ++ "/" ++ Text.join "/" names

/-- Where what is in a directory is looked for. An empty operand stands for the session's
directory, but the paths of what is in it start at the root. -/
def under (cwd : Place) (dir : String) : Place := if dir = "" then [] else Path.resolve cwd dir

variable {cwd : Place} {name dir : String} {names : List String}

theorem childName_eq (dir name : String) : childName dir name = pathFrom dir [name] := by
  unfold childName pathFrom
  rw [if_neg (List.cons_ne_nil _ _), join_singleton]
  rfl

/-- After a name there is no slash to cut off. -/
theorem rdropWhile_name (proper : Path.isName name = true) (lead : String) :
    String.ofList ((lead ++ name).toList.rdropWhile (· = '/')) = lead ++ name := by
  obtain ⟨some, -, -, whole⟩ := isName_iff.mp proper
  obtain ⟨before, c, spelled⟩ := List.eq_nil_or_concat name.toList |>.resolve_left
    (mt String.toList_eq_nil_iff.mp some)
  have other : c ≠ '/' := by
    rintro rfl
    exact whole (by simp [spelled])
  rw [List.concat_eq_append] at spelled
  have ends : (lead ++ name).toList = lead.toList ++ before ++ [c] := by simp [spelled]
  rw [ends, List.rdropWhile_concat_neg _ _ _ (by simpa using other), ← ends, String.ofList_toList]

/-- The path of what lies below a directory starts with the path of its child. -/
theorem pathFrom_cons (proper : Path.isName name = true) (dir : String) (names : List String) :
    pathFrom dir (name :: names) = pathFrom (childName dir name) names := by
  cases names with
  | nil => exact (childName_eq dir name).symm
  | cons second rest =>
    obtain ⟨-, notHere, -, whole⟩ := isName_iff.mp proper
    unfold pathFrom
    rw [if_neg (List.cons_ne_nil _ _), if_neg (List.cons_ne_nil _ _), join_cons_cons]
    by_cases here : dir = "."
    · have child : childName dir name = name := if_pos here
      have bare := rdropWhile_name proper ""
      rw [String.empty_append] at bare
      rw [if_pos here, child, if_neg notHere, bare]
    · have child : childName dir name =
          String.ofList (dir.toList.rdropWhile (· = '/')) ++ "/" ++ name := if_neg here
      have slashed : childName dir name ≠ "." := by
        intro dot
        have inside : '/' ∈ (childName dir name).toList := by simp [child]
        rw [dot] at inside
        exact absurd inside (by decide)
      rw [if_neg here, if_neg slashed, child, rdropWhile_name proper]
      simp [String.append_assoc]

theorem childName_ne_empty (proper : Path.isName name = true) (dir : String) :
    childName dir name ≠ "" := by
  unfold childName
  split
  · exact (isName_iff.mp proper).1
  · simp [← String.toList_inj]

theorem names_slashes (path : String) (k : Nat) :
    Path.names (path ++ String.ofList (List.replicate k '/')) =
      Path.names path ++ List.replicate k "" := by
  induction k generalizing path with
  | zero => simp
  | succ k ih =>
    have first : path ++ String.ofList (List.replicate (k + 1) '/') =
        path ++ "/" ++ "" ++ String.ofList (List.replicate k '/') := by
      simp [← String.toList_inj, List.replicate_succ]
    rw [first, ih, names_append_slash, List.replicate_succ]
    have none : Path.names "" = [""] := rfl
    rw [none, List.append_assoc, List.singleton_append]

theorem foldl_enter_empty (k : Nat) (p : Place) :
    (List.replicate k "").foldl Path.enter p = p := by
  induction k with
  | zero => rfl
  | succ k ih =>
    rw [List.replicate_succ, List.foldl_cons]
    exact ih

/-- A text is what is left of it without its last slashes, and those slashes. -/
theorem exists_slashes (dir : String) :
    ∃ k, dir = String.ofList (dir.toList.rdropWhile (· = '/')) ++
      String.ofList (List.replicate k '/') := by
  have ends : dir.toList.rtakeWhile (· = '/') =
      List.replicate (dir.toList.rtakeWhile (· = '/')).length '/' :=
    List.eq_replicate_of_mem fun c member => by simpa using List.mem_rtakeWhile_imp member
  refine ⟨(dir.toList.rtakeWhile (· = '/')).length, ?_⟩
  rw [← String.toList_inj, ← ends]
  simp [List.rdropWhile_append_rtakeWhile]

/-- A name after a slash is entered from where the path before it leads, however many
slashes that path ends with. A path of nothing but slashes starts at the root. -/
theorem resolve_slash_name (whole : '/' ∉ name.toList) (some : dir ≠ "") (cwd : Place) :
    Path.resolve cwd (String.ofList (dir.toList.rdropWhile (· = '/')) ++ "/" ++ name) =
      Path.enter (Path.resolve cwd dir) name := by
  obtain ⟨k, spelled⟩ := exists_slashes dir
  generalize dir.toList.rdropWhile (· = '/') = lead at spelled ⊢
  have start : Path.isRooted (String.ofList lead ++ "/" ++ name) = Path.isRooted dir := by
    cases lead with
    | cons c lead => simp [Path.isRooted, spelled]
    | nil =>
      cases k with
      | zero => exact absurd (by simpa using spelled) some
      | succ k => simp [Path.isRooted, spelled, List.replicate_succ]
  have parts : Path.names dir = Path.names (String.ofList lead) ++ List.replicate k "" := by
    rw [spelled, names_slashes]
  rw [Path.resolve, Path.resolve, start, names_append_slash, names_of_whole whole, parts,
    List.foldl_append, List.foldl_append, foldl_enter_empty, List.foldl_cons, List.foldl_nil]

/-- The path printed for a child leads to where it is looked for. -/
theorem resolve_childName (proper : Path.isName name = true) (cwd : Place) (dir : String) :
    Path.resolve cwd (childName dir name) = under cwd dir ++ [name] := by
  have single : Normal [name] := List.forall_mem_singleton.mpr proper
  have down (p : Place) : Path.enter p name = p ++ [name] := by
    exact @foldl_enter p [name] single
  obtain ⟨-, -, -, whole⟩ := isName_iff.mp proper
  by_cases here : dir = "."
  · have child : childName dir name = name := if_pos here
    have stays : Path.resolve cwd "." = cwd := by
      simp [Path.resolve, Path.isRooted, names_of_whole, Path.enter]
    have leads := @resolve_join_normal cwd [name] single
    rw [join_singleton] at leads
    rw [child, leads, under, here, if_neg (by decide), stays]
  have child : childName dir name =
      String.ofList (dir.toList.rdropWhile (· = '/')) ++ "/" ++ name := if_neg here
  by_cases empty : dir = ""
  · subst empty
    exact resolve_text single cwd
  · rw [child, resolve_slash_name whole empty, down, under, if_neg empty]

theorem under_eq (some : dir ≠ "") (cwd : Place) : under cwd dir = Path.resolve cwd dir :=
  if_neg some

/-- The path printed for a directory leads to it. -/
theorem resolve_pathFrom (normal : Normal names) (some : dir ≠ "") (cwd : Place) :
    Path.resolve cwd (pathFrom dir names) = Path.resolve cwd dir ++ names := by
  induction names generalizing dir with
  | nil => simp [pathFrom]
  | cons name names ih =>
    obtain ⟨proper, others⟩ := List.forall_mem_cons.mp normal
    rw [pathFrom_cons proper, ih others (childName_ne_empty proper dir),
      resolve_childName proper, under_eq some, List.append_assoc, List.singleton_append]

theorem resolve_pathFrom_cons (normal : Normal (name :: names)) (cwd : Place) (dir : String) :
    Path.resolve cwd (pathFrom dir (name :: names)) = under cwd dir ++ name :: names := by
  obtain ⟨proper, others⟩ := List.forall_mem_cons.mp normal
  rw [pathFrom_cons proper, resolve_pathFrom others (childName_ne_empty proper dir),
    resolve_childName proper, List.append_assoc, List.singleton_append]

end LineShell.PrintedPaths
