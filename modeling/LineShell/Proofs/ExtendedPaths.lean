import Mathlib.Data.List.DropRight
import Mathlib.Data.List.Nodup
import LineShell.Proofs.ResolvedPaths
import LineShell.Proofs.WalkedPaths
import LineShell.Word.Wildcard

/-! Paths made by adding one name after the other to the path of a directory. Written
from that directory such a path is the names that were added, but for empty ones and
for every `.` at either end; and where the path names an entry, these names do. -/
namespace LineShell.ExtendedPaths
open PathNames ResolvedPaths WalkedPaths Wildcard

/-- Entries have names that a directory can hold, and each place has one entry. -/
structure Orderly (d : Disk) : Prop where
  named : ∀ q e, (q, e) ∈ d.entries → Normal q ∧ ∀ name ∈ q, name.utf8ByteSize ≤ Disk.nameLimit
  once : (d.entries.map Prod.fst).Nodup

/-- Whether a name says to stay in the directory. -/
def idle (name : String) : Bool := name = "" || name = "."

/-- The names from the first to the last that goes somewhere. -/
def trimmed (names : List String) : List String := (names.dropWhile idle).rdropWhile idle

/-- The names that are not empty. -/
def spelled (names : List String) : List String := names.filter (· ≠ "")

/-- A path with several names added to it. -/
def extendAll (path : String) (names : List String) : String := names.foldl extend path

/-- What is added to a path for several names; no slash is added after one. -/
def tail (slash : Bool) : List String → List Char
  | [] => []
  | name :: names => (if slash then [] else ['/']) ++ (name.toList ++ tail (name = "") names)

variable {d : Disk} {cwd p q : Place} {path name : String} {names before pre post : List String}
  {e : Entry} {slash : Bool}

instance : Decidable (Orderly d) :=
  decidable_of_iff ((∀ entry ∈ d.entries, (∀ name ∈ entry.1, Path.isName name = true) ∧
      ∀ name ∈ entry.1, name.utf8ByteSize ≤ Disk.nameLimit) ∧ (d.entries.map Prod.fst).Nodup)
    ⟨fun ⟨named, once⟩ => ⟨fun q e member => named (q, e) member, once⟩,
      fun ⟨named, once⟩ => ⟨fun (q, e) member => named q e member, once⟩⟩

/-! What a directory holds. -/

theorem last_below_iff :
    (if q ≠ [] && q.dropLast = p then q.getLast? else none) = some name ↔ q = p ++ [name] := by
  constructor
  · intro held
    split at held
    · rename_i below
      simp only [Bool.and_eq_true, decide_eq_true_eq] at below
      obtain ⟨before, rfl⟩ := List.getLast?_eq_some_iff.mp held
      rw [← below.2, List.dropLast_concat]
    · cases held
  · rintro rfl
    simp

theorem mem_children : name ∈ d.children p ↔ (d.entry? (p ++ [name])).isSome = true := by
  have looked : d.entry? (p ++ [name]) = d.entries.lookup (p ++ [name]) := by simp [Disk.entry?]
  rw [Disk.children, List.mem_filterMap, looked, List.lookup_isSome_iff]
  constructor
  · rintro ⟨⟨q, e⟩, member, held⟩
    exact ⟨(q, e), member, beq_iff_eq.mpr (last_below_iff.mp held).symm⟩
  · rintro ⟨⟨q, e⟩, member, same⟩
    exact ⟨(q, e), member, last_below_iff.mpr (beq_iff_eq.mp same).symm⟩

theorem children_nodup (once : (d.entries.map Prod.fst).Nodup) : (d.children p).Nodup := by
  have byPlace : d.children p = (d.entries.map Prod.fst).filterMap fun q =>
      if q ≠ [] && q.dropLast = p then q.getLast? else none := by
    rw [List.filterMap_map]
    rfl
  rw [byPlace]
  refine once.filterMap fun q q' name held held' => ?_
  exact (last_below_iff.mp held).trans (last_below_iff.mp held').symm

theorem child_sought (orderly : Orderly d) (child : name ∈ d.children p) :
    Path.isName name = true ∧ Sought name := by
  obtain ⟨⟨q, e⟩, member, held⟩ := List.mem_filterMap.mp child
  obtain ⟨normal, short⟩ := orderly.named q e member
  have last : name ∈ q := by
    rw [last_below_iff.mp held]
    simp
  obtain ⟨-, notHere, notUp, -⟩ := isName_iff.mp (normal name last)
  exact ⟨normal name last, notHere, notUp, short name last⟩

/-! Walks of paths as written. -/

theorem walk_of_locateText {follow : Bool} {spot : Spot}
    (ran : d.locateText follow [] path = .ok spot) :
    d.walk follow Disk.linkLimit [] (Disk.steps path) = .ok spot := by
  unfold Disk.locateText at ran
  split at ran
  · cases ran
  · split at ran
    · cases ran
    · split at ran
      · cases ran
      · simpa using ran

/-- The steps of a path are its names, with a `.` more where it ends with a slash. -/
theorem undotted_steps (path : String) :
    Undotted (Disk.steps path) (spelled (Path.names path)) := by
  have ending : Undotted (if path.toList.getLast? = some '/' then ["."] else []) [] := by
    split
    · exact .drop .nil
    · exact .nil
  have whole := (Undotted.refl (spelled (Path.names path))).append ending
  rwa [List.append_nil] at whole

/-! One name more. -/

theorem names_of_whole (whole : '/' ∉ name.toList) : Path.names name = [name] := by
  have clean : ∀ c ∈ name.toList, decide (c = '/') = false := fun c member =>
    decide_eq_false (by rintro rfl; exact whole member)
  rw [Path.names, Text.splitWhere_clean clean]
  simp

theorem ends_extend (whole : '/' ∉ name.toList) :
    (extend path name).toList.getLast? = some '/' ↔ name = "" := by
  by_cases empty : name = ""
  · subst empty
    by_cases ends : path.toList.getLast? = some '/' <;> simp [extend, ends]
  · obtain ⟨c, last⟩ := List.getLast?_isSome.mpr (mt String.toList_eq_nil_iff.mp empty) |>
      Option.isSome_iff_exists.mp
    have other : c ≠ '/' := by
      rintro rfl
      exact whole (List.mem_of_getLast? last)
    obtain ⟨lead, text⟩ : ∃ lead, (extend path name).toList = lead ++ name.toList := by
      by_cases ends : path.toList.getLast? = some '/'
      · exact ⟨path.toList, by simp [extend, ends]⟩
      · exact ⟨path.toList ++ ['/'], by simp [extend, ends]⟩
    simp [text, List.getLast?_append, last, other, empty]

theorem spelled_names_extend (whole : '/' ∉ name.toList) :
    spelled (Path.names (extend path name)) = spelled (Path.names path) ++ spelled [name] := by
  by_cases ends : path.toList.getLast? = some '/'
  · obtain ⟨start, cut⟩ := List.getLast?_eq_some_iff.mp ends
    have again : path = String.ofList start ++ "/" ++ "" := by
      simp [← String.toList_inj, cut]
    have longer : path ++ name = String.ofList start ++ "/" ++ name := by
      rw [again, String.append_empty]
    rw [extend, if_pos ends, longer, again, names_append_slash, names_append_slash,
      names_of_whole whole, @names_of_whole "" (by simp)]
    simp [spelled]
  · rw [extend, if_neg ends, names_append_slash, names_of_whole whole]
    simp [spelled]

theorem spelled_append (names more : List String) :
    spelled (names ++ more) = spelled names ++ spelled more := by
  simp [spelled]

theorem spelled_names_text (normal : Normal cwd) : spelled (Path.names cwd.text) = cwd := by
  by_cases root : cwd = []
  · subst root
    decide
  · rw [names_text normal root]
    have named : ∀ name ∈ cwd, name ≠ "" := fun name member =>
      (isName_iff.mp (normal name member)).1
    simpa [spelled] using named

/-! The text of what was added. -/

theorem toList_extendAll (whole : ∀ name ∈ names, '/' ∉ name.toList) :
    (extendAll path names).toList =
      path.toList ++ tail (path.toList.getLast? = some '/') names := by
  induction names generalizing path with
  | nil => simp [extendAll, tail]
  | cons name names ih =>
    obtain ⟨first, others⟩ := List.forall_mem_cons.mp whole
    have next : extendAll path (name :: names) = extendAll (extend path name) names := rfl
    rw [next, ih others, tail]
    have ends : decide ((extend path name).toList.getLast? = some '/') = decide (name = "") := by
      simp [ends_extend first]
    rw [ends]
    by_cases slash : path.toList.getLast? = some '/' <;> simp [extend, slash]

theorem tail_false (some : names ≠ []) : tail false names = '/' :: tail true names := by
  cases names with
  | nil => exact absurd rfl some
  | cons name names => simp [tail]

/-- Between the slashes of what was added stand the names that are not empty, and
perhaps nothing at the end. -/
theorem names_tail (whole : ∀ name ∈ names, '/' ∉ name.toList) :
    ∃ post, (post = [] ∨ post = [""]) ∧
      Path.names (String.ofList (tail true names)) = spelled names ++ post := by
  induction names with
  | nil => exact ⟨[""], .inr rfl, by decide⟩
  | cons name names ih =>
    obtain ⟨first, others⟩ := List.forall_mem_cons.mp whole
    obtain ⟨post, either, cut⟩ := ih others
    by_cases empty : name = ""
    · subst empty
      refine ⟨post, either, ?_⟩
      simpa [tail, spelled] using cut
    · by_cases last : names = []
      · subst last
        refine ⟨[], .inl rfl, ?_⟩
        simp [tail, spelled, empty, names_of_whole first]
      · refine ⟨post, either, ?_⟩
        have text : String.ofList (tail true (name :: names)) =
            name ++ "/" ++ String.ofList (tail true names) := by
          simp [← String.toList_inj, tail, empty, tail_false last]
        rw [text, names_append_slash, names_of_whole first, cut]
        simp [spelled, empty]

theorem trimmed_surround (before : ∀ name ∈ pre, idle name = true)
    (after : ∀ name ∈ post, idle name = true) : trimmed (pre ++ names ++ post) = trimmed names := by
  rw [trimmed, List.append_assoc, List.dropWhile_append_of_pos before, List.dropWhile_append]
  split
  · rename_i none
    rw [trimmed, List.isEmpty_iff.mp none]
    have all : post.dropWhile idle = [] := List.dropWhile_eq_nil_iff.mpr after
    rw [all]
  · rw [trimmed, List.rdropWhile, List.reverse_append,
      List.dropWhile_append_of_pos (by simpa using after)]
    rfl

/-- An extended path, written from where it starts. -/
theorem relative_extendAll (whole : ∀ name ∈ names, '/' ∉ name.toList) :
    relative path (extendAll path names) = Text.join "/" (trimmed (spelled names)) := by
  have rest : (extendAll path names).toList.drop path.length =
      tail (path.toList.getLast? = some '/') names := by
    rw [toList_extendAll whole, ← String.length_toList, List.drop_left]
  obtain ⟨post, either, cut⟩ := names_tail whole
  -- All else between the slashes is empty and stands at the ends, where it is cut off.
  have after : ∀ name ∈ post, idle name = true := by
    rcases either with rfl | rfl <;> simp [idle]
  have same : ∃ pre, (∀ name ∈ pre, idle name = true) ∧
      Path.names (String.ofList (tail (path.toList.getLast? = some '/') names)) =
        pre ++ spelled names ++ post := by
    cases slash : decide (path.toList.getLast? = some '/') with
    | true => exact ⟨[], by simp, by simpa using cut⟩
    | false =>
      by_cases none : names = []
      · subst none
        exact ⟨[], by simp, cut⟩
      · refine ⟨[""], by simp [idle], ?_⟩
        have text : String.ofList (tail false names) =
            "" ++ "/" ++ String.ofList (tail true names) := by
          simp [tail_false none]
        rw [text, names_append_slash, cut]
        rfl
  obtain ⟨pre, before, surrounded⟩ := same
  have text : relative path (extendAll path names) =
      Text.join "/" (trimmed (Path.names (String.ofList
        ((extendAll path names).toList.drop path.length)))) := rfl
  rw [text, rest, surrounded, trimmed_surround before after]

end LineShell.ExtendedPaths
