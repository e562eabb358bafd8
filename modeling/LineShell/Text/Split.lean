/-!
Cutting a list at separators. A list with `n` separators has `n + 1` segments, so the
empty list has one empty segment, and a separator at either end makes an empty segment there.
-/
namespace LineShell.Text

/-- The segments of `xs` between the members that satisfy `sep`, which are dropped. -/
def splitWhere {α : Type} (sep : α → Bool) (xs : List α) : List (List α) :=
  let cut := xs.foldr
    (fun x (segment, later) => if sep x then ([], segment :: later) else (x :: segment, later))
    ([], [])
  cut.1 :: cut.2

/-- Joins segments with one separator between neighbours. -/
def joinWith {α : Type} (sep : List α) (segments : List (List α)) : List α :=
  (segments.intersperse sep).flatten

/-- Joins texts with `sep` between neighbours. -/
def join (sep : String) (texts : List String) : String :=
  String.join (texts.intersperse sep)

theorem splitWhere_nil {α : Type} (sep : α → Bool) : splitWhere sep [] = [[]] := rfl

theorem splitWhere_cons_sep {α : Type} {sep : α → Bool} {x : α} (xs : List α) (h : sep x = true) :
    splitWhere sep (x :: xs) = [] :: splitWhere sep xs := by
  simp [splitWhere, h]

theorem splitWhere_cons_other {α : Type} {sep : α → Bool} {x : α} (xs : List α)
    (h : sep x = false) :
    splitWhere sep (x :: xs) = (splitWhere sep xs).modifyHead (x :: ·) := by
  simp [splitWhere, h]

theorem splitWhere_ne_nil {α : Type} (sep : α → Bool) (xs : List α) : splitWhere sep xs ≠ [] := by
  simp [splitWhere]

theorem splitWhere_clean {α : Type} {sep : α → Bool} {xs : List α}
    (clean : ∀ x ∈ xs, sep x = false) : splitWhere sep xs = [xs] := by
  induction xs with
  | nil => rfl
  | cons x xs ih =>
    rw [splitWhere_cons_other xs (clean x (by simp)), ih fun y member => clean y (by simp [member])]
    rfl

/-- A list without the separator is one segment. -/
theorem splitWhere_of_not_mem {α : Type} [BEq α] [LawfulBEq α] {x : α} {xs : List α}
    (clean : x ∉ xs) : splitWhere (· == x) xs = [xs] := by
  refine splitWhere_clean fun y member => beq_false_of_ne ?_
  rintro rfl
  exact clean member

theorem splitWhere_congr {α : Type} {sep sep' : α → Bool} {xs : List α}
    (same : ∀ x ∈ xs, sep x = sep' x) : splitWhere sep xs = splitWhere sep' xs := by
  induction xs with
  | nil => rfl
  | cons x xs ih =>
    have tail := ih fun y member => same y (by simp [member])
    have head := same x (by simp)
    cases known : sep' x with
    | true => rw [splitWhere_cons_sep xs (head.trans known), splitWhere_cons_sep xs known, tail]
    | false =>
      rw [splitWhere_cons_other xs (head.trans known), splitWhere_cons_other xs known, tail]

/-- A separator cuts a list into two that are split apart from each other. -/
theorem splitWhere_append_sep {α : Type} {sep : α → Bool} {x : α} (xs ys : List α)
    (h : sep x = true) :
    splitWhere sep (xs ++ x :: ys) = splitWhere sep xs ++ splitWhere sep ys := by
  induction xs with
  | nil => rw [List.nil_append, splitWhere_cons_sep ys h]; rfl
  | cons y xs ih =>
    cases known : sep y with
    | true => simp [splitWhere_cons_sep _ known, ih]
    | false =>
      obtain ⟨first, later, cut⟩ := List.exists_cons_of_ne_nil (splitWhere_ne_nil sep xs)
      simp [splitWhere_cons_other _ known, ih, cut]

theorem toList_join (sep : String) (texts : List String) :
    (join sep texts).toList = joinWith sep.toList (texts.map String.toList) := by
  simp only [join, String.toList_join, joinWith, List.flatten_eq_flatMap]
  induction texts with
  | nil => rfl
  | cons first texts ih =>
    cases texts with
    | nil => rfl
    | cons second texts => simpa using ih

theorem joinWith_cons_cons {α : Type} (sep first second : List α) (rest : List (List α)) :
    joinWith sep (first :: second :: rest) = first ++ (sep ++ joinWith sep (second :: rest)) := by
  simp [joinWith]

/-- The segments with their separators in between are the list again. -/
theorem joinWith_splitWhere {α : Type} {sep : α → Bool} {x : α} (only : ∀ y, sep y = true → y = x)
    (xs : List α) : joinWith [x] (splitWhere sep xs) = xs := by
  induction xs with
  | nil => rfl
  | cons y ys ih =>
    obtain ⟨segment, later, cut⟩ := List.exists_cons_of_ne_nil (splitWhere_ne_nil sep ys)
    rw [cut] at ih
    cases known : sep y with
    | true =>
      rw [splitWhere_cons_sep ys known, cut, joinWith_cons_cons, ih, only y known]
      rfl
    | false =>
      rw [splitWhere_cons_other ys known, cut, List.modifyHead_cons]
      cases later with
      | nil => simpa [joinWith] using ih
      | cons second later =>
        rw [joinWith_cons_cons] at ih ⊢
        rw [List.cons_append, ih]

end LineShell.Text
