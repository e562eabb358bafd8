import Mathlib.Data.List.Nodup
import Mathlib.Data.String.Basic
import LineShell.Text.Order

/-! The order of texts is the one of their characters, first difference first. So
sorted texts without repetitions are one list, whatever the order they came in. -/
namespace LineShell.TextOrder

variable {a b : String} {texts others : List String}

theorem compareLex_eq_lt {xs ys : List Char} :
    List.compareLex (compareOn Char.toNat) xs ys = .lt ↔ xs < ys := by
  induction xs generalizing ys with
  | nil => cases ys <;> simp [List.compareLex]
  | cons x xs ih =>
    cases ys with
    | nil => simp [List.compareLex]
    | cons y ys =>
      have below : compareOn Char.toNat x y = .lt ↔ x < y := by
        rw [Char.lt_def, UInt32.lt_iff_toNat_lt]
        exact Nat.compare_eq_lt
      have same : compareOn Char.toNat x y = .eq ↔ x = y := by
        rw [← Char.toNat_inj]
        exact Nat.compare_eq_eq
      rw [List.compareLex_cons_cons, List.cons_lt_cons_iff, Ordering.then_eq_lt, below, same, ih]

theorem compare_eq_lt : Text.compare a b = .lt ↔ a < b := by
  rw [Text.compare, compareLex_eq_lt, String.lt_iff_toList_lt]

theorem le_iff : Text.le a b = true ↔ a ≤ b := by
  have swapped : Text.compare a b = .gt ↔ Text.compare b a = .lt := by
    unfold Text.compare
    exact Std.OrientedCmp.gt_iff_lt
  rw [Text.le, Ordering.isLE_iff_ne_gt, swapped, compare_eq_lt, not_lt]

/-! Sorting. -/

theorem mem_sort {text : String} : text ∈ Text.sort texts ↔ text ∈ texts := by
  simp [Text.sort]

theorem sort_eq_nil : Text.sort texts = [] ↔ texts = [] := by
  simp [List.eq_nil_iff_forall_not_mem, mem_sort]

/-- Sorted texts without repetitions are in strict order. -/
theorem sort_pairwise (once : texts.Nodup) : (Text.sort texts).Pairwise (· < ·) := by
  have ordered : (Text.sort texts).Pairwise (fun a b => Text.le a b = true) := by
    refine List.pairwise_mergeSort (fun a b c first second => ?_) (fun a b => ?_) texts
    · exact le_iff.mpr (le_trans (le_iff.mp first) (le_iff.mp second))
    · rw [Bool.or_eq_true, le_iff, le_iff]
      exact le_total a b
  have distinct : (Text.sort texts).Pairwise (· ≠ ·) :=
    (List.mergeSort_perm texts Text.le).nodup_iff.mpr once
  exact ordered.imp₂ (fun a b before apart => lt_of_le_of_ne (le_iff.mp before) apart) distinct

/-- A list in strict order is known from its members. -/
theorem eq_of_pairwise_lt (ordered : texts.Pairwise (· < ·)) (ordered' : others.Pairwise (· < ·))
    (same : ∀ text, text ∈ texts ↔ text ∈ others) : texts = others := by
  have perm : texts.Perm others :=
    (List.perm_ext_iff_of_nodup (ordered.imp ne_of_lt) (ordered'.imp ne_of_lt)).mpr same
  exact perm.eq_of_pairwise (fun a b _ _ first second => absurd first (lt_asymm second))
    ordered ordered'

end LineShell.TextOrder
