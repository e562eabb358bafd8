import Mathlib.Data.List.DropRight
import Mathlib.Data.Prod.Lex
import Mathlib.Data.String.Basic
import Mathlib.Order.WithBot
import LineShell.Application.Ls
import LineShell.Proofs.ExtendedPaths
import LineShell.Proofs.TextOrder

/-! The order in which `ls` lists names. It compares them by extension and then by
character, which for the names that a directory can hold is a linear order. So one list
is left of the names of a directory once they are sorted. Directories are ordered by the
names that lead to them, each before those below it. -/
namespace LineShell.ListedNames
open ExtendedPaths Ls PathNames TextOrder

/-- The name does not start with a dot. -/
def Shown (name : String) : Prop := name.toList.head? ≠ some '.'

instance (name : String) : Decidable (Shown name) :=
  inferInstanceAs (Decidable (name.toList.head? ≠ some '.'))

/-- The text after the last dot of a name. A name without a dot has none, which comes
before all others. -/
def ending (name : String) : WithBot String :=
  if '.' ∈ name.toList then ↑(String.ofList (name.toList.rtakeWhile (· ≠ '.'))) else ⊥

/-- What a name is ordered by: the text after its last dot if asked for, then itself. -/
def key (style : Style) (name : String) : WithBot String ×ₗ String :=
  toLex (if style.byExtension then ending name else ⊥, name)

/-- One name is listed before another. -/
def Before (style : Style) (a b : String) : Prop := key style a < key style b

instance (style : Style) : DecidableRel (Before style) := fun a b =>
  inferInstanceAs (Decidable (key style a < key style b))

/-- One directory is listed before another, each by the names that lead there: it is above
it, or where they part its name is listed first. -/
def Precedes (style : Style) (xs ys : List String) : Prop := List.Lex (Before style) xs ys

instance (style : Style) : DecidableRel (Precedes style) := fun xs ys =>
  inferInstanceAs (Decidable (List.Lex (Before style) xs ys))

variable {style : Style} {a b name : String} {names : List String}

theorem Shown.sought (shown : Shown name) : name ≠ "." ∧ name ≠ ".." := by
  constructor
  · rintro rfl
    exact shown rfl
  · rintro rfl
    exact shown rfl

/-- What a name is compared by. -/
def rank (style : Style) (name : String) : WithBot String ×ₗ String :=
  toLex (if style.byExtension then (extension? name).elim ⊥ (↑) else ⊥, name)

theorem compareExtensions_eq_lt {x y : Option String} :
    compareExtensions x y = .lt ↔ (x.elim ⊥ (↑) : WithBot String) < y.elim ⊥ (↑) := by
  cases x with
  | none => cases y <;> simp [compareExtensions]
  | some x =>
    cases y with
    | none => simp [compareExtensions]
    | some y => simp [compareExtensions, compare_eq_lt]

theorem compare_eq_eq : Text.compare a b = .eq ↔ a = b := by
  have between : a = b ↔ a ≤ b ∧ ¬a < b := eq_iff_le_not_lt
  rw [between, ← compare_eq_lt, ← le_iff, Text.le]
  cases Text.compare a b <;> simp

theorem compareExtensions_eq_eq {x y : Option String} :
    compareExtensions x y = .eq ↔ (x.elim ⊥ (↑) : WithBot String) = y.elim ⊥ (↑) := by
  cases x with
  | none => cases y <;> simp [compareExtensions]
  | some x =>
    cases y with
    | none => simp [compareExtensions]
    | some y => simp [compareExtensions, compare_eq_eq]

theorem le_iff_rank : style.le a b = true ↔ rank style a ≤ rank style b := by
  have plain : (Text.compare a b).isLE = true ↔ a ≤ b := le_iff
  unfold Style.le rank
  rw [Prod.Lex.toLex_le_toLex]
  cases style.byExtension with
  | false => simpa using le_iff
  | true =>
    simp only [if_true, Ordering.isLE_then_iff_or, compareExtensions_eq_lt, compareExtensions_eq_eq,
      plain]

theorem extension?_eq (proper : Path.isName name = true) :
    ((extension? name).elim ⊥ (↑) : WithBot String) = ending name := by
  obtain ⟨some, notHere, notUp, whole⟩ := isName_iff.mp proper
  have last : ((Path.names name).filter fun name => name ≠ "" && name ≠ ".").getLast? = .some name := by
    simp [names_of_whole whole, some, notHere]
  unfold extension? ending
  rw [last]
  dsimp only
  rw [if_neg notUp]
  by_cases dotted : '.' ∈ name.toList
  · have shorter : (name.toList.reverse.takeWhile (· ≠ '.')).length ≠ name.length := by
      intro all
      rw [← String.length_toList, ← @List.length_reverse _ name.toList] at all
      have same := (List.takeWhile_prefix _).eq_of_length all
      have clean := List.takeWhile_eq_self_iff.mp same '.' (by simpa using dotted)
      simp at clean
    rw [if_neg shorter, if_pos dotted]
    rfl
  · have all : name.toList.reverse.takeWhile (· ≠ '.') = name.toList.reverse := by
      rw [List.takeWhile_eq_self_iff]
      intro c member
      have other : c ≠ '.' := by
        rintro rfl
        exact dotted (by simpa using member)
      simpa using other
    have long : name.toList.reverse.length = name.length := by
      rw [List.length_reverse, String.length_toList]
    rw [all, if_pos long, if_neg dotted]
    rfl

theorem rank_eq (proper : Path.isName name = true) : rank style name = key style name := by
  rw [rank, key, extension?_eq proper]

theorem key_injective (style : Style) : Function.Injective (key style) := by
  intro a b same
  exact (Prod.mk.inj (toLex_inj.mp same)).2

theorem mem_sort : name ∈ style.sort names ↔ name ∈ names := by
  simp [Style.sort]

/-- Sorted names of one directory are in strict order. -/
theorem sort_pairwise (proper : ∀ name ∈ names, Path.isName name = true) (once : names.Nodup) :
    (style.sort names).Pairwise (Before style) := by
  have ordered : (style.sort names).Pairwise fun a b => style.le a b = true := by
    apply List.pairwise_mergeSort
    · intro a b c first second
      exact le_iff_rank.mpr (le_trans (le_iff_rank.mp first) (le_iff_rank.mp second))
    · intro a b
      rw [Bool.or_eq_true, le_iff_rank, le_iff_rank]
      exact le_total _ _
  have distinct : (style.sort names).Pairwise (· ≠ ·) :=
    (List.mergeSort_perm names style.le).nodup_iff.mpr once
  refine List.Pairwise.imp_of_mem ?_ (ordered.and distinct)
  intro a b first second related
  obtain ⟨before, apart⟩ := related
  rw [le_iff_rank, rank_eq (proper a (mem_sort.mp first)),
    rank_eq (proper b (mem_sort.mp second))] at before
  exact lt_of_le_of_ne before fun same => apart (key_injective style same)

/-- A list in strict order is known from its members. -/
theorem eq_of_pairwise {α : Type} {R : α → α → Prop} (asymm : ∀ x y, R x y → ¬R y x) {xs ys : List α}
    (ordered : xs.Pairwise R) (ordered' : ys.Pairwise R) (same : ∀ x, x ∈ xs ↔ x ∈ ys) :
    xs = ys := by
  have apart {x y : α} (before : R x y) : x ≠ y := by
    rintro rfl
    exact asymm x x before before
  have perm : xs.Perm ys :=
    (List.perm_ext_iff_of_nodup (ordered.imp apart) (ordered'.imp apart)).mpr same
  exact perm.eq_of_pairwise (fun x y _ _ first second => absurd second (asymm x y first))
    ordered ordered'

theorem before_asymm (style : Style) (a b : String) (first : Before style a b) :
    ¬Before style b a :=
  lt_asymm first

theorem precedes_asymm (style : Style) (xs ys : List String) (first : Precedes style xs ys) :
    ¬Precedes style ys xs :=
  List.lex_asymm (fun {a b} => before_asymm style a b) first

end LineShell.ListedNames
