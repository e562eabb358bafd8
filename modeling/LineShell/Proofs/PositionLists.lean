import Mathlib.Data.List.Forall2
import Mathlib.Data.Nat.Digits.Defs
import LineShell.Application.Cut
import LineShell.Proofs.PathNames

/-! The lists of positions that `cut` accepts. A list is one or more items with commas
between them; an item is a position, or a range that is closed or open at one end; and a
position is a numeral of digits, perhaps after a plus sign, for a number from 1 on that
fits into 64 bits. The reader accepts exactly these lists and makes of each item the span
of positions that it stands for. -/
namespace LineShell.PositionLists
open LineShell.Cut PathNames Text

/-- Digits that write a number, from 1 on and below the limit. -/
structure Digits (ds : List Char) (n : Nat) : Prop where
  nonempty : ds ≠ []
  digits : ∀ c ∈ ds, c.isDigit = true
  value : n = Nat.ofDigits 10 (ds.reverse.map fun c => c.toNat - 48)
  first : 1 ≤ n
  last : n < 2 ^ 64

/-- A numeral: digits, perhaps after a plus sign. -/
inductive Numeral : List Char → Nat → Prop where
  | bare {ds : List Char} {n : Nat} (digits : Digits ds n) : Numeral ds n
  | plus {ds : List Char} {n : Nat} (digits : Digits ds n) : Numeral ('+' :: ds) n

/-- An item of a list, and the positions that it stands for. -/
inductive Item : List Char → Span → Prop where
  | single {cs : List Char} {n : Nat} (only : Numeral cs n) : Item cs ⟨n, some n⟩
  | range {cs ds : List Char} {n m : Nat} (first : Numeral cs n) (last : Numeral ds m) (le : n ≤ m) :
      Item (cs ++ '-' :: ds) ⟨n, some m⟩
  | upTo {ds : List Char} {m : Nat} (last : Numeral ds m) : Item ('-' :: ds) ⟨1, some m⟩
  | onwards {cs : List Char} {n : Nat} (first : Numeral cs n) : Item (cs ++ ['-']) ⟨n, none⟩

/-- A list with commas between its items, and the spans that these stand for. -/
def Lists (list : String) (spans : List Span) : Prop :=
  ∃ items, items ≠ [] ∧ list.toList = [','].intercalate items ∧ List.Forall₂ Item items spans

variable {ds cs item : List Char} {n : Nat} {span : Span}

/-! Numerals. -/

theorem decimal_eq (ds : List Char) :
    decimal ds = Nat.ofDigits 10 (ds.reverse.map fun c => c.toNat - 48) := by
  rw [decimal, List.foldl_eq_foldr_reverse, Nat.ofDigits_eq_foldr, List.foldr_map]
  congr 1
  funext c n
  simp only [Nat.cast_id]
  omega

theorem digits_iff :
    Digits ds n ↔ (ds.isEmpty || !ds.all Char.isDigit) = false ∧ decimal ds = n ∧ 0 < n ∧
      n < positionLimit := by
  have limit : positionLimit = 2 ^ 64 := rfl
  have shape : (ds.isEmpty || !ds.all Char.isDigit) = false ↔
      ds ≠ [] ∧ ∀ c ∈ ds, c.isDigit = true := by simp
  rw [shape, limit, decimal_eq]
  constructor
  · rintro ⟨nonempty, digits, value, first, last⟩
    exact ⟨⟨nonempty, digits⟩, value.symm, first, last⟩
  · rintro ⟨⟨nonempty, digits⟩, value, first, last⟩
    exact ⟨nonempty, digits, value.symm, first, last⟩

theorem Digits.other (digits : Digits ds n) {c : Char} (none : c.isDigit = false) : c ∉ ds := by
  intro member
  rw [digits.digits c member] at none
  cases none

/-- The digits of a numeral. -/
def bareDigits (cs : List Char) : List Char := if cs.head? = some '+' then cs.drop 1 else cs

theorem numeral_iff : Numeral cs n ↔ Digits (bareDigits cs) n := by
  constructor
  · intro numeral
    cases numeral with
    | bare digits =>
      have first : cs.head? ≠ some '+' := fun same =>
        digits.other (by decide) (List.mem_of_mem_head? same)
      rwa [bareDigits, if_neg first]
    | plus digits => rwa [bareDigits, List.head?_cons, if_pos rfl]
  · intro digits
    unfold bareDigits at digits
    split at digits
    · rename_i first
      obtain ⟨ds, rfl⟩ := List.head?_eq_some_iff.mp first
      exact .plus digits
    · exact .bare digits

theorem position?_eq_some_iff : position? cs = some n ↔ Numeral cs n := by
  rw [numeral_iff, digits_iff, position?]
  change (if (bareDigits cs).isEmpty || !(bareDigits cs).all Char.isDigit then none else
    if 0 < decimal (bareDigits cs) && decimal (bareDigits cs) < positionLimit then
      some (decimal (bareDigits cs)) else none) = some n ↔ _
  cases (bareDigits cs).isEmpty || !(bareDigits cs).all Char.isDigit with
  | true => simp
  | false =>
    simp only [Bool.false_eq_true, if_false, Option.ite_none_right_eq_some, Bool.and_eq_true,
      decide_eq_true_eq, Option.some.injEq, true_and]
    constructor
    · rintro ⟨⟨first, last⟩, rfl⟩
      exact ⟨rfl, first, last⟩
    · rintro ⟨rfl, first, last⟩
      exact ⟨⟨first, last⟩, rfl⟩

namespace Numeral

theorem nonempty (numeral : Numeral cs n) : cs ≠ [] := by
  cases numeral with
  | bare digits => exact digits.nonempty
  | plus => exact List.cons_ne_nil _ _

/-- Only digits and a plus sign are in a numeral. -/
theorem other (numeral : Numeral cs n) {c : Char} (none : c.isDigit = false) (unlike : c ≠ '+') :
    c ∉ cs := by
  cases numeral with
  | bare digits => exact digits.other none
  | plus digits =>
    rw [List.mem_cons]
    exact not_or.mpr ⟨unlike, digits.other none⟩

theorem dashless (numeral : Numeral cs n) : '-' ∉ cs := numeral.other (by decide) (by decide)

theorem commaless (numeral : Numeral cs n) : ',' ∉ cs := numeral.other (by decide) (by decide)

end Numeral

/-! Items. -/

theorem takeWhile_dashless (clean : '-' ∉ cs) (rest : List Char) :
    (cs ++ rest).takeWhile (· ≠ '-') = cs ++ rest.takeWhile (· ≠ '-') := by
  apply List.takeWhile_append_of_pos
  intro c member
  have other : c ≠ '-' := fun same => clean (same ▸ member)
  simpa using other

theorem span?_dashless (clean : '-' ∉ cs) :
    span? cs = (position? cs).map fun n => ⟨n, some n⟩ := by
  have front : cs.takeWhile (· ≠ '-') = cs := by
    simpa using takeWhile_dashless clean []
  simp only [span?, front, List.drop_length]

theorem span?_dash (clean : '-' ∉ cs) (back : List Char) :
    span? (cs ++ '-' :: back) =
      match cs.isEmpty, back.isEmpty with
      | true, true => none
      | true, false => (position? back).map fun n => ⟨1, some n⟩
      | false, true => (position? cs).map fun n => ⟨n, none⟩
      | false, false => (position? cs).bind fun first => (position? back).bind fun last =>
          if last < first then none else some ⟨first, some last⟩ := by
  have front : (cs ++ '-' :: back).takeWhile (· ≠ '-') = cs := by
    rw [takeWhile_dashless clean, List.takeWhile_cons_of_neg (by simp), List.append_nil]
  simp only [span?, front, List.drop_left]
  rfl

theorem span?_of_item (read : Item item span) : span? item = some span := by
  cases read with
  | single only =>
    rw [span?_dashless only.dashless, position?_eq_some_iff.mpr only]
    rfl
  | range first last le =>
    rw [span?_dash first.dashless, List.isEmpty_eq_false_iff.mpr first.nonempty,
      List.isEmpty_eq_false_iff.mpr last.nonempty]
    simp only [position?_eq_some_iff.mpr first, position?_eq_some_iff.mpr last]
    exact if_neg (Nat.not_lt.mpr le)
  | upTo last =>
    rw [← List.nil_append ('-' :: _), span?_dash (by simp), List.isEmpty_nil,
      List.isEmpty_eq_false_iff.mpr last.nonempty]
    simp only [position?_eq_some_iff.mpr last]
    rfl
  | onwards first =>
    rw [span?_dash first.dashless, List.isEmpty_eq_false_iff.mpr first.nonempty, List.isEmpty_nil]
    simp only [position?_eq_some_iff.mpr first]
    rfl

theorem item_of_span? (read : span? item = some span) : Item item span := by
  by_cases dash : '-' ∈ item
  · obtain ⟨front, back, rfl, clean⟩ := List.eq_append_cons_of_mem dash
    rw [span?_dash clean] at read
    split at read
    · cases read
    · rename_i noFront _
      obtain ⟨m, number, rfl⟩ := Option.map_eq_some_iff.mp read
      rw [List.isEmpty_iff.mp noFront, List.nil_append]
      exact .upTo (position?_eq_some_iff.mp number)
    · rename_i _ noBack
      obtain ⟨n, number, rfl⟩ := Option.map_eq_some_iff.mp read
      rw [List.isEmpty_iff.mp noBack]
      exact .onwards (position?_eq_some_iff.mp number)
    · obtain ⟨n, first, read⟩ := Option.bind_eq_some_iff.mp read
      obtain ⟨m, last, read⟩ := Option.bind_eq_some_iff.mp read
      split at read
      · cases read
      · rename_i order
        cases read
        exact .range (position?_eq_some_iff.mp first) (position?_eq_some_iff.mp last)
          (Nat.not_lt.mp order)
  · rw [span?_dashless dash] at read
    obtain ⟨n, number, rfl⟩ := Option.map_eq_some_iff.mp read
    exact .single (position?_eq_some_iff.mp number)

theorem span?_eq_some_iff : span? item = some span ↔ Item item span :=
  ⟨item_of_span?, span?_of_item⟩

theorem Item.commaless (read : Item item span) : ',' ∉ item := by
  cases read with
  | single only => exact only.commaless
  | range first last =>
    simp [first.commaless, last.commaless]
  | upTo last => simp [last.commaless]
  | onwards first => simp [first.commaless]

theorem commaless_of_items {items : List (List Char)} {spans : List Span}
    (read : List.Forall₂ Item items spans) : ∀ item ∈ items, ',' ∉ item := by
  induction read with
  | nil => exact nofun
  | cons first _ ih => exact List.forall_mem_cons.mpr ⟨first.commaless, ih⟩

/-! Lists. -/

theorem mapM_span?_eq_some_iff {items : List (List Char)} {spans : List Span} :
    items.mapM span? = some spans ↔ List.Forall₂ Item items spans := by
  induction items generalizing spans with
  | nil =>
    rw [List.mapM_nil, List.forall₂_nil_left_iff]
    exact ⟨fun same => (Option.some.inj same).symm, fun same => congrArg some same.symm⟩
  | cons item items ih =>
    rw [List.mapM_cons, List.forall₂_cons_left_iff]
    constructor
    · intro read
      obtain ⟨span, here, read⟩ := Option.bind_eq_some_iff.mp read
      obtain ⟨later, rest, read⟩ := Option.bind_eq_some_iff.mp read
      cases read
      exact ⟨span, later, span?_eq_some_iff.mp here, ih.mp rest, rfl⟩
    · rintro ⟨span, later, here, rest, rfl⟩
      rw [span?_eq_some_iff.mpr here, ih.mpr rest]
      rfl

/-- The reader accepts exactly the lists. -/
theorem list?_eq_some_iff {list : String} {spans : List Span} :
    list? list = some spans ↔ Lists list spans := by
  rw [list?, mapM_span?_eq_some_iff]
  constructor
  · intro items
    refine ⟨_, splitWhere_ne_nil _ _, ?_, items⟩
    exact (joinWith_splitWhere (by simp) list.toList).symm
  · rintro ⟨items, nonempty, text, read⟩
    have clean : ∀ item ∈ items, ∀ c ∈ item, decide (c = ',') = false := by
      intro item member c held
      have other : c ≠ ',' := fun same => commaless_of_items read item member (same ▸ held)
      simpa using other
    rw [text]
    have cut := splitWhere_joinWith (x := ',') (by simp) nonempty clean
    change List.Forall₂ Item (splitWhere _ (joinWith [','] items)) spans
    rwa [cut]

end LineShell.PositionLists
