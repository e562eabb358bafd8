import Mathlib.Data.Prod.Lex
import LineShell.Application.Sort
import LineShell.Proofs.ListedNames

/-! The order in which lines are sorted. With numerals the chunks of two lines are
compared one by one: numerals by value, all others by character. A numeral is apart
from every other chunk in its first character, so all numerals together have one place
among the other chunks, and each chunk has a rank. So lines have a total preorder, and
those that compare equal differ in zeros before numerals only. -/
namespace LineShell.ChunkOrder
open LineShell.Sort ListedNames TextOrder

/-- A chunk without the zeros that a numeral starts with. -/
def unpadded (chunk : List Char) : List Char :=
  if chunk.all Char.isDigit then chunk.dropWhile (· = '0') else chunk

variable {a b c chunk : List Char} {order : Order}

/-! The chunks of a line. -/

/-- Characters of one kind, digits or others. -/
def Whole (chunk : List Char) : Prop :=
  chunk ≠ [] ∧ ∀ c ∈ chunk, c.isDigit = isNumber chunk

theorem chunks_cons (c : Char) (cs : List Char) :
    chunks (c :: cs) =
      match chunks cs with
      | (d :: run) :: rest =>
        if c.isDigit = d.isDigit then (c :: d :: run) :: rest else [c] :: (d :: run) :: rest
      | _ => [c] :: chunks cs := rfl

theorem whole_singleton (c : Char) : Whole [c] := by
  refine ⟨by simp, fun d member => ?_⟩
  rw [List.mem_singleton.mp member]
  rfl

theorem whole_of_mem_chunks {cs : List Char} (member : chunk ∈ chunks cs) : Whole chunk := by
  induction cs generalizing chunk with
  | nil => cases member
  | cons c cs ih =>
    rw [chunks_cons] at member
    split at member
    · rename_i d run rest cut
      rw [cut] at ih
      split at member
      · rename_i same
        rcases List.mem_cons.mp member with rfl | later
        · obtain ⟨-, kind⟩ := ih List.mem_cons_self
          refine ⟨by simp, List.forall_mem_cons.mpr ⟨rfl, fun e inside => ?_⟩⟩
          exact (kind e inside).trans same.symm
        · exact ih (List.mem_cons_of_mem _ later)
      · rcases List.mem_cons.mp member with rfl | later
        · exact whole_singleton c
        · exact ih later
    · rcases List.mem_cons.mp member with rfl | later
      · exact whole_singleton c
      · exact ih later

theorem unpadded_number (whole : Whole chunk) (number : isNumber chunk = true) :
    unpadded chunk = chunk.dropWhile (· = '0') :=
  if_pos (List.all_eq_true.mpr fun c member => (whole.2 c member).trans number)

theorem unpadded_other (whole : Whole chunk) (other : isNumber chunk = false) :
    unpadded chunk = chunk := by
  obtain ⟨first, rest, rfl⟩ := List.exists_cons_of_ne_nil whole.1
  refine if_neg fun digits => ?_
  have digit : first.isDigit = true := List.all_eq_true.mp digits first List.mem_cons_self
  exact Bool.noConfusion (digit.symm.trans other)

/-- What is left of a numeral is no other chunk. -/
theorem unpadded_apart (whole : Whole a) (whole' : Whole b) (number : isNumber a = true)
    (other : isNumber b = false) : unpadded a ≠ unpadded b := by
  rw [unpadded_number whole number, unpadded_other whole' other]
  rintro rfl
  obtain ⟨c, inside⟩ := List.exists_mem_of_ne_nil _ whole'.1
  have digit := (whole.2 c (List.dropWhile_subset _ inside)).trans number
  exact Bool.noConfusion (digit.symm.trans ((whole'.2 c inside).trans other))

theorem eq_iff_of_apart (apart : unpadded a ≠ unpadded b) : a = b ↔ unpadded a = unpadded b :=
  ⟨congrArg unpadded, fun same => absurd same apart⟩

/-! Texts and numerals. -/

instance : Std.TransCmp compareChars :=
  inferInstanceAs (Std.TransCmp (List.compareLex (compareOn Char.toNat)))

theorem compareChars_eq_lt : compareChars a b = .lt ↔ a < b := compareLex_eq_lt

theorem compareChars_eq_eq : compareChars a b = .eq ↔ a = b := by
  have texts := @compare_eq_eq (String.ofList a) (String.ofList b)
  rwa [Text.compare, String.toList_ofList, String.toList_ofList, String.ofList_inj] at texts

theorem compareDigits_swap (a b : List Char) :
    compareDigits b a = (compareDigits a b).swap := by
  unfold compareDigits
  rw [Ordering.swap_then, ← @Std.OrientedCmp.eq_swap _ compareChars, ← Nat.compare_swap,
    Ordering.swap_swap]

/-- Numerals compare equal if they are the same without the zeros that they start with. -/
theorem compareDigits_eq_eq :
    compareDigits a b = .eq ↔ a.dropWhile (· = '0') = b.dropWhile (· = '0') := by
  rw [compareDigits, Ordering.then_eq_eq, compareChars_eq_eq, Nat.compare_eq_eq]
  constructor
  · exact And.right
  · exact fun same => ⟨congrArg List.length same, same⟩

/-! One chunk. -/

/-- The place of a chunk among all chunks. Those that come before every digit have the
first one, then come the numerals, by length and then by digits without the zeros that
they start with. -/
def rank (chunk : List Char) : Nat ×ₗ Nat ×ₗ List Char :=
  if isNumber chunk then
    toLex (1, toLex ((chunk.dropWhile (· = '0')).length, chunk.dropWhile (· = '0')))
  else if chunk < ['0'] then toLex (0, toLex (0, chunk))
  else toLex (2, toLex (0, chunk))

/-- No numeral comes after the digit nine or before the digit zero. -/
theorem number_lt_other (number : isNumber a = true) (other : isNumber b = false) :
    (a < b ↔ ¬b < ['0']) ∧ (b < a ↔ b < ['0']) := by
  cases a with
  | nil => cases number
  | cons d run =>
    cases b with
    | nil => simp
    | cons e text =>
      have digit := Char.isDigit_iff_toNat.mp number
      have aside : ¬('0'.toNat ≤ e.toNat ∧ e.toNat ≤ '9'.toNat) := by
        rw [← Char.isDigit_iff_toNat]
        exact Bool.eq_false_iff.mp other
      have zero : '0'.toNat = 48 := rfl
      have apart : d ≠ e := by
        rintro rfl
        exact aside digit
      have notZero : e ≠ '0' := by
        rintro rfl
        exact aside (by decide)
      have below (x y : Char) : x < y ↔ x.toNat < y.toNat := by
        rw [Char.lt_def, UInt32.lt_iff_toNat_lt]
        rfl
      rw [List.cons_lt_cons_iff, List.cons_lt_cons_iff, List.cons_lt_cons_iff]
      simp only [apart, apart.symm, notZero, false_and, or_false, below]
      omega

theorem compareChunk_eq_lt : compareChunk a b = .lt ↔ rank a < rank b := by
  unfold compareChunk rank
  cases number : isNumber a with
  | true =>
    cases number' : isNumber b with
    | true =>
      simp only [Bool.and_self, if_true, compareDigits, Ordering.then_eq_lt, compareChars_eq_lt,
        Nat.compare_eq_lt, Nat.compare_eq_eq, Prod.Lex.toLex_lt_toLex, lt_irrefl, false_or,
        true_and]
    | false =>
      have place := (number_lt_other number number').1
      simp only [Bool.and_false, Bool.false_eq_true, if_false, if_true, compareChars_eq_lt, place]
      split <;> simp_all [Prod.Lex.toLex_lt_toLex]
  | false =>
    cases number' : isNumber b with
    | true =>
      have place := (number_lt_other number' number).2
      simp only [Bool.and_true, Bool.false_eq_true, if_false, if_true, compareChars_eq_lt, place]
      split <;> simp_all [Prod.Lex.toLex_lt_toLex]
    | false =>
      simp only [Bool.and_self, Bool.false_eq_true, if_false, compareChars_eq_lt]
      by_cases before : a < ['0']
      · by_cases before' : b < ['0']
        · simp [before, before', Prod.Lex.toLex_lt_toLex]
        · simpa [before, before', Prod.Lex.toLex_lt_toLex] using
            lt_of_lt_of_le before (not_lt.mp before')
      · by_cases before' : b < ['0']
        · simpa [before, before', Prod.Lex.toLex_lt_toLex] using
            le_trans before'.le (not_lt.mp before)
        · simp [before, before', Prod.Lex.toLex_lt_toLex]

theorem compareChunk_swap (a b : List Char) : compareChunk b a = (compareChunk a b).swap := by
  unfold compareChunk
  rw [Bool.and_comm]
  split
  · exact compareDigits_swap a b
  · exact Std.OrientedCmp.eq_swap

theorem compareChunk_isLE : (compareChunk a b).isLE = true ↔ rank a ≤ rank b := by
  rw [Ordering.isLE_iff_ne_gt, ← not_lt, ← compareChunk_eq_lt, compareChunk_swap a b]
  cases compareChunk a b <;> simp

instance : Std.TransCmp compareChunk where
  eq_swap := compareChunk_swap _ _
  isLE_trans first second :=
    compareChunk_isLE.mpr (le_trans (compareChunk_isLE.mp first) (compareChunk_isLE.mp second))

/-- Chunks of a line compare equal if they differ in the zeros before a numeral only. -/
theorem compareChunk_eq_eq (whole : Whole a) (whole' : Whole b) :
    compareChunk a b = .eq ↔ unpadded a = unpadded b := by
  unfold compareChunk
  cases number : isNumber a with
  | true =>
    cases number' : isNumber b with
    | true =>
      rw [Bool.and_self, if_pos rfl, compareDigits_eq_eq, unpadded_number whole number,
        unpadded_number whole' number']
    | false =>
      rw [Bool.and_false, if_neg Bool.false_ne_true, compareChars_eq_eq]
      exact eq_iff_of_apart (unpadded_apart whole whole' number number')
  | false =>
    cases number' : isNumber b with
    | true =>
      rw [Bool.and_true, if_neg Bool.false_ne_true, compareChars_eq_eq]
      exact eq_iff_of_apart (unpadded_apart whole' whole number' number).symm
    | false =>
      rw [Bool.and_self, if_neg Bool.false_ne_true, compareChars_eq_eq,
        unpadded_other whole number, unpadded_other whole' number']

/-! Lines. -/

instance : Std.TransCmp compareChunks :=
  inferInstanceAs (Std.TransCmp (List.compareLex compareChunk))

theorem compareChunks_eq_eq {xs ys : List (List Char)} (whole : ∀ chunk ∈ xs, Whole chunk)
    (whole' : ∀ chunk ∈ ys, Whole chunk) :
    compareChunks xs ys = .eq ↔ xs.map unpadded = ys.map unpadded := by
  induction xs generalizing ys with
  | nil => cases ys <;> simp [compareChunks, List.compareLex]
  | cons x xs ih =>
    cases ys with
    | nil => simp [compareChunks, List.compareLex]
    | cons y ys =>
      obtain ⟨first, rest⟩ := List.forall_mem_cons.mp whole
      obtain ⟨first', rest'⟩ := List.forall_mem_cons.mp whole'
      have later := ih rest rest'
      unfold compareChunks at later ⊢
      rw [List.compareLex_cons_cons, Ordering.then_eq_eq, compareChunk_eq_eq first first', later,
        List.map_cons, List.map_cons, List.cons.injEq]

instance (order : Order) : Std.TransCmp order.compareKeys where
  eq_swap {a b} := by
    unfold Order.compareKeys
    split
    · exact Std.OrientedCmp.eq_swap
    · exact @Std.OrientedCmp.eq_swap _ compareChars _ _ _
  isLE_trans {a b c} first second := by
    unfold Order.compareKeys at first second ⊢
    split at first
    · rename_i numeric
      rw [if_pos numeric] at second ⊢
      exact Std.TransCmp.isLE_trans first second
    · rename_i textual
      rw [if_neg textual] at second ⊢
      exact @Std.TransCmp.isLE_trans _ compareChars _ _ _ _ first second

instance (order : Order) : Std.TransCmp order.compare where
  eq_swap := @fun _ _ => @Std.OrientedCmp.eq_swap _ order.compareKeys _ _ _
  isLE_trans := @fun _ _ _ => @Std.TransCmp.isLE_trans _ order.compareKeys _ _ _ _

/-- Whatever counts when lines are compared, their order is a total preorder: a line
compares equal to itself, turning two lines round turns the result round, and results
go on from one line to the next. Chunks of two lines compare equal exactly if they are
the same, one by one, once numerals are without the zeros that they start with. -/
theorem order_is_total_preorder :
    (∀ (order : Order) (a b c : String),
      order.compare a a = .eq ∧ order.compare b a = (order.compare a b).swap ∧
      (∀ result, order.compare a b = result → order.compare b c = result →
        order.compare a c = result) ∧
      (order.compare a b ≠ .gt → order.compare b c ≠ .gt → order.compare a c ≠ .gt)) ∧
    ∀ a b : String, compareChunks (chunks a.toList) (chunks b.toList) = .eq ↔
      (chunks a.toList).map unpadded = (chunks b.toList).map unpadded := by
  constructor
  · intro order a b c
    refine ⟨Std.ReflCmp.compare_self, Std.OrientedCmp.eq_swap, ?_, ?_⟩
    · rintro (_ | _ | _) first second
      · exact Std.TransCmp.lt_trans first second
      · exact Std.TransCmp.eq_trans first second
      · exact Std.TransCmp.gt_trans first second
    · intro first second
      exact Ordering.isLE_iff_ne_gt.mp (Std.TransCmp.isLE_trans
        (Ordering.isLE_iff_ne_gt.mpr first) (Ordering.isLE_iff_ne_gt.mpr second))
  · intro a b
    exact compareChunks_eq_eq (fun _ => whole_of_mem_chunks) fun _ => whole_of_mem_chunks

/-- A numeral among chunks of other characters, with and without zeros before it. -/
theorem lines_of_mixed_chunks_in_order :
    (Order.compare ⟨true, false⟩ "!" "9" = .lt ∧ Order.compare ⟨true, false⟩ "9" "a10" = .lt ∧
      Order.compare ⟨true, false⟩ "!" "a10" = .lt) ∧
    Order.compare ⟨true, false⟩ "a009b" "a9b" = .eq := by
  have first : Order.compare ⟨true, false⟩ "!" "9" = .lt := by decide +kernel
  have second : Order.compare ⟨true, false⟩ "9" "a10" = .lt := by decide +kernel
  obtain ⟨-, -, onward, -⟩ := order_is_total_preorder.1 ⟨true, false⟩ "!" "9" "a10"
  refine ⟨⟨first, second, onward .lt first second⟩, ?_⟩
  exact (order_is_total_preorder.2 "a009b" "a9b").mpr (by decide +kernel)

end LineShell.ChunkOrder
