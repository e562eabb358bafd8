import Mathlib.Algebra.Ring.Nat
import LineShell.Proofs.PathNames
import LineShell.Text.Lines

/-! Characters of lines that are read. A line holds no line feed, and no carriage return
unless the bytes do. Reading makes up no such character: one that is a single byte comes
from that byte, because the bytes of every other form stand for a greater value. -/
namespace LineShell.ReadLines
open PathNames Text

variable {c : Char} {b : UInt8} {bs : Bytes} {line : String} {p : Pending} {r : Reading}

/-! Characters of one byte. -/

/-- Whatever bytes follow, the character begun is not one of a single byte. -/
structure Large (p : Pending) : Prop where
  low : 128 ≤ p.low.toNat
  value : 128 ≤ (p.bits * 64 + (p.low.toNat - 128)) * 64 ^ (p.owed - 1)

/-- A byte between characters is one, or none, or begins a character of several bytes. -/
theorem lead_cases (b : UInt8) : lead b = .whole (Char.ofNat b.toNat) ∨ lead b = .stray ∨
    ∃ p, lead b = .begins p ∧ Large p := by
  fun_cases lead b with
  | case1 => exact .inl rfl
  | case2 => exact .inr (.inl rfl)
  | case10 => exact .inr (.inl rfl)
  | _ =>
    refine .inr (.inr ⟨_, rfl, ?_⟩)
    -- What the first byte stands for is large enough, or the least second byte is.
    constructor
    all_goals
      simp only [UInt8.reduceToNat, beq_iff_eq] at *
      omega

/-- A number that is not that of a character stands for the first one. -/
theorem eq_of_ofNat {n : Nat} (some : 0 < (Char.ofNat n).toNat) : (Char.ofNat n).toNat = n := by
  by_cases valid : n.isValidChar
  · have same : Char.ofNat n = Char.ofNatAux n valid := dif_pos valid
    rw [same]
    rfl
  · have none : Char.ofNat n = '\x00' := dif_neg valid
    rw [none] at some
    exact absurd some (Nat.lt_irrefl 0)

theorem toNat_replacement : replacement.toNat = 0xFFFD := rfl

section Ascii
variable (some : 0 < c.toNat) (ascii : c.toNat < 128)
include some ascii

/-- Between characters a byte gives at most the character that it is. -/
theorem mem_start {done : List Char} (member : c ∈ (Reading.start done b).done) :
    c ∈ done ∨ b.toNat = c.toNat := by
  rcases lead_cases b with whole | stray | ⟨p, begins, -⟩
  · simp only [Reading.start, whole, List.mem_cons] at member
    rcases member with rfl | before
    · exact .inr (eq_of_ofNat some).symm
    · exact .inl before
  · simp only [Reading.start, stray, List.mem_cons] at member
    rcases member with rfl | before
    · rw [toNat_replacement] at ascii
      omega
    · exact .inl before
  · simp only [Reading.start, begins] at member
    exact .inl member

theorem mem_feed (large : ∀ p ∈ r.pending, Large p) (member : c ∈ (r.feed b).done) :
    c ∈ r.done ∨ b.toNat = c.toNat := by
  unfold Reading.feed at member
  split at member
  · exact mem_start some ascii member
  · rename_i p begun
    split at member
    · rename_i inside
      split at member
      · rename_i last
        dsimp only at member
        rw [List.mem_cons] at member
        rcases member with same | before
        · -- The last byte of a character of several bytes.
          obtain ⟨low, value⟩ := large p begun
          rw [same] at some ascii
          rw [eq_of_ofNat some] at ascii
          simp only [Bool.and_eq_true, decide_eq_true_eq, UInt8.le_iff_toNat_le] at inside
          rw [beq_iff_eq.mp last, Nat.sub_self, Nat.pow_zero, Nat.mul_one] at value
          omega
        · exact .inl before
      · exact .inl member
    · rcases mem_start some ascii member with before | same
      · rcases List.mem_cons.mp before with rfl | before
        · rw [toNat_replacement] at ascii
          omega
        · exact .inl before
      · exact .inr same

end Ascii

theorem start_large {done : List Char} : ∀ p ∈ (Reading.start done b).pending, Large p := by
  intro p begun
  rcases lead_cases b with whole | stray | ⟨q, begins, large⟩
  · simp [Reading.start, whole] at begun
  · simp [Reading.start, stray] at begun
  · simp only [Reading.start, begins] at begun
    cases begun
    exact large

theorem pow_le_more (n : Nat) : 64 ^ n ≤ 64 * 64 ^ (n - 1) := by
  cases n with
  | zero => decide
  | succ n =>
    exact Nat.le_of_eq (by rw [Nat.pow_succ, Nat.add_sub_cancel, Nat.mul_comm])

theorem feed_large (large : ∀ p ∈ r.pending, Large p) : ∀ p ∈ (r.feed b).pending, Large p := by
  intro p begun
  unfold Reading.feed at begun
  split at begun
  · exact start_large p begun
  · rename_i q before
    split at begun
    · rename_i inside
      split at begun
      · cases begun
      · rename_i more
        cases begun
        obtain ⟨low, value⟩ := large q before
        simp only [Bool.and_eq_true, decide_eq_true_eq, UInt8.le_iff_toNat_le] at inside
        have bits : q.bits * 64 + (q.low.toNat - 128) ≤ q.bits * 64 + (b.toNat - 128) := by omega
        refine ⟨Nat.le_refl 128, ?_⟩
        calc 128 ≤ (q.bits * 64 + (q.low.toNat - 128)) * 64 ^ (q.owed - 1) := value
          _ ≤ (q.bits * 64 + (b.toNat - 128)) * (64 * 64 ^ (q.owed - 1 - 1)) :=
            Nat.mul_le_mul bits (pow_le_more _)
          _ = ((q.bits * 64 + (b.toNat - 128)) * 64 + (128 - 128)) * 64 ^ (q.owed - 1 - 1) := by
            rw [Nat.sub_self, Nat.add_zero, Nat.mul_assoc]
    · exact start_large p begun

/-- A character of one byte is read from that byte. -/
theorem mem_decodeLossy (some : 0 < c.toNat) (ascii : c.toNat < 128)
    (member : c ∈ decodeLossy bs) : UInt8.ofNat c.toNat ∈ bs := by
  have fed : ∀ (bs : Bytes) (r : Reading), (∀ p ∈ r.pending, Large p) →
      c ∈ (bs.foldl Reading.feed r).done → c ∈ r.done ∨ ∃ b ∈ bs, b.toNat = c.toNat := by
    intro bs
    induction bs with
    | nil => exact fun _ _ member => .inl member
    | cons b bs ih =>
      intro r large member
      rcases ih (r.feed b) (feed_large large) member with before | ⟨later, inside, same⟩
      · rcases mem_feed some ascii large before with done | same
        · exact .inl done
        · exact .inr ⟨b, List.mem_cons_self, same⟩
      · exact .inr ⟨later, List.mem_cons_of_mem _ inside, same⟩
  have other : c ≠ replacement := by
    rintro rfl
    rw [toNat_replacement] at ascii
    omega
  have done : c ∈ (bs.foldl Reading.feed {}).done := by
    unfold decodeLossy Reading.finish at member
    split at member
    · exact List.mem_reverse.mp member
    · exact (List.mem_cons.mp (List.mem_reverse.mp member)).resolve_left other
  obtain ⟨b, inside, same⟩ := (fed bs {} nofun done).resolve_left nofun
  rwa [← same, UInt8.ofNat_toNat]

/-! Lines read. -/

theorem mem_of_mem_splitWhere {α : Type} {sep : α → Bool} {x : α} {xs piece : List α}
    (member : piece ∈ splitWhere sep xs) (held : x ∈ piece) : x ∈ xs := by
  induction xs generalizing piece with
  | nil =>
    rw [splitWhere_nil, List.mem_singleton] at member
    rwa [member] at held
  | cons y ys ih =>
    cases known : sep y with
    | true =>
      rw [splitWhere_cons_sep ys known] at member
      rcases List.mem_cons.mp member with rfl | later
      · cases held
      · exact List.mem_cons_of_mem _ (ih later held)
    | false =>
      rw [splitWhere_cons_other ys known] at member
      obtain ⟨first, later, cut⟩ := List.exists_cons_of_ne_nil (splitWhere_ne_nil sep ys)
      rw [cut, List.modifyHead_cons] at member
      rw [cut] at ih
      rcases List.mem_cons.mp member with rfl | member
      · rcases List.mem_cons.mp held with rfl | held
        · exact List.mem_cons_self
        · exact List.mem_cons_of_mem _ (ih List.mem_cons_self held)
      · exact List.mem_cons_of_mem _ (ih (List.mem_cons_of_mem _ member) held)

theorem dropReturn_subset (cs : List Char) : dropReturn cs ⊆ cs := by
  unfold dropReturn
  split
  · exact List.dropLast_subset cs
  · exact List.Subset.refl cs

/-- What is in a line was in the text, and ends no line. -/
theorem mem_of_mem_splitLines {cs piece : List Char} (line : piece ∈ splitLines cs)
    (member : c ∈ piece) : c ∈ cs ∧ c ≠ '\n' := by
  obtain ⟨whole, cut, rfl⟩ := List.mem_map.mp line
  have inside := dropReturn_subset whole member
  refine ⟨?_, by simpa using not_sep_of_mem_splitWhere cut c inside⟩
  have body := mem_of_mem_splitWhere cut inside
  split at body
  · exact List.dropLast_subset cs body
  · exact body

theorem mem_of_mem_lines (read : line ∈ lines bs) (member : c ∈ line.toList) :
    c ∈ decodeLossy bs ∧ c ≠ '\n' := by
  unfold lines at read
  split at read
  · cases read
  · obtain ⟨piece, cut, rfl⟩ := List.mem_map.mp read
    rw [String.toList_ofList] at member
    exact mem_of_mem_splitLines cut member

theorem feed_not_mem_lines (read : line ∈ lines bs) : '\n' ∉ line.toList := fun member =>
  (mem_of_mem_lines read member).2 rfl

/-- Without the byte of a carriage return there is none in a line. -/
theorem return_not_mem_lines (none : 13 ∉ bs) (read : line ∈ lines bs) : '\r' ∉ line.toList :=
  fun member => none (mem_decodeLossy (by decide) (by decide) (mem_of_mem_lines read member).1)

end LineShell.ReadLines
