import Mathlib.Tactic.SplitIfs
import LineShell.Stream.Basic

/-! Reading back what was written in UTF-8. The reader takes the bytes of each
character to the character and is then between characters again, so a text is read
back from its bytes. A line feed is one byte, which no other character has, so the
lines of the bytes are the bytes of the lines. -/
namespace LineShell.EncodedText
open Text

/-! One character. -/

theorem toNat_ofNat {m : Nat} (small : m < 256) : (UInt8.ofNat m).toNat = m := by
  rw [UInt8.toNat_ofNat']
  omega

/-- The first byte of a character of several bytes begins it. -/
theorem feed_lead {done : List Char} {m : Nat} {p : Pending}
    (begins : lead (UInt8.ofNat m) = .begins p) :
    Reading.feed ⟨done, none⟩ (UInt8.ofNat m) = ⟨done, some p⟩ := by
  simp only [Reading.feed, Reading.start, begins]

/-- A byte within the bounds is taken up into the character begun. -/
theorem feed_tail {p : Pending} {done : List Char} {m : Nat} (low : p.low.toNat ≤ m)
    (high : m ≤ p.high.toNat) (small : m < 256) :
    Reading.feed ⟨done, some p⟩ (UInt8.ofNat m) =
      if p.owed == 1 then ⟨Char.ofNat (p.bits * 64 + (m - 0x80)) :: done, none⟩
      else ⟨done, some ⟨p.owed - 1, 0x80, 0xBF, p.bits * 64 + (m - 0x80)⟩⟩ := by
  have value := toNat_ofNat small
  have inside : (decide (p.low ≤ UInt8.ofNat m) && decide (UInt8.ofNat m ≤ p.high)) = true := by
    simp only [Bool.and_eq_true, decide_eq_true_eq, UInt8.le_iff_toNat_le, value]
    exact ⟨low, high⟩
  simp only [Reading.feed, inside, if_true, value]

/-- What the first byte of two, three or four tells. -/
theorem lead_two {n : Nat} (low : 2 ≤ n) (high : n < 32) :
    lead (UInt8.ofNat (n + 192)) = .begins ⟨1, 0x80, 0xBF, n⟩ := by
  simp only [lead, toNat_ofNat (show n + 192 < 256 by omega)]
  rw [if_neg (by omega), if_neg (by omega), if_pos (by omega)]
  simp

theorem lead_three {n : Nat} (high : n < 16) :
    ∃ low high, lead (UInt8.ofNat (n + 224)) = .begins ⟨2, low, high, n⟩ ∧
      low.toNat = (if n = 0 then 0xA0 else 0x80) ∧
      high.toNat = (if n = 13 then 0x9F else 0xBF) := by
  simp only [lead, toNat_ofNat (show n + 224 < 256 by omega), beq_iff_eq]
  rw [if_neg (by omega), if_neg (by omega), if_neg (by omega)]
  by_cases zero : n = 0
  · subst zero
    exact ⟨_, _, rfl, rfl, rfl⟩
  · rw [if_neg (by omega), if_neg zero]
    by_cases thirteen : n = 13
    · subst thirteen
      exact ⟨_, _, rfl, rfl, rfl⟩
    · rw [if_neg (by omega), if_pos (by omega), if_neg thirteen]
      exact ⟨_, _, by rw [Nat.add_sub_cancel], rfl, rfl⟩

theorem lead_four {n : Nat} (high : n ≤ 4) :
    ∃ low high, lead (UInt8.ofNat (n + 240)) = .begins ⟨3, low, high, n⟩ ∧
      low.toNat = (if n = 0 then 0x90 else 0x80) ∧
      high.toNat = (if n = 4 then 0x8F else 0xBF) := by
  simp only [lead, toNat_ofNat (show n + 240 < 256 by omega), beq_iff_eq]
  rw [if_neg (by omega), if_neg (by omega), if_neg (by omega), if_neg (by omega),
    if_neg (by omega), if_neg (by omega)]
  by_cases zero : n = 0
  · subst zero
    exact ⟨_, _, rfl, rfl, rfl⟩
  · rw [if_neg (by omega), if_neg zero]
    by_cases four : n = 4
    · subst four
      exact ⟨_, _, rfl, rfl, rfl⟩
    · rw [if_pos (by omega), if_neg four]
      exact ⟨_, _, by rw [Nat.add_sub_cancel], rfl, rfl⟩

/-- The value of a character is no surrogate and not too large. -/
theorem char_bounds (c : Char) :
    c.toNat < 0xD800 ∨ (0xDFFF < c.toNat ∧ c.toNat < 0x110000) := c.valid

/-- The bytes of a character are read as the character. -/
theorem feed_char (c : Char) (done : List Char) :
    (String.utf8EncodeChar c).foldl Reading.feed ⟨done, none⟩ = ⟨c :: done, none⟩ := by
  have bounds := char_bounds c
  have same := Char.ofNat_toNat c
  have value : c.val.toNat = c.toNat := rfl
  simp only [String.utf8EncodeChar, value]
  generalize c.toNat = v at bounds same
  split_ifs with one two three
  · have whole : lead (UInt8.ofNat v) = .whole c := by
      rw [lead, toNat_ofNat (by omega), if_pos (by omega), same]
    simp only [List.foldl, Reading.feed, Reading.start, whole]
  · have top : v / 64 % 32 = v / 64 := by omega
    have bits : v / 64 * 64 + (v % 64 + 128 - 128) = v := by omega
    simp only [List.foldl, top]
    rw [feed_lead (lead_two (by omega) (by omega)),
      feed_tail (show 0x80 ≤ v % 64 + 128 by omega) (show v % 64 + 128 ≤ 0xBF by omega) (by omega)]
    simp only [bits, same, beq_self_eq_true, if_true]
  · have top : v / 4096 % 16 = v / 4096 := by omega
    have bits : (v / 4096 * 64 + (v / 64 % 64 + 128 - 128)) * 64 + (v % 64 + 128 - 128) = v := by
      omega
    obtain ⟨low, high, begins, lowest, highest⟩ := lead_three (n := v / 4096) (by omega)
    have above : low.toNat ≤ v / 64 % 64 + 128 := by
      rw [lowest]
      split <;> omega
    have below : v / 64 % 64 + 128 ≤ high.toNat := by
      rw [highest]
      split <;> omega
    simp only [List.foldl, top]
    rw [feed_lead begins, feed_tail above below (by omega)]
    simp only [Nat.reduceBEq, Bool.false_eq_true, if_false, Nat.reduceSub]
    rw [feed_tail (show 0x80 ≤ v % 64 + 128 by omega) (show v % 64 + 128 ≤ 0xBF by omega) (by omega)]
    simp only [bits, same, beq_self_eq_true, if_true]
  · have top : v / 262144 % 8 = v / 262144 := by omega
    have bits : ((v / 262144 * 64 + (v / 4096 % 64 + 128 - 128)) * 64 +
        (v / 64 % 64 + 128 - 128)) * 64 + (v % 64 + 128 - 128) = v := by
      omega
    obtain ⟨low, high, begins, lowest, highest⟩ := lead_four (n := v / 262144) (by omega)
    have above : low.toNat ≤ v / 4096 % 64 + 128 := by
      rw [lowest]
      split <;> omega
    have below : v / 4096 % 64 + 128 ≤ high.toNat := by
      rw [highest]
      split <;> omega
    simp only [List.foldl, top]
    rw [feed_lead begins, feed_tail above below (by omega)]
    simp only [Nat.reduceBEq, Bool.false_eq_true, if_false, Nat.reduceSub]
    rw [feed_tail (show 0x80 ≤ v / 64 % 64 + 128 by omega) (show v / 64 % 64 + 128 ≤ 0xBF by omega)
      (by omega)]
    simp only [Nat.reduceBEq, Bool.false_eq_true, if_false, Nat.reduceSub]
    rw [feed_tail (show 0x80 ≤ v % 64 + 128 by omega) (show v % 64 + 128 ≤ 0xBF by omega) (by omega)]
    simp only [bits, same, beq_self_eq_true, if_true]

/-! A text. -/

theorem encode_append (xs ys : List Char) : encode (xs ++ ys) = encode xs ++ encode ys := by
  simp [encode]

theorem encode_cons (c : Char) (cs : List Char) :
    encode (c :: cs) = String.utf8EncodeChar c ++ encode cs := by
  simp [encode]

theorem feed_text (cs done : List Char) :
    (encode cs).foldl Reading.feed ⟨done, none⟩ = ⟨cs.reverse ++ done, none⟩ := by
  induction cs generalizing done with
  | nil => rfl
  | cons c cs ih =>
    rw [encode_cons, List.foldl_append, feed_char, ih]
    simp

theorem decodeLossy_encode (cs : List Char) : decodeLossy (encode cs) = cs := by
  rw [decodeLossy, feed_text cs []]
  simp [Reading.finish]

theorem decode?_encode (cs : List Char) : decode? (encode cs) = some cs := by
  simp only [decode?, decodeLossy_encode, if_true]

/-! Lines. -/

/-- The byte of a line feed stands for a line feed only. -/
theorem feed_mem_char {c : Char} (member : 10 ∈ String.utf8EncodeChar c) : c = '\n' := by
  have small {m : Nat} (low : 128 ≤ m) (high : m < 256) : (10 : UInt8) ≠ UInt8.ofNat m := by
    intro same
    have values := congrArg UInt8.toNat same
    rw [toNat_ofNat high] at values
    have ten : (10 : UInt8).toNat = 10 := rfl
    omega
  have value : c.val.toNat = c.toNat := rfl
  simp only [String.utf8EncodeChar, value] at member
  split_ifs at member with one two three
  · have same := congrArg UInt8.toNat (List.mem_singleton.mp member)
    rw [toNat_ofNat (by omega)] at same
    rw [← Char.ofNat_toNat c, ← same]
    rfl
  all_goals
    simp only [List.mem_cons, List.not_mem_nil, or_false] at member
    grind

theorem encode_feed : encode ['\n'] = [10] := rfl

theorem feed_mem_encode {cs : List Char} : 10 ∈ encode cs ↔ '\n' ∈ cs := by
  constructor
  · intro member
    obtain ⟨c, held, byte⟩ := List.mem_flatMap.mp member
    rw [← feed_mem_char byte]
    exact held
  · intro member
    refine List.mem_flatMap.mpr ⟨'\n', member, ?_⟩
    decide

end LineShell.EncodedText
