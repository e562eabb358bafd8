import Mathlib.Data.List.Basic
import LineShell.Proofs.EncodedText
import LineShell.Proofs.JoinedLines

/-! Lines written and read again. A line feed ends a line wherever it stands, so the first
line of bytes can be cut off and read on its own, and all others are those of the rest. Lines
without line feeds are therefore read back as they were written, one carriage return at their
end apart, and there are as many lines as line feeds, with one more if the last has none. -/
namespace LineShell.WrittenLines
open EncodedText JoinedLines ReadLines Text

/-- The line that bytes without a line feed are. -/
def lineOf (bs : Bytes) : String := String.ofList (dropReturn (decodeLossy bs))

variable {bs first : Bytes} {ls : List String}

/-! The first line. -/

theorem feed_not_mem_decodeLossy (clean : 10 ∉ bs) : '\n' ∉ decodeLossy bs := fun member =>
  clean (mem_decodeLossy (by decide) (by decide) member)

/-- Bytes without a line feed are one line, if there are any. -/
theorem lines_last (clean : 10 ∉ bs) (nonempty : bs ≠ []) : lines bs = [lineOf bs] := by
  have text := feed_not_mem_decodeLossy clean
  have unended : (decodeLossy bs).getLast? ≠ some '\n' := fun ends =>
    text (List.mem_of_getLast? ends)
  rw [lines, if_neg (by simpa using nonempty), splitLines, if_neg unended, splitWhere_of_not_mem text]
  rfl

theorem lines_feed (clean : 10 ∉ bs) : lines (bs ++ [10]) = [lineOf bs] := by
  have text := feed_not_mem_decodeLossy clean
  rw [lines, if_neg (by simp), decodeLossy_concat_feed, splitLines, List.getLast?_concat,
    if_pos rfl, List.dropLast_concat, splitWhere_of_not_mem text]
  rfl

/-- The first line of bytes ends at their first line feed. -/
theorem lines_first (clean : 10 ∉ first) (rest : Bytes) :
    lines (first ++ 10 :: rest) = lineOf first :: lines rest := by
  have ended : Ended (first ++ [10]) := .inr List.getLast?_concat
  rw [← List.singleton_append, ← List.append_assoc, lines_append ended, lines_feed clean,
    List.singleton_append]

/-- Every line feed ends a line, and a last line may have none. -/
theorem length_lines (nonempty : bs ≠ []) :
    (lines bs).length = bs.count 10 + if bs.getLast? = some 10 then 0 else 1 := by
  -- On the length, because what is left without the first line can be of any shorter length.
  induction size : bs.length using Nat.strong_induction_on generalizing bs with
  | _ n ih =>
    by_cases fed : 10 ∈ bs
    · obtain ⟨first, rest, rfl, clean⟩ := List.eq_append_cons_of_mem fed
      have fewer : (first ++ 10 :: rest).count 10 = rest.count 10 + 1 := by
        rw [List.count_append, List.count_cons_self, List.count_eq_zero_of_not_mem clean,
          Nat.zero_add]
      rw [lines_first clean, List.length_cons, fewer, List.getLast?_append_cons]
      by_cases none : rest = []
      · subst none
        rfl
      · have shorter : rest.length < n := by
          rw [← size, List.length_append, List.length_cons]
          omega
        rw [ih _ shorter none rfl, List.getLast?_cons_of_ne_nil none]
        omega
    · have ends : bs.getLast? ≠ some 10 := fun ends => fed (List.mem_of_getLast? ends)
      rw [lines_last fed nonempty, List.count_eq_zero_of_not_mem fed, if_neg ends]
      rfl

/-! Lines written. -/

/-- Lines are read back without one carriage return at the end of each. -/
theorem lines_unlines_clean (clean : ∀ line ∈ ls, '\n' ∉ line.toList) :
    lines (unlines ls) = ls.map fun line => String.ofList (dropReturn line.toList) := by
  induction ls with
  | nil => rfl
  | cons line ls ih =>
    obtain ⟨here, later⟩ := List.forall_mem_cons.mp clean
    have written : unlines (line :: ls) = bytes line ++ 10 :: unlines ls := by simp [unlines]
    have alone : lineOf (bytes line) = String.ofList (dropReturn line.toList) := by
      rw [lineOf, bytes, decodeLossy_encode]
    have bytewise : 10 ∉ bytes line := fun member => here (feed_mem_encode.mp member)
    rw [written, lines_first bytewise, alone, ih later, List.map_cons]

/-- A line is itself without a carriage return at its end if it ends in none. -/
theorem dropReturn_eq_self {cs : List Char} : dropReturn cs = cs ↔ cs.getLast? ≠ some '\r' := by
  constructor
  · intro same ends
    obtain ⟨body, rfl⟩ := List.getLast?_eq_some_iff.mp ends
    rw [dropReturn, if_pos ends, List.dropLast_concat] at same
    simp at same
  · exact fun ends => if_neg ends

/-- Just the lines without line feeds, none of which ends in a carriage return, are read
back. -/
theorem lines_unlines_iff : lines (unlines ls) = ls ↔
    ∀ line ∈ ls, '\n' ∉ line.toList ∧ line.toList.getLast? ≠ some '\r' := by
  have each (line : String) :
      String.ofList (dropReturn line.toList) = line ↔ line.toList.getLast? ≠ some '\r' := by
    rw [← dropReturn_eq_self, ← String.toList_inj, String.toList_ofList]
  have kept (clean : ∀ line ∈ ls, '\n' ∉ line.toList) :
      lines (unlines ls) = ls ↔ ∀ line ∈ ls, line.toList.getLast? ≠ some '\r' :=
    calc lines (unlines ls) = ls
      _ ↔ ls.map (fun line => String.ofList (dropReturn line.toList)) = ls.map id := by
        rw [lines_unlines_clean clean, List.map_id]
      _ ↔ ∀ line ∈ ls, String.ofList (dropReturn line.toList) = line := List.map_inj_left
      _ ↔ ∀ line ∈ ls, line.toList.getLast? ≠ some '\r' := forall₂_congr fun line _ => each line
  constructor
  · intro same
    have clean : ∀ line ∈ ls, '\n' ∉ line.toList := by
      intro line member
      have read : line ∈ lines (unlines ls) := by rwa [same]
      exact feed_not_mem_lines read
    exact fun line member => ⟨clean line member, (kept clean).mp same line member⟩
  · intro both
    exact (kept fun line member => (both line member).1).mpr fun line member =>
      (both line member).2

/-- What is written of lines are the bytes of the lines, each with a line feed. -/
theorem collect_writeLines (ls : List String) (s : Session) :
    (Act.collect (Job.writeLines ls) : Job (Except Complaint Unit × Bytes)).start s =
      some (.ok (.ok (), unlines ls), s) := rfl

/-- What is written of lines is read back just if none holds a line feed or ends in a
carriage return. Bytes that are empty or end with a line feed keep their lines whatever
follows, and what follows has its own. Every line feed ends a line, and only the last line
may be without one. -/
theorem reading_lines_undoes_writing :
    (∀ ls : List String, ∃ bs : Bytes,
      (∀ s : Session, (Act.collect (Job.writeLines ls) : Job (Except Complaint Unit × Bytes)).start s =
        some (.ok (.ok (), bs), s)) ∧
      (lines bs = ls ↔ ∀ line ∈ ls, '\n' ∉ line.toList ∧ line.toList.getLast? ≠ some '\r')) ∧
    (∀ first second : Bytes, Ended first →
      lines (first ++ second) = lines first ++ lines second) ∧
    (∀ bs : Bytes, bs ≠ [] →
      (lines bs).length = bs.count 10 + if bs.getLast? = some 10 then 0 else 1) ∧
    ∀ (bs : Bytes), ∀ line ∈ lines bs, '\n' ∉ line.toList := by
  refine ⟨fun ls => ⟨unlines ls, collect_writeLines ls, lines_unlines_iff⟩, ?_, ?_, ?_⟩
  · exact fun first second ended => lines_append ended second
  · exact fun bs nonempty => length_lines nonempty
  · exact fun bs line read => feed_not_mem_lines read

/-- An input that ends within a character, after one that ends with a line feed: the two
lines of the one follow that of the other. -/
theorem torn_input_read_after_ended_one :
    (Ended (bytes "é\r\n") ∧ ([0xC3, 10, 13] : Bytes) ≠ [] ∧ "\uFFFD" ∈ lines [0xC3, 10, 13]) ∧
    lines (bytes "é\r\n" ++ [0xC3, 10, 13]) = ["é", "\uFFFD", ""] ∧
    (lines [0xC3, 10, 13]).length = 2 ∧ '\n' ∉ "\uFFFD".toList ∧
    ∃ bs, (Act.collect (Job.writeLines ["", "é", ""]) :
        Job (Except Complaint Unit × Bytes)).start {} = some (.ok (.ok (), bs), {}) ∧
      lines bs = ["", "é", ""] := by
  obtain ⟨written, joined, counted, feedless⟩ := reading_lines_undoes_writing
  have ended : Ended (bytes "é\r\n") := by decide +kernel
  have torn : lines [0xC3, 10, 13] = ["\uFFFD", ""] := by decide +kernel
  have member : "\uFFFD" ∈ lines [0xC3, 10, 13] := by simp [torn]
  have single : lines (bytes "é\r\n") = ["é"] := by decide +kernel
  obtain ⟨bs, collected, back⟩ := written ["", "é", ""]
  refine ⟨⟨ended, by decide, member⟩, ?_, counted _ (by decide), feedless _ _ member, bs,
    collected {}, back.mpr (by decide +kernel)⟩
  rw [joined _ _ ended, single, torn]
  rfl

end LineShell.WrittenLines
