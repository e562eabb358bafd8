import LineShell.Application.Cat
import LineShell.Proofs.ReadLines

/-! Lines of inputs that are joined. A line feed is no part of another character, so the
reader of bytes is between characters after it, whatever came before, and begins the next
input as if it were the first. Inputs that end with a line feed therefore keep their lines
when others follow, and the numbers of the lines go on from one input to the next. -/
namespace LineShell.JoinedLines
open ReadLines Text

/-- An input that is empty or ends with a line feed. -/
def Ended (bs : Bytes) : Prop := bs = [] ∨ bs.getLast? = some 10

instance (bs : Bytes) : Decidable (Ended bs) :=
  inferInstanceAs (Decidable (bs = [] ∨ bs.getLast? = some 10))

variable {r : Reading} {b : UInt8} {first second bs : Bytes} {inputs : List Bytes}

/-! The reader of bytes. -/

/-- The reader with characters read before. -/
def behind (before : List Char) (r : Reading) : Reading := { r with done := r.done ++ before }

theorem start_behind (before done : List Char) (b : UInt8) :
    Reading.start (done ++ before) b = behind before (Reading.start done b) := by
  unfold Reading.start
  cases lead b <;> rfl

theorem feed_behind (before : List Char) (r : Reading) (b : UInt8) :
    (behind before r).feed b = behind before (r.feed b) := by
  obtain ⟨done, _ | p⟩ := r
  · exact start_behind before done b
  · simp only [Reading.feed, behind]
    split
    · split <;> rfl
    · exact start_behind before (replacement :: done) b

theorem foldl_feed_behind (before : List Char) (r : Reading) (bs : Bytes) :
    bs.foldl Reading.feed (behind before r) = behind before (bs.foldl Reading.feed r) := by
  induction bs generalizing r with
  | nil => rfl
  | cons b bs ih => rw [List.foldl_cons, feed_behind, ih, List.foldl_cons]

theorem finish_behind (before : List Char) (r : Reading) :
    (behind before r).finish = before.reverse ++ r.finish := by
  obtain ⟨done, _ | p⟩ := r <;> simp [behind, Reading.finish]

/-- A line feed ends the character begun, which was none of a single byte. -/
theorem feed_lineFeed (large : ∀ p ∈ r.pending, Large p) :
    r.feed 10 = ⟨'\n' :: r.finish.reverse, none⟩ := by
  have whole : lead 10 = .whole '\n' := by decide
  obtain ⟨done, _ | p⟩ := r
  · simp [Reading.feed, Reading.start, Reading.finish, whole]
  · have low := (large p rfl).low
    have outside : (decide (p.low ≤ 10) && decide ((10 : UInt8) ≤ p.high)) = false := by
      have above : ¬ p.low ≤ 10 := by
        rw [UInt8.le_iff_toNat_le]
        have ten : (10 : UInt8).toNat = 10 := rfl
        omega
      simp [above]
    simp [Reading.feed, Reading.start, Reading.finish, outside, whole]

theorem foldl_feed_large (bs : Bytes) (large : ∀ p ∈ r.pending, Large p) :
    ∀ p ∈ (bs.foldl Reading.feed r).pending, Large p := by
  induction bs generalizing r with
  | nil => exact large
  | cons b bs ih => exact ih (feed_large large)

/-- Every byte is of a character that has been read or begun. -/
theorem finish_feed_ne_nil (r : Reading) (b : UInt8) : (r.feed b).finish ≠ [] := by
  have started (done : List Char) : (Reading.start done b).finish ≠ [] := by
    unfold Reading.start
    split <;> simp [Reading.finish]
  obtain ⟨done, _ | p⟩ := r
  · exact started done
  · simp only [Reading.feed]
    split
    · split <;> simp [Reading.finish]
    · exact started _

theorem decodeLossy_concat_feed (bs : Bytes) :
    decodeLossy (bs ++ [10]) = decodeLossy bs ++ ['\n'] := by
  have large := foldl_feed_large bs (r := {}) nofun
  rw [decodeLossy, List.foldl_append, List.foldl_cons, List.foldl_nil, feed_lineFeed large]
  simp [Reading.finish, decodeLossy]

/-- What comes after a line feed is read as if nothing came before. -/
theorem decodeLossy_append_feed (first second : Bytes) :
    decodeLossy (first ++ 10 :: second) = decodeLossy first ++ '\n' :: decodeLossy second := by
  have large := foldl_feed_large first (r := {}) nofun
  have fed : Reading.feed (first.foldl Reading.feed {}) 10 =
      behind ('\n' :: (decodeLossy first).reverse) {} := feed_lineFeed large
  rw [decodeLossy, List.foldl_append, List.foldl_cons, fed, foldl_feed_behind, finish_behind]
  simp [decodeLossy]

theorem decodeLossy_ne_nil (some : bs ≠ []) : decodeLossy bs ≠ [] := by
  rw [decodeLossy, ← List.dropLast_concat_getLast some, List.foldl_append]
  exact finish_feed_ne_nil _ _

/-! Lines. -/

/-- The lines of a text after a line feed are its own. -/
theorem splitLines_append_feed (cs : List Char) {ds : List Char} (nonempty : ds ≠ []) :
    splitLines (cs ++ '\n' :: ds) = splitLines (cs ++ ['\n']) ++ splitLines ds := by
  have ends := List.getLast?_eq_some_getLast nonempty
  have whole : (cs ++ '\n' :: ds).getLast? = some (ds.getLast nonempty) := by
    rw [List.getLast?_append, List.getLast?_cons, ends]
    rfl
  have shorter : (cs ++ '\n' :: ds).dropLast = cs ++ '\n' :: ds.dropLast := by
    rw [List.dropLast_append_of_ne_nil (List.cons_ne_nil _ _),
      List.dropLast_cons_of_ne_nil nonempty]
  have first : splitLines (cs ++ ['\n']) = (splitWhere (· == '\n') cs).map dropReturn := by
    rw [splitLines, List.getLast?_concat, if_pos rfl, List.dropLast_concat]
  rw [first, splitLines, splitLines, whole, ends, shorter]
  split
  · rw [splitWhere_append_sep _ _ (by simp), List.map_append]
  · rw [splitWhere_append_sep _ _ (by simp), List.map_append]

theorem lines_append (ended : Ended first) (second : Bytes) :
    lines (first ++ second) = lines first ++ lines second := by
  rcases ended with rfl | ends
  · rfl
  · obtain ⟨body, rfl⟩ : ∃ body, first = body ++ [10] := List.getLast?_eq_some_iff.mp ends
    by_cases none : second = []
    · subst none
      simp [lines]
    · have joined : (body ++ [10] ++ second).isEmpty = false := by simp
      have single : (body ++ [10]).isEmpty = false := by simp
      have rest : second.isEmpty = false := by simpa using none
      have text : decodeLossy (body ++ [10] ++ second) =
          decodeLossy body ++ '\n' :: decodeLossy second := by
        rw [List.append_assoc, List.singleton_append, decodeLossy_append_feed]
      rw [lines, lines, lines, joined, single, rest, text, decodeLossy_concat_feed]
      simp only [Bool.false_eq_true, if_false]
      rw [splitLines_append_feed _ (decodeLossy_ne_nil none), List.map_append]

/-- The lines of joined inputs are those of the inputs, if each but the last is ended. -/
theorem lines_flatten (ended : ∀ bs ∈ inputs.dropLast, Ended bs) :
    lines inputs.flatten = inputs.flatMap lines := by
  induction inputs with
  | nil => rfl
  | cons bs inputs ih =>
    cases inputs with
    | nil => simp
    | cons next inputs =>
      rw [List.dropLast_cons_of_ne_nil (List.cons_ne_nil _ _)] at ended
      obtain ⟨here, later⟩ := List.forall_mem_cons.mp ended
      rw [List.flatten_cons, lines_append here, ih later]
      rfl

/-- The numbers of later lines go on from those of earlier ones. -/
theorem numberLines_append (last : Nat) (earlier later : List String) :
    Cat.numberLines last (earlier ++ later) =
      Cat.numberLines last earlier ++ Cat.numberLines (last + earlier.length) later := by
  have shift : (fun i line => Cat.numbered (last + 1 + (i + earlier.length)) line) =
      fun i line => Cat.numbered (last + earlier.length + 1 + i) line := by
    funext i line
    rw [show last + 1 + (i + earlier.length) = last + earlier.length + 1 + i by omega]
  unfold Cat.numberLines
  rw [List.mapIdx_append, shift]

end LineShell.JoinedLines
