import Mathlib.Data.Nat.Digits.Lemmas
import LineShell.Proofs.ChunkOrder

/-! Runs of digits in lines. A text is cut wherever a digit and another character meet, and
this is the only way to cut it into runs of digits and of other characters by turns. Of two
runs of digits without zeros before them the longer one is the greater number, and in runs of
one length the first digits that differ decide. So runs compare as the numbers that they
denote, however long they are, and this decides between lines that are the same before them. -/
namespace LineShell.DigitRuns
open LineShell.Sort ChunkOrder

/-- Runs of digits and of other characters by turns, the first one of digits or not. -/
inductive Alternating : Bool → List (List Char) → Prop where
  | done {digits : Bool} : Alternating digits []
  | run {digits : Bool} {run : List Char} {later : List (List Char)} (nonempty : run ≠ [])
      (kind : ∀ c ∈ run, c.isDigit = digits) (turns : Alternating (!digits) later) :
      Alternating digits (run :: later)

/-- A run of digits, or of other characters, between the text before it and after it, where
the next characters are not of its kind. -/
structure MaximalRun (digits : Bool) (before run after : List Char) : Prop where
  nonempty : run ≠ []
  inside : ∀ c ∈ run, c.isDigit = digits
  begins : ∀ c ∈ before.getLast?, c.isDigit = !digits
  ends : ∀ c ∈ after.head?, c.isDigit = !digits

/-- The number that digits denote. -/
def number (ds : List Char) : Nat := Nat.ofDigits 10 (ds.reverse.map fun c => c.toNat - 48)

variable {digits : Bool} {cs ds xs ys before run after : List Char} {runs : List (List Char)}
  {c d : Char}

/-! The cut. -/

theorem flatten_chunks (cs : List Char) : (chunks cs).flatten = cs := by
  induction cs with
  | nil => rfl
  | cons c cs ih =>
    rw [chunks_cons]
    split
    · rename_i cut
      rw [cut] at ih
      split <;> simp [← ih]
    · simp [ih]

theorem nil_not_mem_chunks (cs : List Char) : [] ∉ chunks cs := fun member =>
  (whole_of_mem_chunks member).1 rfl

/-- The first chunk starts with the first character. -/
theorem exists_chunks_cons (c : Char) (cs : List Char) :
    ∃ run later, chunks (c :: cs) = (c :: run) :: later := by
  rw [chunks_cons]
  split
  · split
    · exact ⟨_, _, rfl⟩
    · exact ⟨_, _, rfl⟩
  · exact ⟨_, _, rfl⟩

/-- A text is cut where a digit and another character meet. -/
theorem chunks_append (apart : ∀ c ∈ xs.getLast?, ∀ d ∈ ys.head?, c.isDigit ≠ d.isDigit) :
    chunks (xs ++ ys) = chunks xs ++ chunks ys := by
  induction xs with
  | nil => rfl
  | cons c xs ih =>
    cases xs with
    | nil =>
      -- Here the two characters meet, so the one does not join the run of the other.
      cases ys with
      | nil => rfl
      | cons d ys =>
        obtain ⟨run, later, cut⟩ := exists_chunks_cons d ys
        have other : c.isDigit ≠ d.isDigit := apart c rfl d rfl
        rw [List.singleton_append, chunks_cons, cut]
        simp only [if_neg other]
        rfl
    | cons d xs =>
      have later := ih (by simpa using apart)
      obtain ⟨run, rest, cut⟩ := exists_chunks_cons d xs
      rw [cut] at later
      rw [List.cons_append, chunks_cons, later, chunks_cons, cut]
      simp only [List.cons_append]
      split <;> rfl

theorem chunks_run (nonempty : run ≠ []) (kind : ∀ c ∈ run, c.isDigit = digits) :
    chunks run = [run] := by
  induction run with
  | nil => exact absurd rfl nonempty
  | cons c run ih =>
    cases run with
    | nil => rfl
    | cons d run =>
      obtain ⟨here, later⟩ := List.forall_mem_cons.mp kind
      have same : c.isDigit = d.isDigit := here.trans (later d List.mem_cons_self).symm
      rw [chunks_cons, ih (List.cons_ne_nil d run) later]
      exact if_pos same

theorem alternating_chunks (cs : List Char) : ∃ digits, Alternating digits (chunks cs) := by
  induction cs with
  | nil => exact ⟨true, .done⟩
  | cons c cs ih =>
    refine ⟨c.isDigit, ?_⟩
    have alone (e : Char) (member : e ∈ [c]) : e.isDigit = c.isDigit := by
      rw [List.mem_singleton.mp member]
    cases cs with
    | nil => exact .run (List.cons_ne_nil c []) alone .done
    | cons d cs =>
      obtain ⟨digits, turns⟩ := ih
      obtain ⟨run, later, cut⟩ := exists_chunks_cons d cs
      rw [cut] at turns
      rw [chunks_cons, cut]
      cases turns with
      | run nonempty kind turns =>
        have first : d.isDigit = digits := kind d List.mem_cons_self
        dsimp only
        split
        · rename_i same
          rw [same, first]
          exact .run (List.cons_ne_nil c _) (List.forall_mem_cons.mpr ⟨same.trans first, kind⟩) turns
        · rename_i other
          have turned : digits = !c.isDigit := first.symm.trans (Bool.eq_not_of_ne (Ne.symm other))
          exact .run (List.cons_ne_nil c []) alone (turned ▸ .run nonempty kind turns)

theorem Alternating.head (turns : Alternating digits runs) :
    ∀ c ∈ runs.flatten.head?, c.isDigit = digits := by
  intro c first
  cases turns with
  | done => cases first
  | run nonempty kind later =>
    obtain ⟨d, run, rfl⟩ := List.exists_cons_of_ne_nil nonempty
    cases first
    exact kind c List.mem_cons_self

/-- Runs by turns are the chunks of the text that they make. -/
theorem Alternating.chunks_flatten (turns : Alternating digits runs) :
    chunks runs.flatten = runs := by
  induction turns with
  | done => rfl
  | run nonempty kind later ih =>
    rw [List.flatten_cons, chunks_append, chunks_run nonempty kind, ih]
    · rfl
    · intro c last d first
      rw [kind c (List.mem_of_getLast? last), later.head d first]
      simp

/-- The runs after one that ends in a character of one kind begin with the other kind. -/
theorem Alternating.split {earlier later : List (List Char)}
    (turns : Alternating digits (earlier ++ later)) :
    ∃ digits, Alternating digits later ∧ ∀ c ∈ earlier.flatten.getLast?, c.isDigit = !digits := by
  induction earlier generalizing digits with
  | nil => exact ⟨digits, turns, nofun⟩
  | cons first earlier ih =>
    cases turns with
    | run nonempty kind turns =>
      cases earlier with
      | nil =>
        refine ⟨!digits, turns, fun c last => ?_⟩
        rw [Bool.not_not]
        exact kind c (List.mem_of_getLast? (by simpa using last))
      | cons second earlier =>
        obtain ⟨other, later, last⟩ := ih turns
        have some : second ≠ [] := by
          cases turns with
          | run nonempty => exact nonempty
        refine ⟨other, later, fun c ends => last c ?_⟩
        rwa [List.flatten_cons, List.getLast?_append_of_ne_nil _ (by simp [some])] at ends

theorem Alternating.maximal {earlier later : List (List Char)}
    (turns : Alternating digits (earlier ++ run :: later)) :
    ∃ digits, MaximalRun digits earlier.flatten run later.flatten := by
  obtain ⟨kind, rest, begins⟩ := turns.split
  cases rest with
  | run nonempty inside later => exact ⟨kind, nonempty, inside, begins, later.head⟩

/-! Numbers. -/

theorem number_cons (d : Char) (ds : List Char) :
    number (d :: ds) = number ds + 10 ^ ds.length * (d.toNat - 48) := by
  have split := Nat.ofDigits_reverse_cons (b := 10) (ds.map fun c => c.toNat - 48) (d.toNat - 48)
  simpa [number] using split

theorem digit_bounds (digit : d.isDigit = true) : 48 ≤ d.toNat ∧ d.toNat ≤ 57 :=
  Char.isDigit_iff_toNat.mp digit

theorem number_lt (digits : ∀ d ∈ ds, d.isDigit = true) : number ds < 10 ^ ds.length := by
  have size : (ds.reverse.map fun c => c.toNat - 48).length = ds.length := by simp
  rw [number, ← size]
  refine Nat.ofDigits_lt_base_pow_length (by decide) fun n member => ?_
  obtain ⟨d, inside, rfl⟩ := List.mem_map.mp member
  have bounds := digit_bounds (digits d (List.mem_reverse.mp inside))
  omega

/-- Zeros before a number do not count. -/
theorem number_dropWhile (ds : List Char) : number (ds.dropWhile (· = '0')) = number ds := by
  induction ds with
  | nil => rfl
  | cons d ds ih =>
    by_cases zero : d = '0'
    · subst zero
      rw [List.dropWhile_cons_of_pos (by simp), ih, number_cons]
      rfl
    · rw [List.dropWhile_cons_of_neg (by simpa using zero)]

/-- The first digits that differ decide between numbers of one length. -/
theorem number_lt_of_first (size : xs.length = ys.length) (digits : ∀ d ∈ xs, d.isDigit = true)
    (digit : c.isDigit = true) (less : c.toNat < d.toNat) : number (c :: xs) < number (d :: ys) := by
  have low := (digit_bounds digit).1
  calc number (c :: xs) = number xs + 10 ^ xs.length * (c.toNat - 48) := number_cons c xs
    _ < 10 ^ xs.length + 10 ^ xs.length * (c.toNat - 48) :=
      Nat.add_lt_add_right (number_lt digits) _
    _ = 10 ^ xs.length * (c.toNat - 48 + 1) := by rw [Nat.mul_succ, Nat.add_comm]
    _ ≤ 10 ^ ys.length * (d.toNat - 48) := by
      rw [size]
      exact Nat.mul_le_mul_left _ (by omega)
    _ ≤ number ys + 10 ^ ys.length * (d.toNat - 48) := Nat.le_add_left _ _
    _ = number (d :: ys) := (number_cons d ys).symm

theorem number_lt_of_shorter (digits : ∀ d ∈ xs, d.isDigit = true)
    (digits' : ∀ d ∈ ys, d.isDigit = true) (first : ys.head? ≠ some '0')
    (shorter : xs.length < ys.length) : number xs < number ys := by
  cases ys with
  | nil => exact absurd shorter (Nat.not_lt_zero _)
  | cons d ys =>
    have digit := digits' d List.mem_cons_self
    have positive : 1 ≤ d.toNat - 48 := by
      have bounds := digit_bounds digit
      have other : d.toNat ≠ '0'.toNat := fun same => first (congrArg some (Char.toNat_inj.mp same))
      have zero : '0'.toNat = 48 := rfl
      omega
    calc number xs < 10 ^ xs.length := number_lt digits
      _ ≤ 10 ^ ys.length := Nat.pow_le_pow_right (by decide) (Nat.le_of_lt_succ shorter)
      _ ≤ 10 ^ ys.length * (d.toNat - 48) := Nat.le_mul_of_pos_right _ positive
      _ ≤ number ys + 10 ^ ys.length * (d.toNat - 48) := Nat.le_add_left _ _
      _ = number (d :: ys) := (number_cons d ys).symm

/-- Numbers of one length are in the order of their texts. -/
theorem compareChars_number (size : xs.length = ys.length) (digits : ∀ d ∈ xs, d.isDigit = true)
    (digits' : ∀ d ∈ ys, d.isDigit = true) :
    compareChars xs ys = compare (number xs) (number ys) := by
  induction xs generalizing ys with
  | nil =>
    cases ys with
    | nil => rfl
    | cons => cases size
  | cons c xs ih =>
    cases ys with
    | nil => cases size
    | cons d ys =>
      obtain ⟨digit, rest⟩ := List.forall_mem_cons.mp digits
      obtain ⟨digit', rest'⟩ := List.forall_mem_cons.mp digits'
      replace size : xs.length = ys.length := Nat.succ.inj size
      have later := ih size rest rest'
      unfold compareChars at later ⊢
      rw [List.compareLex_cons_cons, later]
      rcases Nat.lt_trichotomy c.toNat d.toNat with less | same | more
      · have first : compareOn Char.toNat c d = .lt := Nat.compare_eq_lt.mpr less
        rw [first, Nat.compare_eq_lt.mpr (number_lt_of_first size rest digit less)]
        rfl
      · cases Char.toNat_inj.mp same
        have first : compareOn Char.toNat c c = .eq := Nat.compare_eq_eq.mpr rfl
        rw [first, number_cons, number_cons, size]
        simp [Nat.compare_eq_ite_lt]
      · have first : compareOn Char.toNat c d = .gt := Nat.compare_eq_gt.mpr more
        rw [first, Nat.compare_eq_gt.mpr (number_lt_of_first size.symm rest' digit' more)]
        rfl

theorem head?_dropWhile (ds : List Char) : (ds.dropWhile (· = '0')).head? ≠ some '0' := by
  intro first
  have other := List.head?_dropWhile_not (· = '0') ds
  rw [first] at other
  simp at other

/-- Digits compare as the numbers that they denote. -/
theorem compareDigits_number (digits : ∀ d ∈ xs, d.isDigit = true)
    (digits' : ∀ d ∈ ys, d.isDigit = true) :
    compareDigits xs ys = compare (number xs) (number ys) := by
  have rest : ∀ d ∈ xs.dropWhile (· = '0'), d.isDigit = true := fun d member =>
    digits d (List.dropWhile_subset _ member)
  have rest' : ∀ d ∈ ys.dropWhile (· = '0'), d.isDigit = true := fun d member =>
    digits' d (List.dropWhile_subset _ member)
  have first := head?_dropWhile xs
  have first' := head?_dropWhile ys
  rw [compareDigits, ← number_dropWhile xs, ← number_dropWhile ys]
  -- The numbers are left without zeros before them, and only then a longer one is greater.
  generalize xs.dropWhile (· = '0') = xs at *
  generalize ys.dropWhile (· = '0') = ys at *
  rcases Nat.lt_trichotomy xs.length ys.length with shorter | same | longer
  · rw [Nat.compare_eq_lt.mpr shorter,
      Nat.compare_eq_lt.mpr (number_lt_of_shorter rest rest' first' shorter)]
    rfl
  · rw [Nat.compare_eq_eq.mpr same, ← compareChars_number same rest rest']
    rfl
  · rw [Nat.compare_eq_gt.mpr longer,
      Nat.compare_eq_gt.mpr (number_lt_of_shorter rest' rest first longer)]
    rfl

/-! Lines. -/

/-- A run that is next to no character of its kind is a chunk. -/
theorem MaximalRun.chunks_eq (maximal : MaximalRun digits before run after) :
    chunks (before ++ run ++ after) = chunks before ++ run :: chunks after := by
  obtain ⟨nonempty, inside, begins, ends⟩ := maximal
  have apart : ∀ c ∈ run.getLast?, ∀ d ∈ after.head?, c.isDigit ≠ d.isDigit := by
    intro c last d first
    rw [inside c (List.mem_of_getLast? last), ends d first]
    simp
  have apart' : ∀ c ∈ before.getLast?, ∀ d ∈ (run ++ after).head?, c.isDigit ≠ d.isDigit := by
    intro c last d first
    rw [List.head?_append_of_ne_nil _ nonempty] at first
    rw [begins c last, inside d (List.mem_of_mem_head? first)]
    simp
  rw [List.append_assoc, chunks_append apart', chunks_append apart, chunks_run nonempty inside]
  rfl

theorem compareChunks_append (runs xs ys : List (List Char)) :
    compareChunks (runs ++ xs) (runs ++ ys) = compareChunks xs ys := by
  induction runs with
  | nil => rfl
  | cons run runs ih =>
    unfold compareChunks at ih ⊢
    have self : compareChunk run run = .eq := Std.ReflCmp.compare_self
    rw [List.cons_append, List.cons_append, List.compareLex_cons_cons, self, ih]
    rfl

theorem isNumber_of_digits (nonempty : run ≠ []) (digits : ∀ c ∈ run, c.isDigit = true) :
    isNumber run = true := by
  obtain ⟨c, rest, rfl⟩ := List.exists_cons_of_ne_nil nonempty
  exact digits c List.mem_cons_self

/-- Of two texts that are the same before a run of digits in each, the runs decide, and then
what comes after them. -/
theorem compareChunks_number {after' : List Char} (maximal : MaximalRun true before xs after)
    (maximal' : MaximalRun true before ys after') :
    compareChunks (chunks (before ++ xs ++ after)) (chunks (before ++ ys ++ after')) =
      (compare (number xs) (number ys)).then (compareChunks (chunks after) (chunks after')) := by
  have runs : compareChunk xs ys = compare (number xs) (number ys) := by
    rw [compareChunk, isNumber_of_digits maximal.nonempty maximal.inside,
      isNumber_of_digits maximal'.nonempty maximal'.inside, Bool.and_self, if_pos rfl,
      compareDigits_number maximal.inside maximal'.inside]
  rw [maximal.chunks_eq, maximal'.chunks_eq, compareChunks_append, ← runs]
  exact List.compareLex_cons_cons

/-- The chunks of a text are the text, cut into runs of digits and of other characters by
turns: none is empty, next to none is a character of its kind, and this is the only such cut.
Runs of digits compare as the numbers that they denote, however long they are and whatever
zeros are before them, and so they decide between texts that are the same up to them. -/
theorem digit_runs_compare_by_value :
    (∀ cs : List Char,
      (chunks cs).flatten = cs ∧ [] ∉ chunks cs ∧ (∃ digits, Alternating digits (chunks cs)) ∧
      (∀ earlier run later, chunks cs = earlier ++ run :: later →
        ∃ digits, MaximalRun digits earlier.flatten run later.flatten) ∧
      ∀ digits runs, Alternating digits runs → runs.flatten = cs → runs = chunks cs) ∧
    (∀ xs ys : List Char, (∀ c ∈ xs, c.isDigit = true) → (∀ c ∈ ys, c.isDigit = true) →
      compareDigits xs ys = compare (number xs) (number ys)) ∧
    ∀ before xs after ys after' : List Char,
      MaximalRun true before xs after → MaximalRun true before ys after' →
      compareChunks (chunks (before ++ xs ++ after)) (chunks (before ++ ys ++ after')) =
        (compare (number xs) (number ys)).then (compareChunks (chunks after) (chunks after')) := by
  refine ⟨fun cs => ?_, ?_, ?_⟩
  · obtain ⟨digits, turns⟩ := alternating_chunks cs
    refine ⟨flatten_chunks cs, nil_not_mem_chunks cs, ⟨digits, turns⟩, ?_, ?_⟩
    · intro earlier run later cut
      rw [cut] at turns
      exact turns.maximal
    · rintro digits runs turns' rfl
      exact turns'.chunks_flatten.symm
  · exact fun xs ys digits digits' => compareDigits_number digits digits'
  · exact fun before xs after ys after' maximal maximal' => compareChunks_number maximal maximal'

/-- Two runs of digits for numbers that no word of 64 bits holds. Their last digits differ,
and the zeros before one of them do not count. -/
theorem long_runs_compared :
    (chunks "a007b".toList = [['a']] ++ ['0', '0', '7'] :: [['b']] ∧
      Alternating false [['a'], ['0', '0', '7'], ['b']] ∧
      MaximalRun true ['a'] "0018446744073709551616".toList ['b'] ∧
      MaximalRun true ['a'] "18446744073709551617".toList []) ∧
    (∃ digits, MaximalRun digits ['a'] ['0', '0', '7'] ['b']) ∧
    [['a'], ['0', '0', '7'], ['b']] = chunks "a007b".toList ∧
    compareDigits "0018446744073709551616".toList "18446744073709551617".toList = .lt ∧
    compareChunks (chunks (['a'] ++ "0018446744073709551616".toList ++ ['b']))
      (chunks (['a'] ++ "18446744073709551617".toList ++ [])) = .lt := by
  obtain ⟨cut, value, lines⟩ := digit_runs_compare_by_value
  obtain ⟨-, -, -, maximal, only⟩ := cut "a007b".toList
  have parts : chunks "a007b".toList = [['a']] ++ ['0', '0', '7'] :: [['b']] := by decide +kernel
  have turns : Alternating false [['a'], ['0', '0', '7'], ['b']] :=
    .run (by simp) (by simp) (.run (by simp) (by simp) (.run (by simp) (by simp) .done))
  have first : MaximalRun true ['a'] "0018446744073709551616".toList ['b'] :=
    ⟨by simp, List.all_eq_true.mp (by decide +kernel), by simp, by simp⟩
  have second : MaximalRun true ['a'] "18446744073709551617".toList [] :=
    ⟨by simp, List.all_eq_true.mp (by decide +kernel), by simp, by simp⟩
  have less : compare (number "0018446744073709551616".toList)
      (number "18446744073709551617".toList) = .lt := by decide +kernel
  refine ⟨⟨parts, turns, first, second⟩, maximal _ _ _ parts, only _ _ turns rfl, ?_, ?_⟩
  · exact (value _ _ first.inside second.inside).trans less
  · rw [lines _ _ _ _ _ first second, less]
    rfl

end LineShell.DigitRuns
