import LineShell.Application.Wc
import LineShell.Proofs.CopiedInputs
import Mathlib.Data.Nat.Count
import Mathlib.Data.Set.Card

/-! Counts of inputs that are joined. Lines and bytes add up. A word that ends one input
goes on in the next if this begins within a word, and then the two are one. Words are the
maximal runs of bytes that are not blanks, and each of them has one last byte, so there are
as many words as bytes at which one ends. -/
namespace LineShell.FusedWords
open CopiedInputs EchoLine PipeIntoCat ReadOperands StepAgreement Text Wc

/-- A byte, if there is one, that is part of a word. -/
def inWord (b? : Option UInt8) : Bool := b?.any (!Wc.isBlank ·)

/-- The bytes `first` to `last` are a run of bytes in words that no other byte is next to. -/
structure MaximalRun (bs : Bytes) (first last : Nat) : Prop where
  ordered : first ≤ last
  inside : ∀ i, first ≤ i → i ≤ last → inWord bs[i]? = true
  begins : first = 0 ∨ inWord bs[first - 1]? = false
  ends : inWord bs[last + 1]? = false

/-- A word goes on from one input to another. -/
def Fuses (first second : Bytes) : Prop :=
  inWord first.getLast? = true ∧ inWord second.head? = true

instance (first second : Bytes) : Decidable (Fuses first second) :=
  inferInstanceAs (Decidable (_ ∧ _))

/-- The number of inputs with a word that goes on in those that follow. -/
def fusions : List Bytes → Nat
  | [] => 0
  | bs :: rest => fusions rest + if Fuses bs rest.flatten then 1 else 0

variable {bs : Bytes} {inputs : List Bytes} {names : List String}

/-! Words. -/

/-- A byte adds a word if it is in one that does not go on in the next byte. -/
theorem words_cons (b : UInt8) (bs : Bytes) :
    (count (b :: bs)).words =
      (count bs).words + if inWord (some b) = true ∧ inWord bs.head? = false then 1 else 0 := by
  cases blank : Wc.isBlank b with
  | true => simp [count, inWord, splitWhere_cons_sep bs blank, blank]
  | false =>
    cases bs with
    | nil => simp [count, inWord, splitWhere_cons_other [] blank, splitWhere_nil, blank]
    | cons c cs =>
      cases next : Wc.isBlank c with
      | true =>
        simp [count, inWord, splitWhere_cons_other _ blank, splitWhere_cons_sep _ next, blank, next]
      | false =>
        obtain ⟨segment, later, cut⟩ := List.exists_cons_of_ne_nil (splitWhere_ne_nil Wc.isBlank cs)
        simp [count, inWord, splitWhere_cons_other _ blank, splitWhere_cons_other _ next, blank,
          next, cut]

/-- There are as many words as bytes at which a word ends. -/
theorem words_eq_count (bs : Bytes) :
    (count bs).words =
      Nat.count (fun i => inWord bs[i]? = true ∧ inWord bs[i + 1]? = false) bs.length := by
  induction bs with
  | nil => rfl
  | cons b bs ih =>
    rw [words_cons, ih, List.length_cons, Nat.count_succ']
    simp only [List.getElem?_cons_succ, List.getElem?_cons_zero, List.head?_eq_getElem?,
      Nat.zero_add]

/-- A byte in a word is in a run that goes back to where the word begins. -/
theorem exists_begin (bs : Bytes) (i : Nat) (here : inWord bs[i]? = true) :
    ∃ first ≤ i, (∀ j, first ≤ j → j ≤ i → inWord bs[j]? = true) ∧
      (first = 0 ∨ inWord bs[first - 1]? = false) := by
  induction i with
  | zero =>
    refine ⟨0, Nat.le_refl 0, fun j _ low => ?_, .inl rfl⟩
    rwa [Nat.le_zero.mp low]
  | succ i ih =>
    cases before : inWord bs[i]? with
    | false =>
      refine ⟨i + 1, Nat.le_refl _, fun j low high => ?_, .inr before⟩
      rwa [Nat.le_antisymm high low]
    | true =>
      obtain ⟨first, low, inside, begins⟩ := ih before
      refine ⟨first, Nat.le_succ_of_le low, fun j later upto => ?_, begins⟩
      rcases Nat.lt_or_eq_of_le upto with less | rfl
      · exact inside j later (Nat.le_of_lt_succ less)
      · exact here

/-- Runs that end together begin together. -/
theorem MaximalRun.first_le {first first' last : Nat} (run : MaximalRun bs first last)
    (other : MaximalRun bs first' last) : first ≤ first' := by
  by_contra later
  have ordered := run.ordered
  have before := other.inside (first - 1) (by omega) (by omega)
  rcases run.begins with zero | blank
  · omega
  · rw [before] at blank
    cases blank

/-- There are as many words as maximal runs of bytes that are not blanks. -/
theorem encard_runs (bs : Bytes) :
    {run : Nat × Nat | MaximalRun bs run.1 run.2}.encard = (count bs).words := by
  have apart : Set.InjOn Prod.snd {run : Nat × Nat | MaximalRun bs run.1 run.2} := by
    rintro ⟨first, last⟩ run ⟨first', last'⟩ other (rfl : last = last')
    have same : first = first' := Nat.le_antisymm (run.first_le other) (other.first_le run)
    rw [same]
  have lasts : Prod.snd '' {run : Nat × Nat | MaximalRun bs run.1 run.2} =
      ↑((Finset.range bs.length).filter fun i =>
        inWord bs[i]? = true ∧ inWord bs[i + 1]? = false) := by
    ext last
    simp only [Set.mem_image, Set.mem_ofPred_eq, Prod.exists, exists_eq_right, Finset.coe_filter,
      Finset.mem_range]
    constructor
    · rintro ⟨first, run⟩
      have here := run.inside last run.ordered (Nat.le_refl last)
      refine ⟨?_, here, run.ends⟩
      by_contra beyond
      rw [List.getElem?_eq_none (Nat.le_of_not_lt beyond)] at here
      cases here
    · rintro ⟨-, here, ends⟩
      obtain ⟨first, ordered, inside, begins⟩ := exists_begin bs last here
      exact ⟨first, ordered, inside, begins, ends⟩
  rw [← apart.encard_image, lasts, Set.encard_coe_eq_coe_finsetCard, words_eq_count,
    Nat.count_eq_card_filter_range]

/-! Joined inputs. -/

theorem words_append (first second : Bytes) :
    (count (first ++ second)).words + (if Fuses first second then 1 else 0) =
      (count first).words + (count second).words := by
  induction first with
  | nil => simp [Fuses, inWord, count, splitWhere_nil]
  | cons b first ih =>
    cases first with
    | nil =>
      rw [List.singleton_append, words_cons, words_cons b []]
      have alone : (count []).words = 0 := rfl
      have before : inWord [].head? = false := rfl
      by_cases here : inWord (some b) = true <;> by_cases next : inWord second.head? = true <;>
        simp only [Fuses, List.getLast?_singleton, alone, before, here, next] <;> simp <;> omega
    | cons c first =>
      have same : Fuses (b :: c :: first) second ↔ Fuses (c :: first) second := by
        rw [Fuses, List.getLast?_cons_cons, Fuses]
      -- A word ends at the first byte with what follows just if it does without.
      obtain ⟨extra, whole, alone⟩ : ∃ extra,
          (count (b :: c :: (first ++ second))).words =
            (count (c :: (first ++ second))).words + extra ∧
          (count (b :: c :: first)).words = (count (c :: first)).words + extra :=
        ⟨_, words_cons b (c :: (first ++ second)), words_cons b (c :: first)⟩
      simp only [List.cons_append, same, whole, alone] at ih ⊢
      omega

theorem lines_append (first second : Bytes) :
    (count (first ++ second)).lines = (count first).lines + (count second).lines :=
  List.countP_append

theorem bytes_append (first second : Bytes) :
    (count (first ++ second)).bytes = (count first).bytes + (count second).bytes :=
  List.length_append

/-- The total of several inputs counts their lines and bytes joined, and every word that
goes on from one to another once more. -/
theorem total_eq (sum : Counts) (inputs : List Bytes) :
    inputs.foldl (fun sum bs => sum.add (count bs)) sum =
      sum.add ⟨(count inputs.flatten).lines, (count inputs.flatten).words + fusions inputs,
        (count inputs.flatten).bytes⟩ := by
  induction inputs generalizing sum with
  | nil => rfl
  | cons bs inputs ih =>
    have words := words_append bs inputs.flatten
    rw [List.foldl_cons, ih, List.flatten_cons]
    simp only [Counts.add, fusions, lines_append, bytes_append, Counts.mk.injEq]
    omega

/-! The run. -/

/-- What an operand gives that could be read. -/
def given (file : String × Bytes) : Job.Reading := ⟨file.1, .ok file.2⟩

/-- Files that can be read give what they hold. -/
theorem start_tryOperands {s : Session} (files : FilesHold s.disk s.cwd names inputs) :
    (Job.tryOperands names).start s = some (.ok ((names.zip inputs).map given), s) := by
  induction files with
  | nil => rfl
  | cons here _ ih =>
    have read := start_readOperand_file here.1 here.2
    simp only [Job.tryOperands, start_bind, start_attempt, read, ih, start_pure, Option.map]
    rfl

theorem counted_given (files : List (String × Bytes)) :
    counted (files.map given) = files.map fun file => (file.1, count file.2) := by
  rw [counted, List.filterMap_map]
  exact congrFun List.filterMap_eq_map files

theorem firstComplaint?_given (files : List (String × Bytes)) :
    Job.firstComplaint? ((files.map given).map (·.result)) = none := by
  induction files with
  | nil => rfl
  | cons file files ih => exact ih

/-- Several files get a row each, and one for the total of their counts. -/
theorem prints_total {args : List String} {o : Options} {s : Session}
    (parsed : Options.parse "clw".toList args = .ok o) (several : 2 ≤ o.operands.length)
    (files : FilesHold s.disk s.cwd o.operands inputs) :
    PrintsLines (Wc.run args) s s.input
      ((o.operands.zip inputs).map (fun file => (columns o).row (count file.2) (some file.1)) ++
        [(columns o).row (inputs.foldl (fun sum bs => sum.add (count bs)) ⟨0, 0, 0⟩)
          (some "total")]) := by
  have filled : o.operands.isEmpty = false := by
    rw [List.isEmpty_eq_false_iff]
    exact List.ne_nil_of_length_pos (Nat.lt_of_lt_of_le Nat.zero_lt_two several)
  have inputsOf : (o.operands.zip inputs).map Prod.snd = inputs :=
    List.map_snd_zip (Nat.le_of_eq files.length_eq.symm)
  have total (sum : Counts) :
      inputs.foldl (fun sum bs => sum.add (count bs)) sum =
        (o.operands.zip inputs).foldl (fun sum file => sum.add (count file.2)) sum := by
    conv_lhs => rw [← inputsOf, List.foldl_map]
  have totals : 1 < o.operands.length := several
  apply printsLines_of_start
  simp only [Wc.run, start_bind, start_options parsed, filled, Bool.false_eq_true, if_false,
    start_tryOperands files, counted_given, firstComplaint?_given, if_pos totals, List.foldl_map,
    total]
  rw [List.map_map]
  rfl

/-- Counts of two inputs joined are the sums of their counts, but for one word less if a word
goes on from one to the other. Words are the maximal runs of bytes that are not blanks. So
the total for two files or more, in the columns that the flags ask for, counts the lines and
the bytes that `cat` writes of these files, and more words than `cat` writes by the number of
files with a word that goes on in those that follow. -/
theorem total_counts_joined_files :
    (∀ first second : Bytes,
      (count (first ++ second)).lines = (count first).lines + (count second).lines ∧
      (count (first ++ second)).bytes = (count first).bytes + (count second).bytes ∧
      (count (first ++ second)).words + (if Fuses first second then 1 else 0) =
        (count first).words + (count second).words) ∧
    (∀ bs : Bytes, {run : Nat × Nat | MaximalRun bs run.1 run.2}.encard = (count bs).words) ∧
    ∀ (args catArgs : List String) (o catO : Options) (s : Session) (inputs : List Bytes),
      Options.parse "clw".toList args = .ok o → 2 ≤ o.operands.length →
      FilesHold s.disk s.cwd o.operands inputs →
      Options.parse "n".toList catArgs = .ok catO → catO.has 'n' = false →
      catO.operands = o.operands →
      (∀ p, Unlimited p → s.output = .outlet p → (Cat.run catArgs).start s =
        some (.ok .proceed, { s with output := .outlet (fed p inputs.flatten) })) ∧
      PrintsLines (Wc.run args) s s.input
        ((o.operands.zip inputs).map (fun file => (columns o).row (count file.2) (some file.1)) ++
          [(columns o).row
            ⟨(count inputs.flatten).lines, (count inputs.flatten).words + fusions inputs,
              (count inputs.flatten).bytes⟩ (some "total")]) := by
  refine ⟨fun first second => ?_, encard_runs, ?_⟩
  · exact ⟨lines_append first second, bytes_append first second, words_append first second⟩
  · intro args catArgs o catO s inputs parsed several files catParsed plain operands
    refine ⟨fun p unlimited output => ?_, ?_⟩
    · have nonempty : o.operands ≠ [] :=
        List.ne_nil_of_length_pos (Nat.lt_of_lt_of_le Nat.zero_lt_two several)
      exact start_cat_files unlimited output catParsed plain operands nonempty files
    · have printed := prints_total parsed several files
      rw [total_eq] at printed
      simpa only [Counts.add, Nat.zero_add] using printed

/-- A session with files of `a b`, of nothing, and of `c` and a line feed. -/
def pieces : Session where
  disk := { entries := [(["f"], .file 0), (["g"], .file 1), (["h"], .file 2)]
            contents := [Text.bytes "a b", [], Text.bytes "c\n"] }

/-- Three words in files, of which the last two are one word when the files are joined. -/
theorem three_words_of_two_joined :
    (Options.parse "clw".toList ["-w", "f", "g", "h"] = .ok ⟨['w'], ["f", "g", "h"]⟩ ∧
      FilesHold pieces.disk pieces.cwd ["f", "g", "h"] [Text.bytes "a b", [], Text.bytes "c\n"] ∧
      Options.parse "n".toList ["f", "g", "h"] = .ok ⟨[], ["f", "g", "h"]⟩) ∧
    (count (Text.bytes "a bc\n")).words = 2 ∧
    PrintsLines (Wc.run ["-w", "f", "g", "h"]) pieces pieces.input
      ["\t2 f", "\t0 g", "\t1 h", "\t3 total"] := by
  have parsed : Options.parse "clw".toList ["-w", "f", "g", "h"] =
      .ok ⟨['w'], ["f", "g", "h"]⟩ := by
    decide +kernel
  have catParsed : Options.parse "n".toList ["f", "g", "h"] = .ok ⟨[], ["f", "g", "h"]⟩ := by
    decide +kernel
  have files : FilesHold pieces.disk pieces.cwd ["f", "g", "h"]
      [Text.bytes "a b", [], Text.bytes "c\n"] := by
    repeat' constructor
    all_goals decide +kernel
  obtain ⟨-, printed⟩ := total_counts_joined_files.2.2 _ _ _ _ pieces _ parsed
    (by decide) files catParsed rfl rfl
  have rows : (["f", "g", "h"].zip [Text.bytes "a b", [], Text.bytes "c\n"]).map (fun file =>
      (columns ⟨['w'], ["f", "g", "h"]⟩).row (count file.2) (some file.1)) =
      ["\t2 f", "\t0 g", "\t1 h"] := by
    decide +kernel
  have total : (columns ⟨['w'], ["f", "g", "h"]⟩).row
      ⟨(count [Text.bytes "a b", [], Text.bytes "c\n"].flatten).lines,
        (count [Text.bytes "a b", [], Text.bytes "c\n"].flatten).words +
          fusions [Text.bytes "a b", [], Text.bytes "c\n"],
        (count [Text.bytes "a b", [], Text.bytes "c\n"].flatten).bytes⟩ (some "total") =
      "\t3 total" := by
    decide +kernel
  rw [rows, total] at printed
  exact ⟨⟨parsed, files, catParsed⟩, by decide +kernel, printed⟩

end LineShell.FusedWords
