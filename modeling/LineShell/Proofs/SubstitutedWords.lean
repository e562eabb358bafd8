import LineShell.Proofs.EchoLine
import LineShell.Proofs.SubstitutionFree

/-! A token that is one substitution. Its words are those of the output, and line
endings in the output only separate words, so nothing depends on how they are
tidied up. -/
namespace LineShell.SubstitutedWords
open Text LineRoundTrip EchoLine SubstitutionFree

/-! Words of an output. -/

variable {b c : Char} {xs ys cs : List Char}

/-- Words on both sides of a blank are found apart from each other. -/
theorem blankWords_append_blank (blank : isBlank b = true) :
    blankWords (xs ++ b :: ys) = blankWords xs ++ blankWords ys := by
  rw [blankWords, splitWhere_append_sep xs ys blank, List.filter_append]
  rfl

theorem blankWords_cons_blank (blank : isBlank b = true) :
    blankWords (b :: ys) = blankWords ys := by
  rw [← List.nil_append (b :: ys), blankWords_append_blank blank]
  rfl

theorem blankWords_concat_blank (blank : isBlank b = true) :
    blankWords (xs ++ [b]) = blankWords xs :=
  (blankWords_append_blank blank).trans (List.append_nil _)

/-- One character of an output, put before the rest as words see it; the mark
says that the rest begins with a line feed. -/
def joinLine (c : Char) (rest : List Char × Bool) : List Char × Bool :=
  if c = '\n' then (' ' :: rest.1, true)
  else if c = '\r' && rest.2 then (rest.1, false)
  else (c :: rest.1, false)

theorem head?_of_mark (feed : (cs.foldr joinLine ([], false)).2 = true) : cs.head? = some '\n' := by
  cases cs with
  | nil => cases feed
  | cons c cs =>
    simp only [List.foldr_cons, joinLine] at feed
    split at feed
    · next same => rw [same]; rfl
    · split at feed <;> cases feed

/-- Behind any text, the words stay the same. -/
theorem blankWords_joinLines (before cs : List Char) :
    blankWords (before ++ (cs.foldr joinLine ([], false)).1) = blankWords (before ++ cs) := by
  induction cs generalizing before with
  | nil => rfl
  | cons c cs ih =>
    simp only [List.foldr_cons, joinLine]
    split
    · next feed =>
      rw [feed, blankWords_append_blank (by decide), blankWords_append_blank (by decide)]
      exact congrArg _ (ih [])
    · split
      · next pair =>
        -- the return goes, but the line feed after it separates the same words
        simp only [Bool.and_eq_true, decide_eq_true_eq] at pair
        obtain ⟨rest, rfl⟩ := List.head?_eq_some_iff.mp (head?_of_mark pair.2)
        rw [ih, pair.1, blankWords_append_blank (by decide), blankWords_append_blank (by decide),
          blankWords_cons_blank (by decide)]
      · have joined := ih (before ++ [c])
        simpa only [List.append_assoc, List.singleton_append] using joined

/-- The words of an output do not depend on its line endings. -/
theorem blankWords_tidy (output : List Char) :
    blankWords (Word.tidy output) = blankWords output := by
  have body (cs : List Char) : blankWords (cs.foldr joinLine ([], false)).1 = blankWords cs :=
    blankWords_joinLines [] cs
  unfold Word.tidy
  dsimp only
  refine (body _).trans ?_
  split
  · next feed =>
    obtain ⟨rest, rfl⟩ := List.getLast?_eq_some_iff.mp feed
    rw [List.dropLast_concat, blankWords_concat_blank (by decide)]
    split
    · next ret =>
      obtain ⟨start, rfl⟩ := List.getLast?_eq_some_iff.mp ret
      rw [List.dropLast_concat, blankWords_concat_blank (by decide)]
    · rfl
  · rfl

/-! The token. -/

/-- A text between back quotes. -/
def backQuoted (text : String) : String :=
  String.ofList (Quote.backMark :: (text.toList ++ [Quote.backMark]))

variable {text : String}

theorem after_back (free : Quote.backMark ∉ cs) : Quote.back.after cs = .back := by
  induction cs with
  | nil => rfl
  | cons c cs ih =>
    rw [List.mem_cons, not_or] at free
    simp only [Quote.after_cons, Quote.step, if_neg (Ne.symm free.1), ih free.2]

theorem mark_back (free : Quote.backMark ∉ cs) : ∀ m ∈ Quote.back.mark cs, m.1 = .back := by
  induction cs with
  | nil => simp [Quote.mark]
  | cons c cs ih =>
    rw [List.mem_cons, not_or] at free
    rw [Quote.mark, Quote.step, if_neg (Ne.symm free.1)]
    exact List.forall_mem_cons.mpr ⟨rfl, ih free.2⟩

/-- A substitution whose text opens no other one is one word of a line. -/
theorem isWord_backQuoted (free : BackFree text)
    (unbroken : ¬ ('\n' ∈ text.toList ∨ '\r' ∈ text.toList)) : IsWord (backQuoted text) where
  nonempty := fun none => by
    have chars : (backQuoted text).toList = [] := by rw [none]; rfl
    rw [backQuoted, String.toList_ofList] at chars
    cases chars
  unbroken := by
    have feed : '\n' ≠ Quote.backMark := by decide
    have ret : '\r' ≠ Quote.backMark := by decide
    simpa [backQuoted, feed, ret] using unbroken
  closed := by
    rw [backQuoted, String.toList_ofList, Quote.after_cons, Quote.after_append]
    change (Quote.back.after text.toList).after [Quote.backMark] = .plain
    rw [after_back free]
    rfl
  quoted := by
    rw [backQuoted, String.toList_ofList, Quote.mark, Quote.mark_append]
    refine List.forall_mem_cons.mpr ⟨fun _ => by decide, List.forall_mem_append.mpr ⟨?_, ?_⟩⟩
    · intro m inside plain
      rw [mark_back free m inside] at plain
      cases plain
    · change ∀ m ∈ (Quote.back.after text.toList).mark [Quote.backMark], _
      rw [after_back free]
      decide

section Expansion

variable {m : Type → Type} [Monad m] [MonadExceptOf Failure m] (run : String → m String)

/-- The scan gathers the text of a substitution and runs it at the end. -/
theorem scan_back (free : Quote.backMark ∉ cs) (command : List Char) (draft : Word.Draft) :
    Word.scan run .back command draft (cs ++ [Quote.backMark]) = (do
      let output ← run (String.ofList (command.reverse ++ cs))
      return draft.addWords (blankWords (Word.tidy output.toList))) := by
  induction cs generalizing command with
  | nil =>
    rw [List.append_nil]
    rfl
  | cons c cs ih =>
    rw [List.mem_cons, not_or] at free
    have gathered : Word.scan run .back command draft (c :: (cs ++ [Quote.backMark])) =
        Word.scan run .back (c :: command) draft (cs ++ [Quote.backMark]) := by
      simp [Word.scan, Quote.step, Ne.symm free.1, Quote.isBack]
    rw [List.cons_append, gathered, ih free.2]
    simp

/-- Words added to nothing are the words. -/
theorem words_addWords (words : List (List Char)) :
    (({} : Word.Draft).addWords words).words = words.map (·.map Symbol.lit) := by
  cases words with
  | nil => rfl
  | cons first others =>
    rw [Word.Draft.addWords, words_foldl_next rfl, words_addText]
    rfl

variable [LawfulMonad m] (glob : List Symbol → m (List String))

/-- The words of a substitution are those of its output. -/
theorem expandAll_backQuoted (free : BackFree text) :
    Word.expandAll run glob [backQuoted text] = (do
      let output ← run text
      return (blankWords output.toList).map String.ofList) := by
  have scanned : Word.scan run .plain [] {} (backQuoted text).toList = (do
      let output ← run text
      return ({} : Word.Draft).addWords (blankWords output.toList)) := by
    rw [backQuoted, String.toList_ofList]
    refine (scan_back run free [] {}).trans ?_
    simp only [List.reverse_nil, List.nil_append, String.ofList_toList, blankWords_tidy]
  simp only [Word.expandAll, Word.expand, scanned, bind_assoc, pure_bind, words_addWords,
    lookUp_literals, List.append_nil]

end Expansion

end LineShell.SubstitutedWords
