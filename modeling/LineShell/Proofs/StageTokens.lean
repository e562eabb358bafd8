import LineShell.Proofs.QuoteRegions

/-! The tokens of a stage, described without the cutter: a stage is blanks,
redirection signs and words, and a word ends only at a blank, at a sign or with
the stage. The cutter finds exactly these tokens, and it fails only on a stage
that leaves a quote open. -/
namespace LineShell.StageTokens
open Text QuoteRegions

/-- The plain characters that end a word. -/
def separates (c : Char) : Bool := isBlank c || c = '<' || c = '>'

/-- A stage and the tokens that it spells. Of two signs `>` side by side both
belong to one token. -/
inductive Spells : List Char → List (List Char) → Prop where
  | done : Spells [] []
  | blank {c cs tokens} (blank : isBlank c = true) (rest : Spells cs tokens) :
      Spells (c :: cs) tokens
  | input {cs tokens} (rest : Spells cs tokens) : Spells ('<' :: cs) (['<'] :: tokens)
  | output {cs tokens} (single : cs.head? ≠ some '>') (rest : Spells cs tokens) :
      Spells ('>' :: cs) (['>'] :: tokens)
  | append {cs tokens} (rest : Spells cs tokens) :
      Spells ('>' :: '>' :: cs) (['>', '>'] :: tokens)
  | word {word cs tokens} (text : word ≠ []) (seamless : Seamless separates word)
      (ends : ∀ c ∈ cs.head?, separates c = true) (rest : Spells cs tokens) :
      Spells (word ++ cs) (word :: tokens)

variable {q : Quote} {c : Char} {word cs rest : List Char} {tokens later : List (List Char)}

theorem step_of_separates (here : separates c = true) : Quote.plain.step c = .plain := by
  have mark (d : Char) (not : separates d = false) : c ≠ d := fun same => by
    rw [same, not] at here; cases here
  simp [Quote.step, mark '\x27' (by decide), mark '\x22' (by decide),
    mark Quote.backMark (by decide)]

/-! One equation for each thing that the cutter can meet. -/

theorem cut_other (other : atPlain separates (q, c) = false) :
    Token.cut q word (c :: rest) = Token.cut (q.step c) (c :: word) rest := by
  simp only [atPlain, separates, Bool.and_eq_false_iff, Bool.or_eq_false_iff] at other
  rcases other with other | ⟨⟨notBlank, notInput⟩, notOutput⟩
  · rw [Token.cut.eq_def]
    simp [other]
  · rw [Token.cut.eq_def]
    simp [notBlank, notInput, notOutput]

theorem cut_blank (blank : isBlank c = true) :
    Token.cut .plain word (c :: rest) = (Token.close word ·) <$> Token.cut .plain [] rest := by
  rw [Token.cut.eq_def]
  simp [Quote.isPlain, blank]

theorem cut_input :
    Token.cut .plain word ('<' :: rest) =
      (fun later => Token.close word (['<'] :: later)) <$> Token.cut .plain [] rest := by
  have notBlank : isBlank '<' = false := by decide
  rw [Token.cut.eq_def]
  simp [Quote.isPlain, notBlank]

theorem cut_append :
    Token.cut .plain word ('>' :: '>' :: rest) =
      (fun later => Token.close word (['>', '>'] :: later)) <$> Token.cut .plain [] rest := by
  have notBlank : isBlank '>' = false := by decide
  simp [Token.cut, Quote.isPlain, notBlank]

theorem cut_output (single : rest.head? ≠ some '>') :
    Token.cut .plain word ('>' :: rest) =
      (fun later => Token.close word (['>'] :: later)) <$> Token.cut .plain [] rest := by
  have notBlank : isBlank '>' = false := by decide
  cases rest with
  | nil => rfl
  | cons d rest =>
    have other : d ≠ '>' := fun same => single (by simp [same])
    rw [Token.cut]
    simp [Quote.isPlain, notBlank, other]

/-- What the cutter can meet in plain text that ends the word being read. -/
theorem separates_cases (rest : List Char) (here : separates c = true) :
    isBlank c = true ∨ c = '<' ∨ (c = '>' ∧ rest.head? ≠ some '>') ∨
      (c = '>' ∧ ∃ rest', rest = '>' :: rest') := by
  simp only [separates, Bool.or_eq_true, decide_eq_true_eq] at here
  rcases here with (blank | input) | output
  · exact .inl blank
  · exact .inr (.inl input)
  · by_cases single : rest.head? = some '>'
    · obtain ⟨rest', same⟩ := List.head?_eq_some_iff.mp single
      exact .inr (.inr (.inr ⟨output, rest', same⟩))
    · exact .inr (.inr (.inl ⟨output, single⟩))

/-- At a character that ends it the word being read comes before all that the
rest of the stage gives. -/
theorem cut_close (here : separates c = true) :
    Token.cut .plain word (c :: rest) =
      (Token.close word ·) <$> Token.cut .plain [] (c :: rest) := by
  rcases separates_cases rest here with blank | rfl | ⟨rfl, single⟩ | ⟨rfl, rest', rfl⟩
  · rw [cut_blank blank, cut_blank blank, Functor.map_map]
    rfl
  · rw [cut_input, cut_input, Functor.map_map]
    rfl
  · rw [cut_output single, cut_output single, Functor.map_map]
    rfl
  · rw [cut_append, cut_append, Functor.map_map]
    rfl

/-- Text without a plain separator joins the word being read. -/
theorem cut_text (text : List Char) (uncut : ∀ m ∈ q.mark text, atPlain separates m = false) :
    Token.cut q word (text ++ rest) = Token.cut (q.after text) (text.reverse ++ word) rest := by
  induction text generalizing q word with
  | nil => rfl
  | cons c text ih =>
    simp only [Quote.mark, List.forall_mem_cons] at uncut
    rw [List.cons_append, cut_other uncut.1, ih uncut.2]
    simp

/-- A finished word stands before the tokens of the rest; where no word was
begun the tokens of the rest are all. -/
private theorem Spells.close (seamless : Seamless separates word.reverse)
    (ends : ∀ c ∈ cs.head?, separates c = true) (rest : Spells cs later) :
    Spells (word.reverse ++ cs) (Token.close word later) := by
  cases word with
  | nil => simpa [Token.close] using rest
  | cons c word => simpa [Token.close] using Spells.word (by simp) seamless ends rest

theorem map_eq_ok_iff {α β ε : Type} {f : α → β} {r : Except ε α} {b : β} :
    f <$> r = .ok b ↔ ∃ a, r = .ok a ∧ b = f a := by
  cases r <;> simp [Functor.map, Except.map, eq_comm]

/-- The cutter's tokens are spelled by the stage. The word being read is text of
the stage as well, and `q` is the region that it ends in. -/
private theorem spells_of_cut (region : Quote.plain.after word.reverse = q)
    (uncut : Uncut separates word.reverse) (ran : Token.cut q word cs = .ok tokens) :
    Spells (word.reverse ++ cs) tokens := by
  induction length : cs.length using Nat.strongRecOn generalizing q word cs tokens with
  | ind size ih =>
  subst length
  cases cs with
  | nil =>
    rw [Token.cut] at ran
    split at ran
    · rename_i plain
      cases ran
      rw [isPlain_iff.mp plain] at region
      exact Spells.close ⟨region, uncut⟩ (by simp) .done
    · cases ran
  | cons c rest =>
    cases here : atPlain separates (q, c) with
    | false =>
      rw [cut_other here] at ran
      have wordMarks : Uncut separates (c :: word).reverse := by
        intro m member
        rw [List.reverse_cons, Quote.mark_append, region] at member
        rcases List.mem_append.mp member with member | member
        · exact uncut m member
        · rw [List.mem_singleton.mp member]
          exact here
      have wordRegion : Quote.plain.after (c :: word).reverse = q.step c := by
        rw [List.reverse_cons, Quote.after_append, region]
        rfl
      simpa using ih rest.length (by simp) wordRegion wordMarks ran rfl
    | true =>
      simp only [atPlain, Bool.and_eq_true, isPlain_iff] at here
      obtain ⟨rfl, here⟩ := here
      have seamless : Seamless separates word.reverse := ⟨region, uncut⟩
      have again {rest' : List Char} {later : List (List Char)}
          (shorter : rest'.length < (c :: rest).length)
          (ran : Token.cut .plain [] rest' = .ok later) : Spells rest' later :=
        @ih _ shorter .plain [] rest' later rfl seamless_nil.uncut ran rfl
      rw [cut_close here] at ran
      obtain ⟨found, cutHere, rfl⟩ := map_eq_ok_iff.mp ran
      refine Spells.close seamless (by simpa using here) ?_
      rcases separates_cases rest here with
        blank | rfl | ⟨rfl, single⟩ | ⟨rfl, rest', rfl⟩
      · rw [cut_blank blank] at cutHere
        obtain ⟨later, cutLater, rfl⟩ := map_eq_ok_iff.mp cutHere
        exact .blank blank (again (by simp) cutLater)
      · rw [cut_input] at cutHere
        obtain ⟨later, cutLater, rfl⟩ := map_eq_ok_iff.mp cutHere
        exact .input (again (by simp) cutLater)
      · rw [cut_output single] at cutHere
        obtain ⟨later, cutLater, rfl⟩ := map_eq_ok_iff.mp cutHere
        exact .output single (again (by simp) cutLater)
      · rw [cut_append] at cutHere
        obtain ⟨later, cutLater, rfl⟩ := map_eq_ok_iff.mp cutHere
        exact .append (again (by simp only [List.length_cons]; omega) cutLater)

private theorem cut_of_spells (spelled : Spells cs tokens) :
    Token.cut .plain [] cs = .ok tokens := by
  induction spelled with
  | done => rfl
  | blank blank _ ih =>
    rw [cut_blank blank, ih]
    rfl
  | input _ ih =>
    rw [cut_input, ih]
    rfl
  | output single _ ih =>
    rw [cut_output single, ih]
    rfl
  | append _ ih =>
    rw [cut_append, ih]
    rfl
  | @word word cs tokens text seamless ends _ ih =>
    rw [cut_text word seamless.uncut, seamless.closed, List.append_nil]
    have closed : Token.close word.reverse tokens = word :: tokens := by
      simp [Token.close, text]
    cases cs with
    | nil =>
      rw [Token.cut, if_pos (by rfl), ← closed]
      rw [Token.cut, if_pos (by rfl), Except.ok.injEq] at ih
      rw [← ih]
      rfl
    | cons c cs =>
      rw [cut_close (ends c rfl), ih]
      exact congrArg Except.ok closed

/-- The cutter gives the tokens that the stage spells, and no others. -/
theorem cut_eq_ok_iff : Token.cut .plain [] cs = .ok tokens ↔ Spells cs tokens :=
  ⟨spells_of_cut rfl seamless_nil.uncut, cut_of_spells⟩

/-- A stage that closes its quotes is cut; any other one fails on the quote that
it leaves open. -/
theorem cut_result (q : Quote) (word cs : List Char) :
    if q.after cs = .plain then ∃ tokens, Token.cut q word cs = .ok tokens
    else Token.cut q word cs = .error (.unterminated (q.after cs)) := by
  induction length : cs.length using Nat.strongRecOn generalizing q word cs with
  | ind size ih =>
  subst length
  have mapped {f : List (List Char) → List (List Char)} {rest : List Char}
      (shorter : rest.length < cs.length) :
      if Quote.plain.after rest = .plain then ∃ tokens, f <$> Token.cut .plain [] rest = .ok tokens
      else f <$> Token.cut .plain [] rest = .error (.unterminated (Quote.plain.after rest)) := by
    have result := ih rest.length shorter .plain [] rest rfl
    split at result
    · obtain ⟨tokens, ran⟩ := result
      rw [if_pos (by assumption), ran]
      exact ⟨f tokens, rfl⟩
    · rw [if_neg (by assumption), result]
      rfl
  cases cs with
  | nil =>
    rw [Token.cut, Quote.after_nil]
    split
    · rename_i plain
      exact ⟨_, if_pos (isPlain_iff.mpr plain)⟩
    · rename_i open'
      exact if_neg fun plain => open' (isPlain_iff.mp plain)
  | cons c rest =>
    cases here : atPlain separates (q, c) with
    | false =>
      rw [cut_other here, Quote.after_cons]
      exact ih rest.length (by simp) _ _ rest rfl
    | true =>
      simp only [atPlain, Bool.and_eq_true, isPlain_iff] at here
      obtain ⟨rfl, here⟩ := here
      rw [Quote.after_cons, step_of_separates here]
      rcases separates_cases rest here with
        blank | rfl | ⟨rfl, single⟩ | ⟨rfl, rest', rfl⟩
      · rw [cut_blank blank]
        exact mapped (by simp)
      · rw [cut_input]
        exact mapped (by simp)
      · rw [cut_output single]
        exact mapped (by simp)
      · rw [cut_append, Quote.after_cons, step_of_separates here]
        exact mapped (by simp only [List.length_cons]; omega)

theorem tokenize_eq_ok_iff {stage : List Char} {tokens : List String} :
    tokenize stage = .ok tokens ↔ Spells stage (tokens.map String.toList) := by
  rw [← cut_eq_ok_iff]
  constructor
  · intro ran
    obtain ⟨found, cutStage, rfl⟩ := map_eq_ok_iff.mp ran
    simpa [Function.comp_def] using cutStage
  · intro ran
    simp [tokenize, ran, Functor.map, Except.map, Function.comp_def]

theorem tokenize_result (stage : List Char) :
    if Quote.plain.after stage = .plain then ∃ tokens, tokenize stage = .ok tokens
    else tokenize stage = .error (.unterminated (Quote.plain.after stage)) := by
  have result := cut_result .plain [] stage
  split at result
  · obtain ⟨tokens, ran⟩ := result
    rw [if_pos (by assumption), tokenize, ran]
    exact ⟨_, rfl⟩
  · rw [if_neg (by assumption), tokenize, result]
    rfl

/-- A redirection sign as it stands in a stage. -/
def IsSign (token : List Char) : Prop := token = ['<'] ∨ token = ['>'] ∨ token = ['>', '>']

/-- A redirection sign, or a word that no plain separator cuts. -/
def IsToken (token : List Char) : Prop := IsSign token ∨ (token ≠ [] ∧ Seamless separates token)

/-- Every token spelled is one. -/
theorem Spells.isToken (spelled : Spells cs tokens) : ∀ token ∈ tokens, IsToken token := by
  induction spelled with
  | done => simp
  | blank _ _ ih => exact ih
  | input _ ih => simpa [IsToken, IsSign] using ih
  | output _ _ ih => simpa [IsToken, IsSign] using ih
  | append _ ih => simpa [IsToken, IsSign] using ih
  | word text seamless _ _ ih => simpa [IsToken, text, seamless] using ih

/-- A stage is its blanks and its tokens: it holds every character of a token. -/
theorem Spells.mem (spelled : Spells cs tokens) :
    ∀ token ∈ tokens, ∀ c ∈ token, c ∈ cs := by
  induction spelled with
  | done => simp
  | blank _ _ ih => exact fun token member c inside => List.mem_cons_of_mem _ (ih token member c inside)
  | input _ ih | output _ _ ih =>
    intro token member c inside
    rcases List.mem_cons.mp member with rfl | member
    · rw [List.mem_singleton.mp inside]
      exact List.mem_cons_self
    · exact List.mem_cons_of_mem _ (ih token member c inside)
  | append _ ih =>
    intro token member c inside
    rcases List.mem_cons.mp member with rfl | member
    · simp_all
    · exact List.mem_cons_of_mem _ (List.mem_cons_of_mem _ (ih token member c inside))
  | word _ _ _ _ ih =>
    intro token member c inside
    rcases List.mem_cons.mp member with rfl | member
    · exact List.mem_append_left _ inside
    · exact List.mem_append_right _ (ih token member c inside)

/-- A plain character of a token is plain in the stage. -/
theorem Spells.uncut {p : Char → Bool} (spelled : Spells cs tokens) (whole : Uncut p cs) :
    ∀ token ∈ tokens, Uncut p token := by
  induction spelled with
  | done => simp
  | blank blank _ ih => exact ih (uncut_cons (step_of_separates (by simp [separates, blank])) whole)
  | input _ ih =>
    have parts := (uncut_append (show Quote.plain.after ['<'] = .plain by decide)).mp whole
    exact List.forall_mem_cons.mpr ⟨parts.1, ih parts.2⟩
  | output _ _ ih =>
    have parts := (uncut_append (show Quote.plain.after ['>'] = .plain by decide)).mp whole
    exact List.forall_mem_cons.mpr ⟨parts.1, ih parts.2⟩
  | append _ ih =>
    have parts := (uncut_append (show Quote.plain.after ['>', '>'] = .plain by decide)).mp whole
    exact List.forall_mem_cons.mpr ⟨parts.1, ih parts.2⟩
  | word _ seamless _ _ ih =>
    have parts := (uncut_append seamless.closed).mp whole
    exact List.forall_mem_cons.mpr ⟨parts.1, ih parts.2⟩

/-- Only a blank stage spells no token. -/
theorem Spells.allBlank (spelled : Spells cs []) : allBlank cs = true := by
  generalize none : [] = tokens at spelled
  induction spelled with
  | done => rfl
  | blank blank _ ih => simpa [Text.allBlank, blank] using ih none
  | _ => cases none

/-- A token begins with a character that is not blank. -/
theorem IsToken.not_blank {token : List Char} (isToken : IsToken token) :
    ∃ c rest, token = c :: rest ∧ isBlank c = false := by
  rcases isToken with (rfl | rfl | rfl) | ⟨text, seamless⟩
  · exact ⟨'<', [], rfl, by decide⟩
  · exact ⟨'>', [], rfl, by decide⟩
  · exact ⟨'>', ['>'], rfl, by decide⟩
  · obtain ⟨c, rest, rfl⟩ := List.exists_cons_of_ne_nil text
    have first := seamless.uncut (.plain, c) (by simp [Quote.mark])
    simp only [atPlain, separates, Quote.isPlain, decide_true, Bool.true_and,
      Bool.or_eq_false_iff] at first
    exact ⟨c, rest, rfl, first.1.1⟩

/-! Writing tokens down: with a space after each of them a stage spells the
tokens it is made of, and blanks around it do not matter. -/

theorem Spells.blanks (before : List Char) (blank : Text.allBlank before = true)
    (spelled : Spells cs tokens) : Spells (before ++ cs) tokens := by
  induction before with
  | nil => exact spelled
  | cons c before ih =>
    simp only [Text.allBlank, List.all_cons, Bool.and_eq_true] at blank
    exact .blank blank.1 (ih blank.2)

theorem Spells.token_cons {token : List Char} (isToken : IsToken token)
    (ends : ∀ c ∈ cs.head?, isBlank c = true) (spelled : Spells cs tokens) :
    Spells (token ++ cs) (token :: tokens) := by
  rcases isToken with (rfl | rfl | rfl) | ⟨text, seamless⟩
  · exact .input spelled
  · refine .output (fun next => ?_) spelled
    exact absurd (ends _ next) (by decide)
  · exact .append spelled
  · exact .word text seamless (fun c next => by simp [separates, ends c next]) spelled

/-- Tokens with a space between them, before any blanks. -/
theorem spells_joinWith (isTokens : ∀ token ∈ tokens, IsToken token) (after : List Char)
    (blank : Text.allBlank after = true) : Spells (joinWith [' '] tokens ++ after) tokens := by
  have trailing : Spells after [] := by simpa using Spells.done.blanks after blank
  have ends : ∀ c ∈ after.head?, isBlank c = true := by
    intro c first
    exact List.all_eq_true.mp blank c (List.mem_of_mem_head? first)
  induction tokens with
  | nil => exact trailing
  | cons token tokens ih =>
    obtain ⟨first, others⟩ := List.forall_mem_cons.mp isTokens
    cases tokens with
    | nil => simpa [joinWith] using Spells.token_cons first ends trailing
    | cons next tokens =>
      rw [joinWith_cons_cons, List.append_assoc]
      refine Spells.token_cons first ?_ (.blank (by decide) (ih others))
      intro c first
      cases first
      decide

end LineShell.StageTokens
