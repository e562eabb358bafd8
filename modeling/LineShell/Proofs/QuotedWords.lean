import LineShell.Proofs.EchoLine

/-! Any word can be written so that it is read back as it is: between single
quotes, and each single quote in it between double ones. Such a word passes
through every scanner of a line as one word, and what it stands for is settled
without a substitution and without the disk. -/
namespace LineShell.QuotedWords
open Text QuoteRegions LineRoundTrip StepAgreement EchoLine

/-- A character between single quotes. A single quote closes them, stands between
double ones and opens them again. -/
def escape (c : Char) : List Char :=
  if c = '\x27' then ['\x27', '\x22', '\x27', '\x22', '\x27'] else [c]

/-- A word between single quotes. -/
def quoted (word : String) : String :=
  String.ofList ('\x27' :: (word.toList.flatMap escape ++ ['\x27']))

/-- A text on one line. -/
def Unbroken (word : String) : Prop := ¬ ('\n' ∈ word.toList ∨ '\r' ∈ word.toList)

variable {c : Char} {cs : List Char} {word : String}

theorem after_escape (c : Char) : Quote.single.after (escape c) = .single := by
  unfold escape
  split
  · decide
  · simp [Quote.step, *]

theorem after_flatMap_escape (cs : List Char) :
    Quote.single.after (cs.flatMap escape) = .single := by
  induction cs with
  | nil => rfl
  | cons c cs ih => rw [List.flatMap_cons, Quote.after_append, after_escape, ih]

theorem after_quoted (word : String) : Quote.plain.after (quoted word).toList = .plain := by
  rw [quoted, String.toList_ofList, Quote.after_cons, Quote.after_append]
  change (Quote.single.after (word.toList.flatMap escape)).after ['\x27'] = .plain
  rw [after_flatMap_escape]
  rfl

/-- Outside the quotes only quotes are met. -/
def QuotesOnly (ms : List (Quote × Char)) : Prop :=
  ∀ m ∈ ms, m.1 = .plain → m.2 = '\x27' ∨ m.2 = '\x22'

theorem quotesOnly_escape (c : Char) : QuotesOnly (Quote.single.mark (escape c)) := by
  unfold QuotesOnly escape
  split
  · decide
  · intro m here plain
    rw [Quote.mark, Quote.mark, List.mem_singleton] at here
    rw [here] at plain
    cases plain

theorem quotesOnly_flatMap_escape (cs : List Char) :
    QuotesOnly (Quote.single.mark (cs.flatMap escape)) := by
  induction cs with
  | nil => simp [QuotesOnly, Quote.mark]
  | cons c cs ih =>
    rw [List.flatMap_cons, Quote.mark_append, after_escape]
    exact List.forall_mem_append.mpr ⟨quotesOnly_escape c, ih⟩

theorem quotesOnly_quoted (word : String) : QuotesOnly (Quote.plain.mark (quoted word).toList) := by
  rw [quoted, String.toList_ofList, Quote.mark, Quote.mark_append]
  refine List.forall_mem_cons.mpr ⟨fun _ => .inl rfl, List.forall_mem_append.mpr ⟨?_, ?_⟩⟩
  · exact quotesOnly_flatMap_escape word.toList
  · simp [Quote.mark]

theorem mem_quoted (inside : c ∈ (quoted word).toList) :
    c ∈ word.toList ∨ c = '\x27' ∨ c = '\x22' := by
  rw [quoted, String.toList_ofList, List.mem_cons, List.mem_append, List.mem_flatMap,
    List.mem_singleton] at inside
  rcases inside with rfl | ⟨d, inWord, inside⟩ | rfl
  · exact .inr (.inl rfl)
  · unfold escape at inside
    split at inside
    · simp only [List.mem_cons, List.not_mem_nil] at inside
      grind
    · rw [List.mem_singleton] at inside
      exact .inl (inside ▸ inWord)
  · exact .inr (.inl rfl)

/-- A quoted word is one word of a line. -/
theorem isWord_quoted (unbroken : Unbroken word) :
    IsWord (quoted word) where
  nonempty := fun none => by
    have text : (quoted word).toList = [] := by rw [none]; rfl
    rw [quoted, String.toList_ofList] at text
    cases text
  unbroken := fun broken => unbroken <| broken.imp
    (fun feed => (mem_quoted feed).resolve_right (by decide))
    (fun ret => (mem_quoted ret).resolve_right (by decide))
  closed := after_quoted word
  quoted := by
    intro m inside plain
    rcases quotesOnly_quoted word m inside plain with mark | mark <;> rw [mark] <;> decide

/-! What a quoted word stands for. -/

section Expansion

variable {m : Type → Type} [Monad m] [MonadExceptOf Failure m] (run : String → m String)

/-- The scan of an escaped character adds the character. -/
theorem scan_escape {draft : Word.Draft} (started : draft.started = true) (c : Char)
    (rest : List Char) :
    Word.scan run .single [] draft (escape c ++ rest) =
      Word.scan run .single [] (draft.add (.lit c)) rest := by
  obtain ⟨done, current, _⟩ := draft
  cases started
  unfold escape
  split
  · next same =>
    subst same
    -- out of the single quotes, into double ones for the character, and back
    simp [Word.scan, Quote.step, Quote.isBack, Quote.isPlain, Word.Draft.add, Word.Draft.touch,
      Quote.backMark]
  · next other => simp [Word.scan, Quote.step, other, Quote.isBack, Quote.isPlain]

theorem scan_flatMap_escape {draft : Word.Draft} (started : draft.started = true) (cs : List Char) :
    Word.scan run .single [] draft (cs.flatMap escape ++ ['\x27']) = pure (draft.addText cs) := by
  induction cs generalizing draft with
  | nil =>
    obtain ⟨done, current, _⟩ := draft
    cases started
    rfl
  | cons c cs ih =>
    rw [List.flatMap_cons, List.append_assoc, scan_escape run started, ih rfl]
    rfl

theorem scan_quoted (word : String) :
    Word.scan run .plain [] {} (quoted word).toList =
      pure (({} : Word.Draft).addText word.toList) := by
  rw [quoted, String.toList_ofList]
  exact scan_flatMap_escape run (show (({} : Word.Draft).touch).started = true from rfl) _

variable [LawfulMonad m] (glob : List Symbol → m (List String))

/-- Quoted words expand to the words, whatever substitution and look-up do. -/
theorem expandAll_quoted (words : List String) :
    Word.expandAll run glob (words.map quoted) = pure words := by
  induction words with
  | nil => rfl
  | cons word words ih =>
    have first : Word.expand run glob (quoted word) = pure [word] := by
      rw [expand_of_scan glob (scan_quoted run word), String.ofList_toList]
    simp [Word.expandAll, first, ih]

end Expansion

/-! Quoted words in a line. -/

theorem isWords_quoted {words : List String} (unbroken : ∀ word ∈ words, Unbroken word) :
    ∀ token ∈ words.map quoted, IsWord token := by
  simp only [List.forall_mem_map]
  exact fun word held => isWord_quoted (unbroken word held)

/-- Quoted words are one call, which opens nothing and whose words are the ones
that were quoted, whatever a substitution or the disk would give; and `echo`
writes them, whatever they hold. -/
theorem quoted_words_are_read_back (words : List String)
    (unbroken : ∀ word ∈ words, Unbroken word) :
    (words ≠ [] →
      Command.parse (join " " (words.map quoted)) = .ok (.sequence [.pipe [⟨words.map quoted⟩]])) ∧
    (∀ expand, Redirection.extract expand (words.map quoted) = pure { rest := words.map quoted }) ∧
    (∀ (m : Type → Type) [Monad m] [LawfulMonad m] [MonadExceptOf Failure m]
      (run : String → m String) (glob : List Symbol → m (List String)),
      Word.expandAll run glob (words.map quoted) = pure words) ∧
    ∀ (sh : Shell) (s : Session) (p : Outlet), .echo ∈ sh.applications → s.output = .outlet p →
      ∃ result s', (sh.evaluateLine (join " " ("echo" :: words.map quoted))).start s =
          some (result, s') ∧ s'.disk = s.disk ∧ s'.cwd = s.cwd ∧
        s'.output = .outlet (p.write (bytes (join " " words ++ "\n"))).1 ∧
        (Takes p (bytes (join " " words ++ "\n")) → result = .ok .proceed ∧
          s'.reports = s.reports ∧ s'.output.taken = p.taken ++ bytes (join " " words ++ "\n")) := by
  have isWords := isWords_quoted unbroken
  refine ⟨fun some => parse_words (by simpa using some) isWords,
    fun expand => extract_signless fun token held => redirect?_of_isWord (isWords token held),
    fun m _ _ _ run glob => expandAll_quoted run glob words, ?_⟩
  intro sh s p enabled output
  have expanded : (Word.expandAll (sh.substitute sh.levels) Shell.glob (words.map quoted)).start
      (opened s ⟨"echo" :: words.map quoted⟩) =
        some (.ok words, opened s ⟨"echo" :: words.map quoted⟩) := by
    rw [expandAll_quoted, start_pure]
  obtain ⟨result, reports, journal, ran, takes⟩ := line_echo enabled isWords expanded rfl output
  refine ⟨result, _, ran, rfl, rfl, rfl, fun able => ?_⟩
  obtain ⟨proceeds, silent⟩ := takes able
  exact ⟨proceeds, silent, (write_of_takes able).1⟩

/-- A quote, an empty word, and a word that would be a substitution, a wildcard
and a second command. -/
theorem quoted_quote_and_substitution_read_back :
    (∀ word ∈ ["it's", "", "`a` *;"], Unbroken word) ∧
      Command.parse (join " " (["it's", "", "`a` *;"].map quoted)) =
        .ok (.sequence [.pipe [⟨["'it'\"'\"'s'", "''", "'`a` *;'"]⟩]]) ∧
      ∃ s', (({} : Shell).evaluateLine (join " " ("echo" :: ["it's", "", "`a` *;"].map quoted))).start
          {} = some (.ok .proceed, s') ∧ s'.disk = {} ∧ s'.cwd = [] ∧ s'.reports = [] ∧
        s'.output.taken = bytes "it's  `a` *;\n" := by
  have unbroken : ∀ word ∈ ["it's", "", "`a` *;"], Unbroken word := by
    unfold Unbroken
    decide
  obtain ⟨parsed, -, -, line⟩ := quoted_words_are_read_back ["it's", "", "`a` *;"] unbroken
  obtain ⟨result, s', ran, disk, cwd, -, takes⟩ := line {} {} {} (by decide) rfl
  obtain ⟨rfl, silent, taken⟩ := takes ⟨nofun, rfl⟩
  have texts : ["it's", "", "`a` *;"].map quoted = ["'it'\"'\"'s'", "''", "'`a` *;'"] := by decide
  have joined : join " " ["it's", "", "`a` *;"] ++ "\n" = "it's  `a` *;\n" := by decide
  rw [joined] at taken
  refine ⟨unbroken, ?_, s', ran, disk, cwd, silent, taken⟩
  rw [parsed (by simp), texts]

end LineShell.QuotedWords
