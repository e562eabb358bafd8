import LineShell.Proofs.LineLanguage

/-! Reading undoes writing. The trees that reading can give are described by
their tokens alone; each of them, written out and read again, comes back as it
was. -/
namespace LineShell.LineRoundTrip
open Text QuoteRegions StageTokens LineLanguage

/-- The characters that stand between words, and so in plain position in none. -/
def special (c : Char) : Bool := isBlank c || c = '<' || c = '>' || c = ';' || c = '|'

/-- A token that is read as one word: its quotes are closed, and a special
character stands in it only between quotes. -/
structure IsWord (token : String) : Prop where
  nonempty : token ≠ ""
  unbroken : ¬ ('\n' ∈ token.toList ∨ '\r' ∈ token.toList)
  closed : Quote.plain.after token.toList = .plain
  quoted : ∀ m ∈ Quote.plain.mark token.toList, m.1 = .plain → special m.2 = false

instance (token : String) : Decidable (IsWord token) :=
  decidable_of_iff (token ≠ "" ∧ ¬ ('\n' ∈ token.toList ∨ '\r' ∈ token.toList) ∧
      Quote.plain.after token.toList = .plain ∧
      ∀ m ∈ Quote.plain.mark token.toList, m.1 = .plain → special m.2 = false)
    ⟨fun ⟨nonempty, unbroken, closed, quoted⟩ => ⟨nonempty, unbroken, closed, quoted⟩,
      fun ⟨nonempty, unbroken, closed, quoted⟩ => ⟨nonempty, unbroken, closed, quoted⟩⟩

/-- A call with a token, and with signs and words only. -/
def WellFormedCall (call : Call) : Prop :=
  call.tokens ≠ [] ∧
    ∀ token ∈ call.tokens, token = "<" ∨ token = ">" ∨ token = ">>" ∨ IsWord token

/-- A pipe of at least one such call. -/
def WellFormedPipe (command : Command) : Prop :=
  ∃ calls, command = .pipe calls ∧ calls ≠ [] ∧ ∀ call ∈ calls, WellFormedCall call

/-- A sequence of such pipes, which may be empty. -/
def WellFormed (command : Command) : Prop :=
  ∃ commands, command = .sequence commands ∧ ∀ pipe ∈ commands, WellFormedPipe pipe

/-- The characters that end a stage. -/
def joins (c : Char) : Bool := c = ';' || c = '|'

theorem special_eq (c : Char) : special c = (separates c || joins c) := by
  simp [special, separates, joins, Bool.or_assoc]

theorem isWord_iff {token : String} :
    IsWord token ↔ token ≠ "" ∧ ¬ ('\n' ∈ token.toList ∨ '\r' ∈ token.toList) ∧
      Seamless separates token.toList ∧ Uncut joins token.toList := by
  have quoted_iff : (∀ m ∈ Quote.plain.mark token.toList, m.1 = .plain → special m.2 = false) ↔
      Uncut separates token.toList ∧ Uncut joins token.toList := by
    simp only [Uncut, ← forall_and, atPlain, Bool.and_eq_false_iff, special_eq,
      Bool.or_eq_false_iff, ← isPlain_iff]
    refine forall_congr' fun m => ?_
    cases m.1.isPlain <;> simp
  constructor
  · rintro ⟨nonempty, unbroken, closed, quoted⟩
    obtain ⟨first, second⟩ := quoted_iff.mp quoted
    exact ⟨nonempty, unbroken, ⟨closed, first⟩, second⟩
  · rintro ⟨nonempty, unbroken, ⟨closed, first⟩, second⟩
    exact ⟨nonempty, unbroken, closed, quoted_iff.mpr ⟨first, second⟩⟩

/-- Every tree that reading gives is well formed. -/
theorem wellFormed_of_parse {line : String} {command : Command}
    (ran : Command.parse line = .ok command) : WellFormed command := by
  obtain ⟨commands, rfl, pipes⟩ := parse_parts ran
  refine ⟨commands, rfl, fun pipe member => ?_⟩
  obtain ⟨calls, rfl, some, each⟩ := pipes pipe member
  refine ⟨calls, rfl, some, fun call inside => ?_⟩
  obtain ⟨stage, uncut, inLine, unbroken, ran⟩ := each call inside
  obtain ⟨-, spelled⟩ := call_parse_eq_ok_iff.mp ran
  refine ⟨tokens_ne_nil ran, fun token held => ?_⟩
  have written : token.toList ∈ call.tokens.map String.toList := List.mem_map_of_mem held
  rcases spelled.isToken _ written with (sign | sign | sign) | ⟨nonempty, seamless⟩
  · exact .inl (String.toList_inj.mp sign)
  · exact .inr (.inl (String.toList_inj.mp sign))
  · exact .inr (.inr (.inl (String.toList_inj.mp sign)))
  · refine .inr (.inr (.inr (isWord_iff.mpr
      ⟨fun none => nonempty (by simp [none]), fun broken => unbroken ?_, seamless,
        spelled.uncut uncut _ written⟩)))
    exact broken.imp (fun feed => inLine _ (spelled.mem _ written _ feed))
      (fun ret => inLine _ (spelled.mem _ written _ ret))

/-! Writing joins texts of one kind with a separator that opens no quote, three
times over. -/

/-- A text that can be written into a line: it is seamless, on one line and not
blank. -/
structure Writable (p : Char → Bool) (cs : List Char) : Prop where
  seamless : Seamless p cs
  unbroken : ¬ ('\n' ∈ cs ∨ '\r' ∈ cs)
  visible : allBlank cs = false

variable {p r : Char → Bool} {texts : List (List Char)} {before after : List Char}

theorem Writable.mono (fewer : ∀ c, r c = true → p c = true) {cs : List Char}
    (writable : Writable p cs) : Writable r cs :=
  ⟨writable.seamless.mono fewer, writable.unbroken, writable.visible⟩

private theorem allBlank_append (xs ys : List Char) :
    allBlank (xs ++ ys) = (allBlank xs && allBlank ys) := by
  simp [allBlank]

theorem Writable.joinWith {sep : List Char} (some : texts ≠ [])
    (still : Seamless p sep) (unbroken : ¬ ('\n' ∈ sep ∨ '\r' ∈ sep))
    (each : ∀ text ∈ texts, Writable p text) : Writable p (joinWith sep texts) := by
  induction texts with
  | nil => exact absurd rfl some
  | cons text texts ih =>
    obtain ⟨first, others⟩ := List.forall_mem_cons.mp each
    cases texts with
    | nil => simpa [Text.joinWith] using first
    | cons next texts =>
      have rest := ih (by simp) others
      rw [joinWith_cons_cons]
      refine ⟨first.seamless.append (still.append rest.seamless), ?_, ?_⟩
      · have noFirst := first.unbroken
        have noRest := rest.unbroken
        simp only [not_or] at unbroken noFirst noRest ⊢
        simp [unbroken, noFirst, noRest]
      · rw [allBlank_append, first.visible, Bool.false_and]

/-- A sign or a word can be written into a stage. -/
theorem token_writable {token : String}
    (known : token = "<" ∨ token = ">" ∨ token = ">>" ∨ IsWord token) :
    IsToken token.toList ∧ Writable joins token.toList := by
  rcases known with rfl | rfl | rfl | word
  · exact ⟨.inl (.inl rfl), ⟨by decide, by decide, by decide⟩⟩
  · exact ⟨.inl (.inr (.inl rfl)), ⟨by decide, by decide, by decide⟩⟩
  · exact ⟨.inl (.inr (.inr rfl)), ⟨by decide, by decide, by decide⟩⟩
  · obtain ⟨nonempty, unbroken, seamless, uncut⟩ := isWord_iff.mp word
    have isToken : IsToken token.toList := .inr ⟨by simpa using nonempty, seamless⟩
    obtain ⟨c, rest, text, visible⟩ := isToken.not_blank
    exact ⟨isToken, ⟨⟨seamless.closed, uncut⟩, unbroken, by simp [text, allBlank, visible]⟩⟩

theorem joins_of_bar (c : Char) (bar : decide (c = '|') = true) : joins c = true := by
  simp [joins, bar]

theorem joins_of_semicolon (c : Char) (semicolon : decide (c = ';') = true) : joins c = true := by
  simp [joins, semicolon]

/-- Blanks open no quote and are nobody's separators here. -/
theorem seamless_blanks (other : ∀ c, isBlank c = true → p c = false)
    (blank : allBlank before = true) : Seamless p before := by
  induction before with
  | nil => exact seamless_nil
  | cons c before ih =>
    simp only [allBlank, List.all_cons, Bool.and_eq_true] at blank
    exact (ih blank.2).cons (step_of_separates (by simp [separates, blank.1])) (other c blank.1)

private theorem not_blank_of_eq {c sep : Char} (visible : isBlank sep = false)
    (blank : isBlank c = true) : decide (c = sep) = false :=
  decide_eq_false fun same => by rw [same, visible] at blank; cases blank

theorem call_toList (call : Call) :
    call.text.toList = joinWith [' '] (call.tokens.map String.toList) :=
  toList_join " " call.tokens

theorem call_writable {call : Call} (wellFormed : WellFormedCall call) :
    Writable joins call.text.toList := by
  rw [call_toList]
  refine Writable.joinWith (by simpa using wellFormed.1) (by decide) (by decide) ?_
  simp only [List.forall_mem_map]
  exact fun token held => (token_writable (wellFormed.2 token held)).2

/-- A call written out, with any blanks around it, reads as the call. -/
theorem call_parse_text {call : Call} (wellFormed : WellFormedCall call)
    (blankBefore : allBlank before = true) (blankAfter : allBlank after = true) :
    Call.parse (before ++ call.text.toList ++ after) = .ok call := by
  have isTokens : ∀ token ∈ call.tokens.map String.toList, IsToken token := by
    simp only [List.forall_mem_map]
    exact fun token held => (token_writable (wellFormed.2 token held)).1
  refine call_parse_eq_ok_iff.mpr ⟨?_, ?_⟩
  · simp [allBlank_append, (call_writable wellFormed).visible]
  · rw [List.append_assoc, call_toList]
    exact (spells_joinWith isTokens after blankAfter).blanks before blankBefore

/-- The stages of a pipe written out after blanks read as its calls. -/
theorem stages_of_text {calls : List Call} (some : calls ≠ [])
    (each : ∀ call ∈ calls, WellFormedCall call) (blank : allBlank before = true) :
    List.Forall₂ (fun stage call => Call.parse stage = .ok call)
      (pieces (· = '|') (before ++ joinWith [' ', '|', ' '] (calls.map (·.text.toList)))) calls := by
  induction calls generalizing before with
  | nil => exact absurd rfl some
  | cons call calls ih =>
    obtain ⟨first, others⟩ := List.forall_mem_cons.mp each
    have blanks {cs : List Char} : allBlank cs = true → Seamless (· = '|') cs :=
      seamless_blanks fun c => not_blank_of_eq (by decide)
    have opening : Seamless (· = '|') (before ++ call.text.toList) :=
      (blanks blank).append ((call_writable first).seamless.mono joins_of_bar)
    cases calls with
    | nil =>
      have only := call_parse_text first blank (show allBlank [] = true from rfl)
      rw [List.append_nil] at only
      simpa [Text.joinWith, pieces_of_uncut opening.uncut] using only
    | cons next calls =>
      have stage := opening.append (blanks (show allBlank [' '] = true by decide))
      have rest := ih (by simp) others (show allBlank [' '] = true by decide)
      have shape : before ++ joinWith [' ', '|', ' '] ((call :: next :: calls).map (·.text.toList)) =
          (before ++ call.text.toList ++ [' ']) ++ '|' ::
            ([' '] ++ joinWith [' ', '|', ' '] ((next :: calls).map (·.text.toList))) := by
        simp [joinWith_cons_cons]
      rw [shape, pieces_cut neutral_bar stage (by decide)]
      exact .cons (call_parse_text first blank (by decide)) rest

theorem pipe_toList (calls : List Call) :
    (Command.pipe calls).text.toList = joinWith [' ', '|', ' '] (calls.map (·.text.toList)) := by
  rw [Command.text, toList_join, List.map_map]
  rfl

theorem pipe_writable {pipe : Command} (wellFormed : WellFormedPipe pipe) :
    Writable (· = ';') pipe.text.toList := by
  obtain ⟨calls, rfl, some, each⟩ := wellFormed
  rw [pipe_toList]
  refine Writable.joinWith (by simpa using some) (by decide) (by decide) ?_
  simp only [List.forall_mem_map]
  exact fun call inside => (call_writable (each call inside)).mono joins_of_semicolon

/-- A pipe written out after blanks reads as the pipe. -/
theorem parsePipe_text {pipe : Command} (wellFormed : WellFormedPipe pipe)
    (blank : allBlank before = true) :
    Seamless (· = ';') (before ++ pipe.text.toList) ∧
      Command.parsePipe (before ++ pipe.text.toList) = .ok pipe := by
  have writable := pipe_writable wellFormed
  have seamless : Seamless (· = ';') (before ++ pipe.text.toList) :=
    (seamless_blanks (fun c => not_blank_of_eq (by decide)) blank).append writable.seamless
  refine ⟨seamless, (parsePipe_eq_ok_iff seamless.closed).mpr ⟨?_, ?_⟩⟩
  · simp [allBlank_append, writable.visible]
  · obtain ⟨calls, rfl, some, each⟩ := wellFormed
    rw [pipe_toList]
    exact ⟨calls, rfl, stages_of_text some each blank⟩

/-- The segments of a sequence written out after blanks read as its pipes. -/
theorem segments_of_text {commands : List Command} (some : commands ≠ [])
    (each : ∀ pipe ∈ commands, WellFormedPipe pipe) (blank : allBlank before = true) :
    List.Forall₂ (fun segment pipe => Command.parsePipe segment = .ok pipe)
      (pieces (· = ';') (before ++ joinWith [';', ' '] (commands.map (·.text.toList)))) commands := by
  induction commands generalizing before with
  | nil => exact absurd rfl some
  | cons pipe commands ih =>
    obtain ⟨first, others⟩ := List.forall_mem_cons.mp each
    obtain ⟨seamless, ran⟩ := parsePipe_text first blank
    cases commands with
    | nil => simpa [Text.joinWith, pieces_of_uncut seamless.uncut] using ran
    | cons next commands =>
      have rest := ih (by simp) others (show allBlank [' '] = true by decide)
      have shape : before ++ joinWith [';', ' '] ((pipe :: next :: commands).map (·.text.toList)) =
          (before ++ pipe.text.toList) ++ ';' ::
            ([' '] ++ joinWith [';', ' '] ((next :: commands).map (·.text.toList))) := by
        simp [joinWith_cons_cons]
      rw [shape, pieces_cut neutral_semicolon seamless (by decide)]
      exact .cons ran rest

theorem texts_eq_map (commands : List Command) :
    Command.texts commands = commands.map Command.text := by
  induction commands with
  | nil => rfl
  | cons command commands ih => rw [Command.texts, ih, List.map_cons]

theorem sequence_toList (commands : List Command) :
    (Command.sequence commands).text.toList =
      joinWith [';', ' '] (commands.map (·.text.toList)) := by
  rw [Command.text, toList_join, texts_eq_map, List.map_map]
  rfl

/-- A well-formed tree, written out, reads as itself. -/
theorem parse_text_of_wellFormed {command : Command} (wellFormed : WellFormed command) :
    Command.parse command.text = .ok command := by
  obtain ⟨commands, rfl, each⟩ := wellFormed
  cases commands with
  | nil => rfl
  | cons pipe commands =>
    have line : Writable (fun _ => false)
        (joinWith [';', ' '] ((pipe :: commands).map (·.text.toList))) := by
      refine Writable.joinWith (by simp) (by decide) (by decide) ?_
      simp only [List.forall_mem_map]
      exact fun pipe inside => (pipe_writable (each pipe inside)).mono (by simp)
    rw [← sequence_toList] at line
    have segments := segments_of_text (by simp) each (show allBlank [] = true from rfl)
    rw [List.nil_append, ← sequence_toList] at segments
    exact (parse_eq_ok_iff line.visible line.unbroken line.seamless.closed).mpr ⟨_, rfl, segments⟩

/-- Words with a space between neighbours read as one call. -/
theorem parse_words {tokens : List String} (some : tokens ≠ [])
    (isWords : ∀ token ∈ tokens, IsWord token) :
    Command.parse (join " " tokens) = .ok (.sequence [.pipe [⟨tokens⟩]]) := by
  have wellFormed : WellFormedCall ⟨tokens⟩ :=
    ⟨some, fun token held => .inr (.inr (.inr (isWords token held)))⟩
  have single (sep text : String) : join sep [text] = text := by
    rw [← String.toList_inj, toList_join]
    simp [Text.joinWith]
  have text : (Command.sequence [.pipe [⟨tokens⟩]]).text = join " " tokens := by
    simp only [Command.text, Command.texts, List.map_singleton, Call.text, single]
  rw [← text]
  exact parse_text_of_wellFormed ⟨_, rfl, by simpa [WellFormedPipe] using wellFormed⟩

/-- A sign is no word. -/
theorem redirect?_of_isWord {token : String} (isWord : IsWord token) :
    Token.redirect? token = none := by
  have other {sign : String} {c : Char} (first : (.plain, c) ∈ Quote.plain.mark sign.toList)
      (special : special c = true) : token ≠ sign := by
    rintro rfl
    rw [isWord.quoted _ first rfl] at special
    cases special
  rw [Token.redirect?, if_neg (other (c := '<') (by decide) (by decide)),
    if_neg (other (c := '>') (by decide) (by decide)),
    if_neg (other (c := '>') (by decide) (by decide))]

/-- Reading gives well-formed trees only, and undoes the writing of each of
them. -/
theorem parse_and_text_are_inverse :
    (∀ line command, Command.parse line = .ok command → WellFormed command) ∧
      ∀ command, WellFormed command → Command.parse command.text = .ok command :=
  ⟨fun _ _ => wellFormed_of_parse, fun _ => parse_text_of_wellFormed⟩

/-- A tree with a quoted semicolon, a redirection and two stages, and its line
read back. -/
theorem parse_text_of_quoted_semicolon :
    WellFormed (.sequence [.pipe [⟨["echo", "'a;b'", ">", "x"]⟩, ⟨["wc"]⟩]]) ∧
      Command.parse (Command.sequence [.pipe [⟨["echo", "'a;b'", ">", "x"]⟩, ⟨["wc"]⟩]]).text =
        .ok (.sequence [.pipe [⟨["echo", "'a;b'", ">", "x"]⟩, ⟨["wc"]⟩]]) := by
  have word {token : String} (isWord : IsWord token) :
      token = "<" ∨ token = ">" ∨ token = ">>" ∨ IsWord token := .inr (.inr (.inr isWord))
  have first : WellFormedCall ⟨["echo", "'a;b'", ">", "x"]⟩ := by
    refine ⟨by simp, ?_⟩
    simp only [List.forall_mem_cons]
    exact ⟨word (by decide), word (by decide), by simp, word (by decide), by simp⟩
  have second : WellFormedCall ⟨["wc"]⟩ := by
    refine ⟨by simp, ?_⟩
    simp only [List.forall_mem_cons]
    exact ⟨word (by decide), by simp⟩
  have wellFormed : WellFormed (.sequence [.pipe [⟨["echo", "'a;b'", ">", "x"]⟩, ⟨["wc"]⟩]]) := by
    refine ⟨_, rfl, ?_⟩
    simp only [List.forall_mem_cons]
    exact ⟨⟨_, rfl, by simp, by simp [first, second]⟩, by simp⟩
  have read := parse_and_text_are_inverse.2 _ wellFormed
  exact ⟨parse_and_text_are_inverse.1 _ _ read, read⟩

end LineShell.LineRoundTrip
