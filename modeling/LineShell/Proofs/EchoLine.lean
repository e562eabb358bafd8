import LineShell.Proofs.LineRoundTrip
import LineShell.Proofs.EvaluationAgreement

/-! A line that is one call. Tokens without a redirection sign are all expanded,
and a call of `echo` whose tokens expand to some words writes these words and
does nothing else to the session. What a line adds to its call is a report, if
the call fails, and a flush. -/
namespace LineShell.EchoLine
open Text LineRoundTrip StepAgreement EvaluationAgreement

/-! Expansion of tokens in which nothing is special. -/

section Expansion

variable {m : Type → Type} [Monad m] [MonadExceptOf Failure m] (run : String → m String)

/-- Whether a character stands for itself in plain text. -/
def ordinary (c : Char) : Bool := Quote.plain.step c = .plain && c ≠ '*'

theorem scan_ordinary {cs : List Char} (allOrdinary : cs.all ordinary = true) (draft : Word.Draft)
    (rest : List Char) (some : cs ≠ []) :
    Word.scan run .plain [] draft (cs ++ rest) = Word.scan run .plain [] (draft.addText cs) rest := by
  induction cs generalizing draft with
  | nil => exact absurd rfl some
  | cons c cs ih =>
    simp only [List.all_cons, ordinary, Bool.and_eq_true, decide_eq_true_eq] at allOrdinary
    obtain ⟨⟨still, noStar⟩, others⟩ := allOrdinary
    have first : Word.scan run .plain [] draft (c :: (cs ++ rest)) =
        Word.scan run .plain [] (draft.add (.lit c)) (cs ++ rest) := by
      simp [Word.scan, still, noStar, Quote.isBack]
    rw [List.cons_append, first]
    cases cs with
    | nil => rfl
    | cons d cs => exact ih others _ (by simp)

/-- A text added to nothing is one word. -/
theorem words_addText (cs : List Char) :
    (({} : Word.Draft).addText cs).words = [cs.map Symbol.lit] := by
  simp [Word.Draft.words, Word.Draft.addText]

/-- Texts added to a word begun are words after it. -/
theorem words_foldl_next {draft : Word.Draft} (started : draft.started = true)
    (texts : List (List Char)) :
    (texts.foldl Word.Draft.next draft).words = draft.words ++ texts.map (·.map Symbol.lit) := by
  induction texts generalizing draft with
  | nil => simp
  | cons text texts ih =>
    have begun : (draft.next text).words = draft.words ++ [text.map Symbol.lit] := by
      simp [Word.Draft.words, Word.Draft.next, Word.Draft.addText, started]
    rw [List.foldl_cons, ih rfl, begun]
    simp

variable [LawfulMonad m] (glob : List Symbol → m (List String))

omit [MonadExceptOf Failure m] in
/-- Words without a star are not looked up. -/
theorem lookUp_literals (words : List (List Char)) :
    Word.lookUp glob (words.map (·.map Symbol.lit)) = pure (words.map String.ofList) := by
  induction words with
  | nil => rfl
  | cons word words ih =>
    have starless : Wildcard.hasStar (word.map Symbol.lit) = false := by
      simp [Wildcard.hasStar]
    have spelled : Wildcard.literal (word.map Symbol.lit) = String.ofList word := by
      simp [Wildcard.literal, Function.comp_def]
    simp [Word.lookUp, starless, spelled, ih]

variable {run} in
theorem expand_of_scan {token : String} {cs : List Char}
    (scanned : Word.scan run .plain [] {} token.toList = pure (({} : Word.Draft).addText cs)) :
    Word.expand run glob token = pure [String.ofList cs] := by
  have found := lookUp_literals glob [cs]
  rw [List.map_singleton, List.map_singleton] at found
  rw [Word.expand, scanned, pure_bind, words_addText, found]

theorem expand_ordinary {token : String} (some : token ≠ "")
    (allOrdinary : token.toList.all ordinary = true) : Word.expand run glob token = pure [token] := by
  have scanned : Word.scan run .plain [] {} token.toList =
      pure (({} : Word.Draft).addText token.toList) := by
    have read := scan_ordinary run allOrdinary {} [] (by simpa using some)
    rw [List.append_nil] at read
    rw [read]
    rfl
  rw [expand_of_scan glob scanned, String.ofList_toList]

end Expansion

/-- Tokens without a sign are left as they are, and nothing is opened. -/
theorem extractFrom_signless {expand : String → Act Failure (List String)} {tokens : List String}
    (signless : ∀ token ∈ tokens, Token.redirect? token = none) (r : Redirection) :
    Redirection.extractFrom expand r tokens = pure { r with rest := r.rest.reverse ++ tokens } := by
  induction tokens generalizing r with
  | nil => simp [Redirection.extractFrom]
  | cons token tokens ih =>
    obtain ⟨first, others⟩ := List.forall_mem_cons.mp signless
    cases tokens with
    | nil => simp [Redirection.extractFrom, first]
    | cons operand tokens => simp [Redirection.extractFrom, first, ih others]

theorem extract_signless {expand : String → Act Failure (List String)} {tokens : List String}
    (signless : ∀ token ∈ tokens, Token.redirect? token = none) :
    Redirection.extract expand tokens = pure { rest := tokens } :=
  extractFrom_signless signless {}

/-! Output that is taken. -/

/-- An output with room for the bytes, which passes on what it took. -/
structure Takes (p : Outlet) (bs : Bytes) : Prop where
  fits : ∀ room, p.room = some room → bs.length ≤ room
  flushes : p.flushFails = false

variable {p : Outlet} {bs : Bytes}

theorem write_of_takes (takes : Takes p bs) :
    (p.write bs).1.taken = p.taken ++ bs ∧ (p.write bs).2 = none := by
  unfold Outlet.write
  cases room : p.room with
  | none => exact ⟨rfl, rfl⟩
  | some n =>
    have enough := takes.fits n room
    simp [enough, List.take_of_length_le enough]

/-- Writing does not change whether the output can be flushed. -/
theorem flush_write (p : Outlet) (bs : Bytes) : (p.write bs).1.flush = p.flush := by
  unfold Outlet.write
  cases p.room <;> rfl

theorem flush_of_takes (takes : Takes p bs) : p.flush = none := by
  simp [Outlet.flush, takes.flushes]

theorem unlines_singleton (line : String) : unlines [line] = bytes (line ++ "\n") := by
  simp [unlines, bytes, encode]
  decide

variable {s : Session}

theorem start_write (output : s.output = .outlet p) :
    (Act.write bs).start s = some ((p.write bs).2.elim (.ok ()) .error,
      { s with output := .outlet (p.write bs).1 }) := by
  simp only [Act.start, Act.write, ExceptT.run, output, Sink.write]
  cases (p.write bs).2 <;> rfl

theorem start_flush (s : Session) :
    Act.flush.start s = some (s.output.flush.elim (.ok ()) .error, s) := by
  simp only [Act.start, Act.flush, ExceptT.run]
  cases s.output.flush <;> rfl

/-- A session after a text was written to its output. -/
def printed (s : Session) (p : Outlet) (bs : Bytes) : Session :=
  { s with output := .outlet (p.write bs).1 }

theorem start_flush_printed (s : Session) (p : Outlet) (bs : Bytes) :
    Act.flush.start (printed s p bs) = some (p.flush.elim (.ok ()) .error, printed s p bs) := by
  rw [start_flush]
  simp only [printed, Sink.flush, flush_write]

/-! A call of `echo`, and the line around a call. -/

variable {sh : Shell} {run : Substitution} {words : List String}

theorem find?_name {app : Application} (enabled : app ∈ sh.applications) :
    sh.find? app.name = some app := by
  simp [Shell.find?, Application.ofName?_name, enabled]

/-- All that `echo` does to a session is to write its words. -/
theorem run_echo (text : bs = bytes (join " " words ++ "\n")) (output : s.output = .outlet p) :
    ∃ result, (Application.run .echo words).start s = some (result, printed s p bs) ∧
      (Takes p bs → result = .ok .proceed) := by
  have written : (Act.write bs).start s = some (_, printed s p bs) := start_write output
  have flushed := start_flush_printed s p bs
  have none_of_takes (takes : Takes p bs) := (write_of_takes takes).2
  simp only [Application.run, Echo.run, Job.writeLines, Job.write, Job.flush, Job.ofIo,
    unlines_singleton, ← text, start_bind, start_mapError, written]
  generalize (p.write bs).2 = failed at none_of_takes
  cases failed with
  | some e => exact ⟨_, rfl, fun takes => nomatch none_of_takes takes⟩
  | none =>
    simp only [Option.elim, Option.map, Except.mapError, flushed]
    cases refused : p.flush with
    | some e => exact ⟨_, rfl, fun takes => nomatch refused.symm.trans (flush_of_takes takes)⟩
    | none => exact ⟨_, rfl, fun _ => rfl⟩

theorem launch_echo (text : bs = bytes (join " " words ++ "\n")) (output : s.output = .outlet p) :
    ∃ result, (Shell.launch .echo words).start s = some (result, printed s p bs) ∧
      (Takes p bs → result = .ok .proceed) := by
  obtain ⟨result, ran, proceeds⟩ := run_echo text output
  simp only [Shell.launch, start_bind, start_attempt, ran, start_flush_printed, Option.map]
  cases result with
  | error e => exact ⟨_, rfl, fun takes => nomatch proceeds takes⟩
  | ok outcome =>
    cases refused : p.flush with
    | some e => exact ⟨_, rfl, fun takes => nomatch refused.symm.trans (flush_of_takes takes)⟩
    | none => exact ⟨_, rfl, fun takes => by rw [Except.ok.inj (proceeds takes)]⟩

/-- A session with another journal. -/
def noted (s : Session) (journal : List Record) : Session := { s with journal }

section Line

variable {line : String} {call : Call} {s' : Session}

/-- The session that the call of a line starts from. -/
def opened (s : Session) (call : Call) : Session :=
  noted s (s.journal ++ [⟨.debug, "parsed: " ++ (Command.sequence [.pipe [call]]).text⟩])

theorem start_evaluateLine (parsed : Command.parse line = .ok (.sequence [.pipe [call]])) :
    (sh.evaluateLine line).start s =
      (do let outcome ← sh.evaluateAll (sh.substitute sh.levels) [.pipe [call]]
          Act.mapError .io Act.flush
          return outcome : Act Failure Outcome).start (opened s call) := by
  rw [Shell.evaluateLine, Shell.parse, parsed]
  rfl

/-- The failure that a result is, if it is one. -/
def failureOf : Except Failure Outcome → List Failure
  | .ok _ => []
  | .error e => [e]

/-- What a result comes to once its failure is reported. -/
def outcomeOf : Except Failure Outcome → Outcome
  | .ok outcome => outcome
  | .error _ => .proceed

theorem evaluateAll_call (run : Substitution) :
    sh.evaluateAll run [.pipe [call]] = (do
      let result ← Act.attempt (sh.call run call)
      Shell.reportAll (failureOf result)
      return outcomeOf result) := by
  rw [Shell.evaluateAll, Shell.evaluate, Shell.pipe]
  refine bind_congr fun result => ?_
  rcases result with e | _ | code <;> rfl

/-- The flush at the end of a line changes nothing but the result. -/
theorem start_flushed (outcome : Outcome) (s : Session) :
    ∃ result, (do Act.mapError .io Act.flush; return outcome : Act Failure Outcome).start s =
      some (result, s) ∧ (s.output.flush = none → result = .ok outcome) := by
  simp only [start_bind, start_mapError, start_flush, Option.map]
  cases s.output.flush with
  | none => exact ⟨_, rfl, fun _ => rfl⟩
  | some e => exact ⟨_, rfl, nofun⟩

/-- A line does what its call does and reports the call's failure. -/
theorem line_of_call {result : Except Failure Outcome}
    (parsed : Command.parse line = .ok (.sequence [.pipe [call]]))
    (ran : (sh.call (sh.substitute sh.levels) call).start (opened s call) = some (result, s')) :
    ∃ result' journal, (sh.evaluateLine line).start s =
      some (result', { s' with reports := s'.reports ++ failureOf result, journal }) ∧
        (s'.output.flush = none → result' = .ok (outcomeOf result)) := by
  obtain ⟨journal, reported⟩ := start_reportAll (failureOf result) s'
  obtain ⟨result', flushed, proceeds⟩ :=
    start_flushed (outcomeOf result) { s' with reports := s'.reports ++ failureOf result, journal }
  refine ⟨result', journal, ?_, proceeds⟩
  rw [start_evaluateLine parsed, evaluateAll_call]
  simp only [bind_assoc, pure_bind, start_bind, start_attempt, ran, Option.map, reported]
  rw [← start_bind]
  exact flushed

/-- A line whose call never ends never ends. -/
theorem line_of_call_none (parsed : Command.parse line = .ok (.sequence [.pipe [call]]))
    (never : (sh.call (sh.substitute sh.levels) call).start (opened s call) = none) :
    (sh.evaluateLine line).start s = none := by
  rw [start_evaluateLine parsed, evaluateAll_call]
  simp [start_bind, start_attempt, never]

end Line

/-! The line `echo` with words after it. -/

section Words

variable {tokens : List String} {s' : Session}

theorem name_isWord (app : Application) (isWords : ∀ token ∈ tokens, IsWord token) :
    ∀ token ∈ app.name :: tokens, IsWord token :=
  List.forall_mem_cons.mpr ⟨by cases app <;> decide, isWords⟩

/-- A call of an application by its name expands the other words and runs it with
them. -/
theorem call_named (run : Substitution) {app : Application} (enabled : app ∈ sh.applications)
    (isWords : ∀ token ∈ tokens, IsWord token) :
    sh.call run ⟨app.name :: tokens⟩ = (do
      let words ← Word.expandAll run Shell.glob tokens
      Act.note .debug ("run: " ++ ShellWord.line (app.name :: words))
      Shell.launch app words) := by
  have signless : ∀ token ∈ app.name :: tokens, Token.redirect? token = none :=
    fun token held => redirect?_of_isWord (name_isWord app isWords token held)
  have name : Word.expand run Shell.glob app.name = pure [app.name] :=
    expand_ordinary run Shell.glob (by cases app <;> decide) (by cases app <;> decide)
  have expanded : Word.expandAll run Shell.glob (app.name :: tokens) =
      (app.name :: ·) <$> Word.expandAll run Shell.glob tokens := by
    simp [Word.expandAll, name]
  simp only [Shell.call, extract_signless signless, pure_bind, expanded, map_eq_pure_bind,
    bind_assoc, find?_name enabled, Redirection.within]

theorem echo_isWord (isWords : ∀ token ∈ tokens, IsWord token) :
    ∀ token ∈ "echo" :: tokens, IsWord token := name_isWord .echo isWords

theorem call_echo (run : Substitution) (enabled : .echo ∈ sh.applications)
    (isWords : ∀ token ∈ tokens, IsWord token) :
    sh.call run ⟨"echo" :: tokens⟩ = (do
      let words ← Word.expandAll run Shell.glob tokens
      Act.note .debug ("run: " ++ ShellWord.line ("echo" :: words))
      Shell.launch .echo words) := call_named run enabled isWords

/-- The line writes what the words expand to. -/
theorem line_echo (enabled : .echo ∈ sh.applications) (isWords : ∀ token ∈ tokens, IsWord token)
    (expanded : (Word.expandAll (sh.substitute sh.levels) Shell.glob tokens).start
      (opened s ⟨"echo" :: tokens⟩) = some (.ok words, s'))
    (text : bs = bytes (join " " words ++ "\n")) (output : s'.output = .outlet p) :
    ∃ result reports journal, (sh.evaluateLine (join " " ("echo" :: tokens))).start s =
      some (result, { printed s' p bs with reports, journal }) ∧
        (Takes p bs → result = .ok .proceed ∧ reports = s'.reports) := by
  let journal := s'.journal ++ [⟨.debug, "run: " ++ ShellWord.line ("echo" :: words)⟩]
  obtain ⟨result, launched, proceeds⟩ :=
    launch_echo text (show (noted s' journal).output = .outlet p from output)
  have called : (sh.call (sh.substitute sh.levels) ⟨"echo" :: tokens⟩).start
      (opened s ⟨"echo" :: tokens⟩) = some (result, printed (noted s' journal) p bs) := by
    simp only [call_echo _ enabled isWords, start_bind, expanded, start_note]
    exact launched
  obtain ⟨result', journal', ran, ends⟩ :=
    line_of_call (parse_words (by simp) (echo_isWord isWords)) called
  refine ⟨result', _, journal', ran, fun takes => ?_⟩
  have flushes : (printed (noted s' journal) p bs).output.flush = none := by
    simp only [printed, Sink.flush, flush_write, flush_of_takes takes]
  rw [ends flushes, proceeds takes]
  exact ⟨rfl, List.append_nil _⟩

/-- If the words cannot be expanded, then the line reports why. -/
theorem line_echo_error {e : Failure} (enabled : .echo ∈ sh.applications)
    (isWords : ∀ token ∈ tokens, IsWord token)
    (expanded : (Word.expandAll (sh.substitute sh.levels) Shell.glob tokens).start
      (opened s ⟨"echo" :: tokens⟩) = some (.error e, s')) :
    ∃ result journal, (sh.evaluateLine (join " " ("echo" :: tokens))).start s =
      some (result, { s' with reports := s'.reports ++ [e], journal }) ∧
        (s'.output.flush = none → result = .ok .proceed) := by
  have called : (sh.call (sh.substitute sh.levels) ⟨"echo" :: tokens⟩).start
      (opened s ⟨"echo" :: tokens⟩) = some (.error e, s') := by
    simp only [call_echo _ enabled isWords, start_bind, expanded]
  exact line_of_call (parse_words (by simp) (echo_isWord isWords)) called

/-- If their expansion never ends, then the line never ends. -/
theorem line_echo_none (enabled : .echo ∈ sh.applications)
    (isWords : ∀ token ∈ tokens, IsWord token)
    (never : (Word.expandAll (sh.substitute sh.levels) Shell.glob tokens).start
      (opened s ⟨"echo" :: tokens⟩) = none) :
    (sh.evaluateLine (join " " ("echo" :: tokens))).start s = none := by
  refine line_of_call_none (parse_words (by simp) (echo_isWord isWords)) ?_
  simp only [call_echo _ enabled isWords, start_bind, never]

end Words

end LineShell.EchoLine
