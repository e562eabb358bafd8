import LineShell.Proofs.TakenRedirections
import LineShell.Proofs.TokenRegions

/-! The texts that a call passes to its substitution before it runs. They are those
in back quotes in the operands of its redirections, and then those in its words,
each once and in order. Only a text that fails, a token that does not close its
quotes and a redirection that fails stop them. -/
namespace LineShell.PassedTexts
open StepAgreement TextLogs TokenRegions CallParts TakenRedirections

/-! What a step may do to a log. -/

/-- What is so if a step never ends, what it adds to a log if it is done, and what
it adds if it fails. -/
structure Course where
  endless : Prop
  done : Log → Prop
  stops : Log → Failure → Prop

namespace Course

/-- One course and then another. -/
def andThen (c c' : Course) : Course where
  endless := c.endless ∨ c'.endless
  done log := ∃ before new, log = before ++ new ∧ c.done before ∧ c'.done new
  stops log e := c.stops log e ∨ ∃ before new, log = before ++ new ∧ c.done before ∧ c'.stops new e

/-- A course that is a case of another. -/
structure Within (c c' : Course) : Prop where
  endless : c.endless → c'.endless
  done : ∀ log, c.done log → c'.done log
  stops : ∀ log e, c.stops log e → c'.stops log e

end Course

variable {α β : Type}

/-- A step keeps to a course. -/
def Follows (c : Course) (step : Logged α) : Prop := ∀ log s,
  match step.start log s with
  | none => c.endless
  | some ((.ok _, log'), _) => ∃ new, log' = log ++ new ∧ c.done new
  | some ((.error e, log'), _) => ∃ new, log' = log ++ new ∧ c.stops new e

theorem Follows.within {c c' : Course} {step : Logged α} (follows : Follows c step)
    (within : c.Within c') : Follows c' step := by
  intro log s
  have here := follows log s
  split at here
  · exact within.endless here
  · obtain ⟨new, added, done⟩ := here
    exact ⟨new, added, within.done new done⟩
  · obtain ⟨new, added, stops⟩ := here
    exact ⟨new, added, within.stops new _ stops⟩

theorem Follows.bind {c c' : Course} {step : Logged α} {next : α → Logged β}
    (first : Follows c step)
    (later : ∀ log s a log' s', step.start log s = some ((.ok a, log'), s') → Follows c' (next a)) :
    Follows (c.andThen c') (step >>= next) := by
  intro log s
  have here := first log s
  rw [start_bind_logged]
  cases ran : step.start log s with
  | none =>
    rw [ran] at here
    exact .inl here
  | some ended =>
    rw [ran] at here
    obtain ⟨⟨e | a, log₁⟩, s₁⟩ := ended
    · obtain ⟨new, added, stops⟩ := here
      exact ⟨new, added, .inl stops⟩
    · obtain ⟨before, rfl, done⟩ := here
      have there := later _ _ _ _ _ ran (log ++ before) s₁
      dsimp only
      generalize (next a).start (log ++ before) s₁ = ended at there
      rcases ended with _ | ⟨⟨e | b, log₂⟩, s₂⟩
      · exact .inr there
      · obtain ⟨new, rfl, stops⟩ := there
        exact ⟨before ++ new, List.append_assoc .., .inr ⟨before, new, rfl, done, stops⟩⟩
      · obtain ⟨new, rfl, done'⟩ := there
        exact ⟨before ++ new, List.append_assoc .., before, new, rfl, done, done'⟩

/-! Steps that pass nothing on. -/

theorem follows_pure {c : Course} (a : α) (done : c.done []) : Follows c (pure a : Logged α) :=
  fun log _ => ⟨[], (List.append_nil log).symm, done⟩

theorem follows_throw {c : Course} {e : Failure} (stops : c.stops [] e) :
    Follows c (throw e : Logged α) :=
  fun log _ => ⟨[], (List.append_nil log).symm, stops⟩

theorem follows_keep {c : Course} {act : Act Failure α}
    (ends : ∀ s, match act.start s with
      | none => c.endless
      | some (.ok _, _) => c.done []
      | some (.error e, _) => c.stops [] e) : Follows c (keep act) := by
  intro log s
  have here := ends s
  simp only [keep, Logged.start, ExceptT.run]
  generalize act.start s = ended at here
  rcases ended with _ | ⟨e | a, s'⟩
  · exact here
  · exact ⟨[], (List.append_nil log).symm, here⟩
  · exact ⟨[], (List.append_nil log).symm, here⟩

/-- A step that always ends well and passes nothing on. -/
def Course.quiet : Course where
  endless := False
  done log := log = []
  stops _ _ := False

theorem Course.andThen_quiet (c : Course) : (c.andThen quiet).Within c where
  endless endless := endless.resolve_right id
  done := by
    rintro _ ⟨before, _, rfl, done, rfl⟩
    rwa [List.append_nil]
  stops := by
    rintro _ e (here | ⟨_, _, rfl, -, ⟨⟩⟩)
    exact here

/-! The texts of one token. -/

/-- Texts that were all passed on, in order, with outputs. -/
structure Passed (texts : List String) (log : Log) : Prop where
  texts : log.map Prod.fst = texts
  answered : ∀ entry ∈ log, entry.2.isOk

theorem passed_nil : Passed [] [] := ⟨rfl, fun _ held => absurd held List.not_mem_nil⟩

theorem Passed.append {texts more : List String} {log new : Log} (passed : Passed texts log)
    (later : Passed more new) : Passed (texts ++ more) (log ++ new) where
  texts := by rw [List.map_append, passed.texts, later.texts]
  answered := List.forall_mem_append.mpr ⟨passed.answered, later.answered⟩

/-- A token fails: at one of its texts, or at its end, where its quotes are open. -/
inductive Breaks (texts : List String) (ending : Quote) : Log → Failure → Prop where
  | text {before later : List String} {text : String} {log : Log} {e : Failure}
      (split : texts = before ++ text :: later) (passed : Passed before log) :
      Breaks texts ending (log ++ [(text, .error e)]) e
  | unclosed {log : Log} (passed : Passed texts log) (stillOpen : ending ≠ .plain) :
      Breaks texts ending log (.line (.unterminated ending))

/-- A text that may never come to an output. -/
def Endless (run : Substitution) (text : String) : Prop := ∃ s, (run text).start s = none

section Tokens

variable (run : Substitution)

/-- One text is passed on. -/
def Course.text (text : String) : Course where
  endless := Endless run text
  done := Passed [text]
  stops log e := log = [(text, .error e)]

/-- The texts of a token are passed on. -/
def Course.token (texts : List String) (ending : Quote) : Course where
  endless := ∃ text ∈ texts, Endless run text
  done log := ending = .plain ∧ Passed texts log
  stops := Breaks texts ending

theorem follows_logged (text : String) : Follows (.text run text) (logged run text) := by
  intro log s
  simp only [Logged.start, ExceptT.run, logged]
  cases ran : (run text).start s with
  | none => exact ⟨s, ran⟩
  | some ended =>
    obtain ⟨_ | output, s₁⟩ := ended
    · exact ⟨_, rfl, rfl⟩
    · exact ⟨_, rfl, rfl, by simp [Except.isOk, Except.toBool]⟩

theorem Course.text_andThen_token (text : String) (texts : List String) (ending : Quote) :
    ((Course.text run text).andThen (.token run texts ending)).Within
      (.token run (text :: texts) ending) where
  endless := by
    rintro (endless | ⟨other, held, endless⟩)
    · exact ⟨text, List.mem_cons_self, endless⟩
    · exact ⟨other, List.mem_cons_of_mem _ held, endless⟩
  done := by
    rintro _ ⟨before, new, rfl, first, closed, later⟩
    exact ⟨closed, first.append later⟩
  stops := by
    rintro _ e (rfl | ⟨before, new, rfl, first, breaks⟩)
    · exact .text (List.nil_append (text :: texts)).symm passed_nil
    · cases breaks with
      | @text earlier later other log e split passed =>
        rw [← List.append_assoc]
        exact .text (by rw [split]; rfl) (first.append passed)
      | unclosed passed stillOpen => exact .unclosed (first.append passed) stillOpen

/-- A scan passes on the texts in back quotes that it closes. -/
theorem follows_scan (q : Quote) (command : List Char) (draft : Word.Draft) (cs : List Char) :
    Follows (.token run (regionsFrom q command cs) (q.after cs))
      (Word.scan (logged run) q command draft cs) := by
  induction cs generalizing q command draft with
  | nil =>
    by_cases closed : q = .plain
    · subst closed
      exact follows_pure draft ⟨rfl, passed_nil⟩
    · have unclosed : ¬q.isPlain := by simpa [Quote.isPlain] using closed
      rw [Word.scan, if_neg unclosed]
      exact follows_throw (.unclosed passed_nil closed)
  | cons c cs ih =>
    cases inside : q.isBack with
    | false =>
      obtain ⟨draft', scanned⟩ := scan_outside inside c command draft cs
      simp only [scanned, regionsFrom, inside, Bool.false_eq_true, if_false]
      exact ih _ _ _
    | true =>
      by_cases closes : c = Quote.backMark
      · subst closes
        obtain ⟨add, scanned⟩ := scan_close inside command draft cs
        simp only [scanned, regionsFrom, inside, if_true]
        exact ((follows_logged run _).bind fun _ _ _ _ _ _ => ih _ _ _).within
          (Course.text_andThen_token run _ _ _)
      · rw [scan_inside inside closes]
        simp only [regionsFrom, inside, if_true, if_neg closes, step_of_isBack inside closes,
          Quote.after_cons]
        exact ih _ _ _

theorem start_glob (word : List Symbol) (s : Session) :
    ∃ words s', (Shell.glob word).start s = some (.ok words, s') := by
  simp only [Shell.glob, start_bind, start_view]
  cases (Wildcard.expand s.disk s.cwd word).remark <;> exact ⟨_, _, rfl⟩

theorem follows_look (word : List Symbol) : Follows .quiet (look word) := by
  refine follows_keep fun s => ?_
  obtain ⟨words, s', ran⟩ := start_glob word s
  rw [ran]
  rfl

theorem follows_lookUp (words : List (List Symbol)) :
    Follows .quiet (Word.lookUp look words) := by
  induction words with
  | nil => exact follows_pure _ rfl
  | cons word words ih =>
    have rest (found : List String) :
        Follows .quiet (do return found ++ (← Word.lookUp look words)) :=
      (ih.bind fun _ _ _ _ _ _ => follows_pure _ rfl).within (Course.andThen_quiet _)
    unfold Word.lookUp
    split
    · exact ((follows_look word).bind fun _ _ found _ _ _ => rest found).within
        (Course.andThen_quiet _)
    · exact rest _

/-- A token's texts are those in back quotes. -/
theorem follows_expand (token : String) :
    Follows (.token run (regions token) (Quote.plain.after token.toList))
      (Word.expand (logged run) look token) :=
  ((follows_scan run _ _ _ _).bind fun _ _ d _ _ _ => follows_lookUp d.words).within
    (Course.andThen_quiet _)

end Tokens

/-! The texts of a call. -/

/-- The texts in back quotes in a part. -/
def partTexts : Part → List String
  | .word token | .redirect _ token => regions token
  | .lone _ => []

/-- The region that the text of a part ends in. -/
def partEnding : Part → Quote
  | .word token | .redirect _ token => Quote.plain.after token.toList
  | .lone _ => .plain

/-- A redirection fails for a reason that is not in its operand's text. -/
inductive Refusal : Part → Failure → Prop where
  | missing {sign : Token.Redirect} : Refusal (.lone sign) (.redirect (.missingOperand sign))
  | fault {sign : Token.Redirect} {operand : String} {fault : RedirectFault}
      (present : ∀ sign, fault ≠ .missingOperand sign) :
      Refusal (.redirect sign operand) (.redirect fault)
  | second {operand : String} : Refusal (.redirect .input operand) (.line .secondInput)

/-- Parts whose quotes are closed have had their texts passed on. -/
structure Through (ps : List Part) (log : Log) : Prop where
  closed : ∀ part ∈ ps, partEnding part = .plain
  passed : Passed (ps.flatMap partTexts) log

/-- A part fails: in its text, or, when that has been passed on, as a redirection. -/
inductive Stops (part : Part) : Log → Failure → Prop where
  | broken {log : Log} {e : Failure} (breaks : Breaks (partTexts part) (partEnding part) log e) :
      Stops part log e
  | refused {log : Log} {e : Failure} (closed : partEnding part = .plain)
      (passed : Passed (partTexts part) log) (refusal : Refusal part e) : Stops part log e

/-- One of several parts fails, and those before it have had their texts passed on. -/
inductive StopsIn (ps : List Part) : Log → Failure → Prop where
  | intro {before later : List Part} {part : Part} {log last : Log} {e : Failure}
      (split : ps = before ++ part :: later) (through : Through before log)
      (stops : Stops part last e) : StopsIn ps (log ++ last) e

theorem Through.append {ps ps' : List Part} {log new : Log} (through : Through ps log)
    (later : Through ps' new) : Through (ps ++ ps') (log ++ new) where
  closed := List.forall_mem_append.mpr ⟨through.closed, later.closed⟩
  passed := by
    rw [List.flatMap_append]
    exact through.passed.append later.passed

theorem through_nil : Through [] [] := ⟨by simp, passed_nil⟩

section Calls

variable (run : Substitution)

/-- The texts of several parts are passed on. -/
def Course.parts (ps : List Part) : Course where
  endless := ∃ text ∈ ps.flatMap partTexts, Endless run text
  done := Through ps
  stops := StopsIn ps

/-- A redirection is refused, or nothing happens. -/
def Course.refusal (part : Part) : Course where
  endless := False
  done log := log = []
  stops log e := log = [] ∧ Refusal part e

theorem Course.parts_andThen_parts (ps ps' : List Part) :
    ((Course.parts run ps).andThen (.parts run ps')).Within (.parts run (ps ++ ps')) where
  endless := by
    rintro (⟨text, held, endless⟩ | ⟨text, held, endless⟩)
    · exact ⟨text, by simp only [List.flatMap_append, List.mem_append, held, true_or], endless⟩
    · exact ⟨text, by simp only [List.flatMap_append, List.mem_append, held, or_true], endless⟩
  done := by
    rintro _ ⟨before, new, rfl, through, later⟩
    exact through.append later
  stops := by
    rintro _ e (⟨rfl, through, stops⟩ | ⟨before, new, rfl, through, ⟨rfl, later, stops⟩⟩)
    · exact .intro (by rw [List.append_assoc, List.cons_append]) through stops
    · rw [← List.append_assoc before]
      exact .intro (List.append_assoc ..).symm (through.append later) stops

theorem Course.token_within_parts (part : Part) :
    ((Course.token run (partTexts part) (partEnding part)).andThen (.refusal part)).Within
      (.parts run [part]) where
  endless := by
    intro endless
    simpa [Course.andThen, Course.parts, Course.token, Course.refusal] using endless
  done := by
    rintro _ ⟨log, _, rfl, ⟨closed, passed⟩, rfl⟩
    exact ⟨by simpa using closed, by simpa using passed⟩
  stops := by
    rintro _ e (breaks | ⟨log, _, rfl, ⟨closed, passed⟩, rfl, refusal⟩)
    · exact .intro (List.nil_append _).symm through_nil (.broken breaks)
    · rw [List.append_nil]
      exact .intro (List.nil_append _).symm through_nil (.refused closed passed refusal)

theorem Course.refusal_andThen_refusal (part : Part) :
    ((Course.refusal part).andThen (.refusal part)).Within (.refusal part) where
  endless := by simp [Course.andThen, Course.refusal]
  done := by
    rintro _ ⟨_, _, rfl, rfl, rfl⟩
    rfl
  stops := by
    rintro _ e (here | ⟨_, _, rfl, rfl, here⟩)
    · exact here
    · exact here

theorem Course.within_andThen_refusal (c : Course) (part : Part) :
    c.Within (c.andThen (.refusal part)) where
  endless := .inl
  done log done := ⟨log, [], (List.append_nil log).symm, done, rfl⟩
  stops _ _ := .inl

theorem follows_soleName (sign : Token.Redirect) (operand : String) (words : List String) :
    Follows (.refusal (.redirect sign operand)) (soleName operand words : Logged String) := by
  unfold soleName
  split
  · split
    · exact follows_throw ⟨rfl, .fault nofun⟩
    · exact follows_pure _ rfl
  · exact follows_throw ⟨rfl, .fault nofun⟩

theorem follows_add (r : Redirection) (sign : Token.Redirect) (operand name : String) :
    Follows (.refusal (.redirect sign operand)) (keep (r.add sign name)) := by
  refine follows_keep fun s => ?_
  by_cases second : sign = .input ∧ r.input.isSome
  · obtain ⟨rfl, bound⟩ := second
    simp only [Redirection.add, bound]
    exact ⟨rfl, .second⟩
  rw [start_add second]
  by_cases dir : s.disk.isDir (Path.resolve s.cwd name)
  · rw [if_pos dir]
    exact ⟨rfl, .fault fun _ same => by cases same⟩
  · rw [if_neg dir]
    cases opens sign s.disk (Path.resolve s.cwd name) with
    | ok id => rfl
    | error e =>
      refine ⟨rfl, .fault fun sign same => ?_⟩
      unfold unopenedFault at same
      split at same <;> cases same

/-- Prepares a call, with a log of the texts passed on. -/
def prepareLogged (tokens : List String) : Logged (Redirection × List String) :=
  prepareWith (logged run) look (fun r sign name => keep (r.add sign name)) tokens

/-- Adds a part, with a log of the texts passed on. -/
def attachLogged (r : Redirection) (part : Part) : Logged Redirection :=
  attach (Word.expand (logged run) look) (fun r sign name => keep (r.add sign name)) r part

/-- The redirections among the parts pass their operands' texts on. -/
theorem follows_foldlM (ps : List Part) (r : Redirection) :
    Follows (.parts run (ps.filter Part.isRedirection)) (ps.foldlM (attachLogged run) r) := by
  induction ps generalizing r with
  | nil => exact follows_pure _ through_nil
  | cons part ps ih =>
    rw [List.foldlM_cons]
    -- A word is only set aside.
    cases part with
    | word token =>
      exact ih _
    | lone sign =>
      refine follows_throw ?_
      exact .intro (List.nil_append _).symm through_nil (.refused rfl passed_nil .missing)
    | redirect sign operand =>
      refine (Follows.bind ?_ fun _ _ _ _ _ _ => ih _).within
        (Course.parts_andThen_parts run [.redirect sign operand] _)
      refine ((follows_expand run operand).bind fun _ _ words _ _ _ => ?_).within
        (Course.token_within_parts run (.redirect sign operand))
      exact ((follows_soleName sign operand words).bind fun _ _ name _ _ _ =>
        follows_add r sign operand name).within (Course.refusal_andThen_refusal _)

theorem follows_expandAll (tokens : List String) :
    Follows (.parts run (tokens.map .word)) (Word.expandAll (logged run) look tokens) := by
  induction tokens with
  | nil => exact follows_pure _ through_nil
  | cons token tokens ih =>
    have first : Follows (.parts run [.word token]) (Word.expand (logged run) look token) :=
      ((follows_expand run token).within (Course.within_andThen_refusal _ (.word token))).within
        (Course.token_within_parts run (.word token))
    refine (first.bind fun _ _ found _ _ _ => ?_).within (Course.parts_andThen_parts run _ _)
    exact (ih.bind fun _ _ _ _ _ _ => follows_pure _ rfl).within (Course.andThen_quiet _)

theorem foldlM_tracks (ps : List Part) (r : Redirection) :
    Tracks (ps.foldlM (attachLogged run) r)
      (ps.foldlM (attach (Word.expand run Shell.glob) Redirection.add) r) := by
  induction ps generalizing r with
  | nil => exact .pure _
  | cons part ps ih =>
    rw [List.foldlM_cons, List.foldlM_cons]
    refine .bind ?_ ih
    cases part with
    | word token => exact .pure _
    | lone sign => exact .throw _
    | redirect sign operand =>
      refine .bind (expand_tracks run operand) fun words => .bind ?_ fun name => .keep _
      match words with
      | [] | _ :: _ :: _ => exact .throw _
      | [name] => exact .ite (.throw _) (.pure _)

theorem prepareLogged_tracks (tokens : List String) :
    Tracks (prepareLogged run tokens)
      (prepareWith run Shell.glob Redirection.add tokens) :=
  .bind (foldlM_tracks run _ _) fun r => .bind (expandAll_tracks run r.rest) fun _ => .pure _

/-- The parts of a call in the order in which their texts are passed on. -/
def schedule (tokens : List String) : List Part :=
  redirectionsOf tokens ++ (wordsOf tokens).map .word

theorem follows_prepare (tokens : List String) :
    Follows (.parts run (schedule tokens)) (prepareLogged run tokens) := by
  refine ((follows_foldlM run _ _).bind fun log s r log' s' ran => ?_).within
    (Course.parts_andThen_parts run _ _)
  -- The words left are known from the run without a log.
  have ended := (foldlM_tracks run (parts tokens) {}).forget log s
  rw [ran] at ended
  obtain ⟨openings, -, -, rfl⟩ := foldlM_attach_ok ended.symm
  rw [foldl_bindFile]
  exact ((follows_expandAll run _).bind fun _ _ _ _ _ _ => follows_pure _ rfl).within
    (Course.andThen_quiet _)

end Calls

/-- The texts that a call passes on while it is prepared are those in back quotes in
its redirections and then in its words, each once and in order, up to the first
part that fails. -/
theorem texts_are_passed_once_in_order (run : Substitution) (tokens : List String)
    (s : Session) :
    ((prepareLogged run tokens).start [] s).map (fun ended => (ended.1.1, ended.2)) =
        Act.start (do
          let r ← Redirection.extract (Word.expand run Shell.glob) tokens
          let words ← Word.expandAll run Shell.glob r.rest
          return (r, words)) s ∧
      match (prepareLogged run tokens).start [] s with
      | none => ∃ text ∈ (schedule tokens).flatMap partTexts, Endless run text
      | some ((.ok _, log), _) => Through (schedule tokens) log
      | some ((.error e, log), _) => StopsIn (schedule tokens) log e := by
  refine ⟨?_, ?_⟩
  · rw [(prepareLogged_tracks run tokens).forget, prepareWith_eq]
  · have follows := follows_prepare run tokens [] s
    generalize (prepareLogged run tokens).start [] s = ended at follows
    rcases ended with _ | ⟨⟨e | prepared, log⟩, s'⟩
    · exact follows
    · obtain ⟨new, rfl, stops⟩ := follows
      exact stops
    · obtain ⟨new, rfl, through⟩ := follows
      exact through

-- An operand's text is passed before those of the words, and none in single quotes.
example : ((prepareLogged (fun text => pure text) ["echo", "`a`'`b`'\"`c`\"", ">", "`f`"]).start
    [] {}).map (·.1.2) = some [("f", .ok "f"), ("a", .ok "a"), ("c", .ok "c")] := by
  decide +kernel

end LineShell.PassedTexts
