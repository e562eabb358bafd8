import LineShell.Proofs.ApplicationAgreement
import LineShell.Proofs.TokenRegions
import LineShell.Shell.Evaluate

/-! No command tells related sessions apart. Expansion runs the texts in back
quotes of the tokens and nothing else, redirections open what the signs among the
tokens say, and all that a call, a pipe or a sequence does besides is kept by
every bond of sessions that look alike. So two evaluations agree in a bond as soon
as the applications and the texts in back quotes do. -/
namespace LineShell.EvaluationAgreement
open StepAgreement SessionBonds ApplicationAgreement TokenRegions

variable {K inner : Bond} {run run' : Substitution}

/-! Expansion of words. -/

theorem glob_agrees (like : K.Like) (journal : JournalFree K.Rel) (word : List Symbol) :
    K.Agrees (Shell.glob word) (Shell.glob word) := by
  refine .bind (.view fun s t rel => ?_) fun found => ?_
  · rw [like.disk rel, like.cwd rel]
  · dsimp only
    split
    · exact .bind (.note journal _ _) fun _ => .pure _
    · exact .pure _

theorem scan_agrees (q : Quote) (command : List Char) (draft : Word.Draft) (cs : List Char)
    (runs : ∀ text ∈ regionsFrom q command cs, K.Agrees (run text) (run' text)) :
    K.Agrees (Word.scan run q command draft cs) (Word.scan run' q command draft cs) := by
  induction cs generalizing q command draft with
  | nil => exact .ite (.pure _) (.throw rfl)
  | cons c cs ih =>
    simp only [regionsFrom] at runs
    cases inside : q.isBack with
    | false =>
      obtain ⟨draft', scanned⟩ := scan_outside inside c command draft cs
      rw [scanned, scanned]
      exact ih _ _ _ (by simpa [inside] using runs)
    | true =>
      by_cases closes : c = Quote.backMark
      · subst closes
        obtain ⟨add, scanned⟩ := scan_close inside command draft cs
        rw [scanned, scanned]
        rw [inside, if_pos rfl, if_pos rfl, List.forall_mem_cons] at runs
        exact .bind runs.1 fun _ => ih _ _ _ runs.2
      · rw [scan_inside inside closes, scan_inside inside closes]
        exact ih _ _ _ (by simpa [inside, closes, step_of_isBack inside closes] using runs)

theorem lookUp_agrees (like : K.Like) (journal : JournalFree K.Rel) (words : List (List Symbol)) :
    K.Agrees (Word.lookUp Shell.glob words) (Word.lookUp Shell.glob words) := by
  induction words with
  | nil => exact .pure _
  | cons word words ih =>
    have rest (found : List String) :=
      Bond.Agrees.bind ih fun later => .pure (ε := Failure) (found ++ later)
    exact .ite (.bind (glob_agrees like journal word) rest) (.bind (.pure _) rest)

theorem expand_agrees (like : K.Like) (journal : JournalFree K.Rel) {token : String}
    (runs : ∀ text ∈ regions token, K.Agrees (run text) (run' text)) :
    K.Agrees (Word.expand run Shell.glob token) (Word.expand run' Shell.glob token) :=
  .bind (scan_agrees _ _ _ _ runs) fun draft => lookUp_agrees like journal draft.words

theorem expandAll_agrees (like : K.Like) (journal : JournalFree K.Rel) {tokens : List String}
    (runs : ∀ token ∈ tokens, ∀ text ∈ regions token, K.Agrees (run text) (run' text)) :
    K.Agrees (Word.expandAll run Shell.glob tokens) (Word.expandAll run' Shell.glob tokens) := by
  induction tokens with
  | nil => exact .pure _
  | cons token tokens ih =>
    obtain ⟨first, others⟩ := List.forall_mem_cons.mp runs
    exact .bind (expand_agrees like journal first) fun _ => .bind (ih others) fun _ => .pure _

/-! Redirections. -/

/-- A token that is a sign for an output. -/
def Opens (token : String) : Prop :=
  Token.redirect? token = some .output ∨ Token.redirect? token = some .append

theorem openInput_agrees (like : K.Like) (name : String) :
    K.Agrees (Redirection.openInput name) (Redirection.openInput name) := by
  refine .bind (.resolve like.toLook name) fun p => .bind (view_disk like.toLook) fun d => .guard rfl ?_
  split
  · exact .pure _
  · exact .throw rfl

/-- An input that is opened is a file, and reading a file does not fail. -/
theorem openInput_fault {name : String} {source : Source}
    (given : Gives (Redirection.openInput name) source) : source.fault = none := by
  obtain ⟨p, -, given⟩ := gives_bind given
  obtain ⟨d, -, given⟩ := gives_bind given
  dsimp only at given
  split at given
  · obtain ⟨_, thrown, -⟩ := gives_bind given
    exact absurd thrown not_gives_throw
  · split at given
    · rw [gives_pure given]
      rfl
    · exact absurd given not_gives_throw

theorem openOutput_agrees (like : K.Like) (disks : DiskFree K.Rel) (name : String) (keep : Bool) :
    K.Agrees (Redirection.openOutput name keep) (Redirection.openOutput name keep) := by
  refine .bind (.resolve like.toLook name) fun p => .bind (view_disk like.toLook) fun d => .guard rfl ?_
  split
  · exact .bind (.change fun _ _ rel => disks rel _) fun _ => .pure _
  · exact .throw rfl

theorem openOutput_isFile {name : String} {keep : Bool} {sink : Sink}
    (given : Gives (Redirection.openOutput name keep) sink) : IsFile sink := by
  obtain ⟨p, -, given⟩ := gives_bind given
  obtain ⟨d, -, given⟩ := gives_bind given
  dsimp only at given
  split at given
  · obtain ⟨_, thrown, -⟩ := gives_bind given
    exact absurd thrown not_gives_throw
  · split at given
    · obtain ⟨_, -, given⟩ := gives_bind given
      rw [gives_pure given]
      exact ⟨_, _, rfl⟩
    · exact absurd given not_gives_throw

section Redirections

variable {Fit : String → Prop} {expand expand' : String → Act Failure (List String)}
  {r r' : Redirection}

/-- What the redirections among fit tokens leave: the other tokens, an input that
does not fail, and an output only where a token is a sign for one. -/
structure Prepared (Fit : String → Prop) (r : Redirection) : Prop where
  rest : ∀ token ∈ r.rest, Fit token
  input : ∀ source, r.input = some source → source.fault = none
  output : ∀ sink, r.output = some sink → IsFile sink ∧ ∃ token, Fit token ∧ Opens token

theorem operandName_agrees {operand : String}
    (expands : K.Agrees (expand operand) (expand' operand)) :
    K.Agrees (Redirection.operandName expand operand) (Redirection.operandName expand' operand) := by
  refine .bind expands fun words => ?_
  split
  · exact .ite (.throw rfl) (.pure _)
  · exact .throw rfl

theorem add_agrees (like : K.Like) {token : String} {sign : Token.Redirect}
    (read : Token.redirect? token = some sign) (disks : Opens token → DiskFree K.Rel)
    (r : Redirection) (name : String) : K.Agrees (r.add sign name) (r.add sign name) := by
  cases sign with
  | input => exact .guard rfl (.bind (openInput_agrees like name) fun _ => .pure _)
  | output => exact .bind (openOutput_agrees like (disks (.inl read)) name false) fun _ => .pure _
  | append => exact .bind (openOutput_agrees like (disks (.inr read)) name true) fun _ => .pure _

theorem add_prepared {token name : String} {sign : Token.Redirect}
    (read : Token.redirect? token = some sign) (fit : Fit token) (prepared : Prepared Fit r)
    (given : Gives (r.add sign name) r') : Prepared Fit r' := by
  cases sign with
  | input =>
    simp only [Redirection.add] at given
    split at given
    · obtain ⟨_, thrown, -⟩ := gives_bind given
      exact absurd thrown not_gives_throw
    · obtain ⟨source, opened, given⟩ := gives_bind given
      rw [gives_pure given]
      refine { prepared with input := ?_ }
      rintro _ ⟨⟩
      exact openInput_fault opened
  | output =>
    obtain ⟨sink, opened, given⟩ := gives_bind given
    rw [gives_pure given]
    refine { prepared with output := ?_ }
    rintro _ ⟨⟩
    exact ⟨openOutput_isFile opened, token, fit, .inl read⟩
  | append =>
    obtain ⟨sink, opened, given⟩ := gives_bind given
    rw [gives_pure given]
    refine { prepared with output := ?_ }
    rintro _ ⟨⟩
    exact ⟨openOutput_isFile opened, token, fit, .inr read⟩

theorem extractFrom_agrees (like : K.Like) :
    (tokens : List String) → (r : Redirection) →
      (∀ token ∈ tokens, K.Agrees (expand token) (expand' token)) →
      (∀ token ∈ tokens, Opens token → DiskFree K.Rel) →
      K.Agrees (Redirection.extractFrom expand r tokens) (Redirection.extractFrom expand' r tokens)
  | [], r, _, _ => .pure _
  | [token], r, _, _ => by
    unfold Redirection.extractFrom
    split
    · exact .pure _
    · exact .throw rfl
  | token :: operand :: tokens, r, expands, disks => by
    obtain ⟨-, expandsRest⟩ := List.forall_mem_cons.mp expands
    obtain ⟨disksHere, disksRest⟩ := List.forall_mem_cons.mp disks
    unfold Redirection.extractFrom
    split
    · exact extractFrom_agrees like (operand :: tokens) _ expandsRest disksRest
    · rename_i sign read
      obtain ⟨expandsOperand, expandsLater⟩ := List.forall_mem_cons.mp expandsRest
      refine .guard rfl (.bind (operandName_agrees expandsOperand) fun name => ?_)
      exact .bind (add_agrees like read disksHere r name) fun r =>
        extractFrom_agrees like tokens r expandsLater (List.forall_mem_cons.mp disksRest).2

theorem extractFrom_prepared :
    (tokens : List String) → (r : Redirection) → (∀ token ∈ tokens, Fit token) → Prepared Fit r →
      ∀ r', Gives (Redirection.extractFrom expand r tokens) r' → Prepared Fit r'
  | [], r, _, prepared, r', given => by
    rw [gives_pure given]
    exact { prepared with rest := fun token held => prepared.rest token (List.mem_reverse.mp held) }
  | [token], r, fits, prepared, r', given => by
    unfold Redirection.extractFrom at given
    split at given
    · rw [gives_pure given]
      refine { prepared with rest := fun other held => ?_ }
      rcases List.mem_cons.mp (List.mem_reverse.mp held) with rfl | held
      · exact fits _ List.mem_cons_self
      · exact prepared.rest other held
    · exact absurd given not_gives_throw
  | token :: operand :: tokens, r, fits, prepared, r', given => by
    obtain ⟨fit, later⟩ := List.forall_mem_cons.mp fits
    unfold Redirection.extractFrom at given
    split at given
    · refine extractFrom_prepared (operand :: tokens) _ later ?_ r' given
      exact { prepared with rest := List.forall_mem_cons.mpr ⟨fit, prepared.rest⟩ }
    · rename_i sign read
      split at given
      · obtain ⟨_, thrown, -⟩ := gives_bind given
        exact absurd thrown not_gives_throw
      · obtain ⟨name, -, given⟩ := gives_bind given
        obtain ⟨added, adds, given⟩ := gives_bind given
        exact extractFrom_prepared tokens added (List.forall_mem_cons.mp later).2
          (add_prepared read fit prepared adds) r' given

theorem extract_prepared {tokens : List String} (fits : ∀ token ∈ tokens, Fit token)
    (given : Gives (Redirection.extract expand tokens) r) : Prepared Fit r :=
  extractFrom_prepared tokens {} fits ⟨nofun, nofun, nofun⟩ r given

end Redirections

/-! Calls, stages and pipes. -/

/-- What it takes for the calls of a shell to agree in a bond, when their tokens
are fit: sessions that look alike, outputs of their own for stages and
substitutions, applications that agree, and, where a token may be a sign for an
output, a disk that may change. -/
structure Setting (sh : Shell) (Fit : String → Prop) (K inner : Bond) : Prop where
  like : K.Like
  journal : JournalFree K.Rel
  around : K.Around inner
  apps : ∀ app ∈ sh.applications, ∀ args, K.Agrees (app.run args) (app.run args)
  writes : ∀ token, Fit token → Opens token → K.Writes inner

/-- The texts in back quotes of fit tokens agree. -/
def Runs (Fit : String → Prop) (K : Bond) (run run' : Substitution) : Prop :=
  ∀ token, Fit token → ∀ text ∈ regions token, K.Agrees (run text) (run' text)

theorem find?_mem {sh : Shell} {name : String} {app : Application}
    (found : sh.find? name = some app) : app ∈ sh.applications := by
  simp only [Shell.find?, Option.filter_eq_some_iff, List.contains_eq_mem,
    decide_eq_true_eq] at found
  exact found.2

theorem launch_agrees (flush : K.Agrees Act.flush Act.flush) {app : Application}
    {args : List String} (agrees : K.Agrees (app.run args) (app.run args)) :
    K.Agrees (Shell.launch app args) (Shell.launch app args) := by
  refine .attempt_bind agrees fun result admitted =>
    .attempt_bind flush fun flushed passes => ?_
  split
  · exact .throw_borne (admitted _ rfl)
  · exact .throw_borne (passes _ rfl)
  · exact .pure _

section Evaluation

variable {sh : Shell} {Fit : String → Prop} (outside : Setting sh Fit K inner)
  (inside : Setting sh Fit inner inner) (runs : Runs Fit K run run')
  (innerRuns : Runs Fit inner run run')

include outside inside

theorem within_agrees {r : Redirection} {act act' : Act Failure Outcome} (prepared : Prepared Fit r)
    (agrees : K.Agrees act act') (innerAgrees : inner.Agrees act act') :
    K.Agrees (r.within act) (r.within act') := by
  obtain ⟨rest, input, output⟩ := r
  have fed {K inner : Bond} (setting : Setting sh Fit K inner) (agrees : K.Agrees act act') :
      K.Agrees (({ rest, input } : Redirection).within act)
        (({ rest, input } : Redirection).within act') := by
    cases input with
    | none => exact agrees
    | some source => exact .withInput setting.like.toLook (prepared.input source rfl) agrees
  cases output with
  | none => exact fed outside agrees
  | some sink =>
    obtain ⟨⟨id, pos, rfl⟩, token, fit, opens⟩ := prepared.output sink rfl
    exact .withOutput outside.around (outside.writes token fit opens) id pos (fed inside innerAgrees)

include runs

theorem call_agrees {c : Call} (fits : ∀ token ∈ c.tokens, Fit token) :
    K.Agrees (sh.call run c) (sh.call run' c) := by
  have extracts : K.Agrees (Redirection.extract (Word.expand run Shell.glob) c.tokens)
      (Redirection.extract (Word.expand run' Shell.glob) c.tokens) :=
    extractFrom_agrees outside.like _ _
      (fun token held => expand_agrees outside.like outside.journal (runs token (fits token held)))
      (fun token held opens => (outside.writes token (fits token held) opens).disks)
  refine .bind_given extracts fun r given => ?_
  have prepared := extract_prepared fits given
  refine .bind (expandAll_agrees outside.like outside.journal fun token held =>
    runs token (prepared.rest token held)) fun words => ?_
  cases words with
  | nil => exact .throw rfl
  | cons name args =>
    dsimp only
    cases found : sh.find? name with
    | none => exact .throw rfl
    | some app =>
      have member := find?_mem found
      exact .bind (.note outside.journal _ _) fun _ => within_agrees outside inside prepared
        (launch_agrees outside.like.flush (outside.apps app member args))
        (launch_agrees inside.like.flush (inside.apps app member args))

theorem stage_agrees {c : Call} (fits : ∀ token ∈ c.tokens, Fit token) :
    K.Agrees (sh.stage run c) (sh.stage run' c) := by
  refine .attempt_bind (call_agrees outside inside runs fits) fun result admitted =>
    .attempt_bind outside.like.flush fun flushed passes => ?_
  split
  · exact .ite (.pure _) (.throw_borne (passes _ rfl))
  · exact .ofExcept admitted

include innerRuns

theorem stages_agrees : (calls : List Call) → (∀ c ∈ calls, ∀ token ∈ c.tokens, Fit token) →
    K.Agrees (sh.stages run calls) (sh.stages run' calls)
  | [], _ => .pure _
  | [last], fits =>
    .attempt_bind (stage_agrees outside inside runs (fits last List.mem_cons_self)) fun _ _ => .pure _
  | c :: next :: rest, fits =>
    .collect_bind outside.around (stage_agrees inside inside innerRuns (fits c List.mem_cons_self))
      fun _ _ _ => .bind (.withInput outside.like.toLook rfl
        (stages_agrees (next :: rest) (List.forall_mem_cons.mp fits).2)) fun _ => .pure _

/-- No stage comes to an error that the bond rules out. -/
theorem stages_yields : (calls : List Call) → (∀ c ∈ calls, ∀ token ∈ c.tokens, Fit token) →
    K.Yields (fun results => ∀ result ∈ results, K.Admits result) (sh.stages run calls)
  | [], _ => .pure (by simp)
  | [last], fits =>
    have agrees := stage_agrees outside inside runs (fits last List.mem_cons_self)
    .bind (.attempt agrees) (.attempt agrees) fun _ admitted => .pure (by simpa using admitted)
  | c :: next :: rest, fits => by
    obtain ⟨first, others⟩ := List.forall_mem_cons.mp fits
    have agrees := stage_agrees inside inside innerRuns first
    refine .bind (.collect outside.around agrees) (.collect outside.around agrees)
      fun collected admitted => .bind (.withInput outside.like.toLook rfl
        (stages_agrees outside inside runs innerRuns (next :: rest) others))
        (.withInput outside.like.toLook rfl (stages_yields (next :: rest) others))
        fun later fine => .pure (List.forall_mem_cons.mpr ⟨admitted, fine⟩)

end Evaluation

theorem stageFailures_agrees (journal : JournalFree K.Rel) (i : Nat)
    (results : List (Except Failure Outcome)) :
    K.Agrees (Shell.stageFailures i results) (Shell.stageFailures i results) := by
  induction results generalizing i with
  | nil => exact .pure _
  | cons result results ih =>
    cases result with
    | ok outcome => exact ih (i + 1)
    | error e =>
      exact .ite (.bind (.note journal _ _) fun _ => ih (i + 1))
        (.bind (ih (i + 1)) fun _ => .pure _)

/-- The failures that count are errors of stages. -/
theorem stageFailures_mem {i : Nat} {results : List (Except Failure Outcome)}
    {failures : List Failure} (given : Gives (Shell.stageFailures i results) failures) :
    ∀ e ∈ failures, .error e ∈ results := by
  induction results generalizing i failures with
  | nil =>
    rw [gives_pure given]
    simp
  | cons result results ih =>
    intro e counts
    cases result with
    | ok outcome => exact List.mem_cons_of_mem _ (ih given e counts)
    | error e' =>
      unfold Shell.stageFailures at given
      split at given
      · obtain ⟨_, -, given⟩ := gives_bind given
        exact List.mem_cons_of_mem _ (ih given e counts)
      · obtain ⟨later, found, given⟩ := gives_bind given
        rw [gives_pure given] at counts
        rcases List.mem_cons.mp counts with rfl | counts
        · exact List.mem_cons_self
        · exact List.mem_cons_of_mem _ (ih found e counts)

/-- Reporting adds the failures, in order, and leaves all else as it was. -/
theorem start_reportAll (failures : List Failure) (s : Session) :
    ∃ journal, (Shell.reportAll failures).start s =
      some (.ok (), { s with reports := s.reports ++ failures, journal }) := by
  induction failures generalizing s with
  | nil => exact ⟨s.journal, by simp [Shell.reportAll]⟩
  | cons e rest ih =>
    simp only [Shell.reportAll, start_bind, start_report]
    obtain ⟨journal, reported⟩ := ih { s with
      journal := s.journal ++ [⟨.warn, e.message⟩], reports := s.reports ++ [e] }
    exact ⟨journal, by simp [reported]⟩

theorem reportAll_agrees (journal : JournalFree K.Rel) (reports : K.Reports)
    {failures : List Failure} (borne : ∀ e ∈ failures, K.Bears e) :
    K.Agrees (Shell.reportAll failures) (Shell.reportAll failures) := by
  induction failures with
  | nil => exact .pure _
  | cons e failures ih =>
    obtain ⟨first, others⟩ := List.forall_mem_cons.mp borne
    exact .bind (.report journal reports first) fun _ => ih others

theorem settleStages_agrees (journal : JournalFree K.Rel) (reports : K.Reports)
    {results : List (Except Failure Outcome)} (admitted : ∀ result ∈ results, K.Admits result) :
    K.Agrees (Shell.settle results) (Shell.settle results) := by
  refine .bind_given (stageFailures_agrees journal 0 results) fun failures given => ?_
  have borne (e : Failure) (counts : e ∈ failures) : K.Bears e :=
    admitted _ (stageFailures_mem given e counts) e rfl
  split
  · exact .bind (reportAll_agrees journal reports borne) fun _ => .pure _
  · exact .throw_borne (borne _ List.mem_cons_self)
  · exact .pure _

/-! Commands, and commands in back quotes. -/

theorem evaluateAll_agrees {sh : Shell} {commands : List Command} (journal : JournalFree K.Rel)
    (reports : K.Reports)
    (each : ∀ command ∈ commands, K.Agrees (sh.evaluate run command) (sh.evaluate run' command)) :
    K.Agrees (sh.evaluateAll run commands) (sh.evaluateAll run' commands) := by
  induction commands with
  | nil => exact .pure _
  | cons command rest ih =>
    obtain ⟨first, others⟩ := List.forall_mem_cons.mp each
    refine .attempt_bind first fun result admitted => ?_
    rcases result with e | _ | code
    · exact .bind (.report journal reports (admitted e rfl)) fun _ => ih others
    · exact ih others
    · exact .pure _

theorem evaluateInner_agrees {sh : Shell} {commands : List Command} (journal : JournalFree K.Rel)
    (reports : K.Reports)
    (each : ∀ command ∈ commands, K.Agrees (sh.evaluate run command) (sh.evaluate run' command))
    {held : Option Failure} (borne : ∀ e, held = some e → K.Bears e) :
    K.Agrees (sh.evaluateInner run held commands) (sh.evaluateInner run' held commands) := by
  induction commands generalizing held with
  | nil =>
    cases held with
    | none => exact .pure _
    | some e => exact .throw_borne (borne e rfl)
  | cons command rest ih =>
    obtain ⟨first, others⟩ := List.forall_mem_cons.mp each
    simp only [Shell.evaluateInner]
    refine .attempt_bind first fun result admitted => ?_
    rcases result with e | _ | code
    · cases held with
      | none =>
        refine ih others ?_
        rintro _ ⟨⟩
        exact admitted e rfl
      | some e' => exact .bind (.report journal reports (admitted e rfl)) fun _ => ih others borne
    · exact ih others borne
    · cases held with
      | none => exact .pure _
      | some e => exact .throw_borne (borne e rfl)

section Evaluation

variable {sh : Shell} {Fit : String → Prop} (outside : Setting sh Fit K inner)
  (inside : Setting sh Fit inner inner) (reports : K.Reports) (runs : Runs Fit K run run')
  (innerRuns : Runs Fit inner run run')

include outside inside reports runs innerRuns

theorem pipe_agrees {calls : List Call} (fits : ∀ c ∈ calls, ∀ token ∈ c.tokens, Fit token) :
    K.Agrees (sh.pipe run calls) (sh.pipe run' calls) := by
  match calls with
  | [] => exact .pure _
  | [c] => exact call_agrees outside inside runs (fits c List.mem_cons_self)
  | c :: next :: rest =>
    exact .bind_yields (stages_agrees outside inside runs innerRuns _ fits)
      (stages_yields outside inside runs innerRuns _ fits)
      fun results admitted => settleStages_agrees outside.journal reports admitted

theorem evaluate_agrees : (command : Command) → (∀ token ∈ tokensOf command, Fit token) →
    K.Agrees (sh.evaluate run command) (sh.evaluate run' command)
  | .call _, fits => call_agrees outside inside runs fits
  | .pipe _, fits =>
    pipe_agrees outside inside reports runs innerRuns fun _ member token held =>
      fits token (List.mem_flatMap_of_mem member held)
  | .sequence commands, fits =>
    evaluateAll_agrees outside.journal reports fun command member =>
      evaluate_agrees command fun token held =>
        fits token (mem_tokensOfAll.mpr ⟨command, member, held⟩)
termination_by command => sizeOf command
decreasing_by
  have less := List.sizeOf_lt_of_mem member
  simp only [Command.sequence.sizeOf_spec]
  omega

end Evaluation

theorem parse_agrees (journal : JournalFree K.Rel) (line : String) :
    K.Agrees (Shell.parse line) (Shell.parse line) := by
  unfold Shell.parse
  split
  · exact .throw rfl
  · exact .pure _
  · exact .bind (.note journal _ _) fun _ => .pure _

/-- Reading a line changes the journal only. -/
theorem start_parse {line : String} {command : Command} (read : Command.parse line = .ok command)
    (s : Session) : ∃ journal, (Shell.parse line).start s = some (.ok command, { s with journal }) := by
  obtain ⟨commands, rfl, -⟩ := LineLanguage.parse_parts read
  cases commands with
  | nil =>
    refine ⟨s.journal, ?_⟩
    simp only [Shell.parse, read]
    rfl
  | cons first rest =>
    simp only [Shell.parse, read]
    exact ⟨_, rfl⟩

/-- A step of a substitution: the output of a text, whose own texts in back quotes
are left to `deeper`. -/
def substituteOnce (sh : Shell) (deeper : Substitution) : Substitution := fun text => do
  let command ← Shell.parse text
  let (result, bytes) ← Act.collect <|
    Act.withInput .empty (sh.evaluateInner deeper none (Shell.elements command))
  Act.ofExcept result
  return Text.stringLossy bytes

theorem substitute_succ (sh : Shell) (left : Nat) :
    sh.substitute (left + 1) = substituteOnce sh (sh.substitute left) := rfl

theorem parse_given {line : String} {command : Command} (given : Gives (Shell.parse line) command) :
    Command.parse line = .ok command := by
  unfold Shell.parse at given
  split at given
  · exact absurd given not_gives_throw
  · rw [gives_pure given]
    assumption
  · obtain ⟨_, -, given⟩ := gives_bind given
    rw [gives_pure given]
    assumption

section Substitution

variable {sh : Shell} {Fit : String → Prop} (outside : Setting sh Fit K inner)
  (inside : Setting sh Fit inner inner) (reports : inner.Reports)

include outside inside reports

theorem substituteOnce_agrees (runs : Runs Fit inner run run') {text : String}
    (fits : ∀ command, Command.parse text = .ok command → ∀ token ∈ tokensOf command, Fit token) :
    K.Agrees (substituteOnce sh run text) (substituteOnce sh run' text) := by
  refine .bind_given (parse_agrees outside.journal text) fun command given => ?_
  have read := parse_given given
  obtain ⟨commands, rfl, -⟩ := LineLanguage.parse_parts read
  have each (command : Command) (member : command ∈ commands) :
      inner.Agrees (sh.evaluate run command) (sh.evaluate run' command) :=
    evaluate_agrees inside inside reports runs runs command fun token held =>
      fits _ read token (mem_tokensOfAll.mpr ⟨command, member, held⟩)
  exact .collect_bind outside.around
    (.withInput inside.like.toLook rfl (evaluateInner_agrees inside.journal reports each nofun))
    fun result bytes admitted => .bind (.ofExcept admitted) fun _ => .pure _

/-- Where a bond allows for substitutions that are too deep, those of a shell agree
at any number of levels. -/
theorem substitute_agrees (deep : inner.May .deep)
    (closed : ∀ token, Fit token → ∀ text ∈ regions token, ∀ command,
      Command.parse text = .ok command → ∀ token ∈ tokensOf command, Fit token) (left : Nat) :
    Runs Fit K (sh.substitute left) (sh.substitute left) := by
  have borne {K : Bond} (may : K.May .deep) : K.Bears (Failure.tooDeep sh.levels) := by
    rintro _ ⟨⟩
    exact may
  -- One level deeper the outputs are of the inner bond on both sides.
  induction left generalizing K with
  | zero => exact fun token fit text member => .throw_borne (borne (outside.around.may _ deep))
  | succ left ih =>
    intro token fit text member
    rw [substitute_succ]
    exact substituteOnce_agrees outside inside reports (ih inside) (closed token fit text member)

end Substitution

/-! Frames: relations that no command can see through or break. -/

section Frames

variable (frame : Frame K.Rel) (gone : K.May .gone) (endless : K.May .endless)

include frame gone endless

theorem frame_like : K.Like where
  disk := frame.like.disk
  cwd := frame.like.cwd
  input := frame.like.input
  fault := fun _ _ _ _ _ => bears_io fun _ => gone
  setInput := fun _ _ rel input _ => frame.like.setInput rel input
  write := fun bs => (agrees_iff (fun _ => bears_io fun _ => gone) endless).mpr (frame.like.write bs)
  flush := (agrees_iff (fun _ => bears_io fun _ => gone) endless).mpr frame.like.flush
  unfed := .inl endless

theorem frame_setting (sh : Shell) (Fit : String → Prop) : Setting sh Fit K K where
  like := frame_like frame gone endless
  journal := frame.journal
  around := {
    collect := fun _ _ rel => frame.outputs.replace rel _
    leave := fun _ _ _ _ rel rel' => frame.outputs.restore rel rel'
    taken := frame.outputs.taken
    may := fun _ may => may }
  apps := fun app _ args =>
    run_agrees (frame_like frame gone endless) frame.disks frame.cwds frame.journal endless app args
  writes := fun _ _ _ => ⟨frame.disks, fun _ _ rel _ _ => frame.outputs.replace rel _⟩

end Frames

/-- The two sessions are one, and its reports are as said. -/
def Reported (P : List Failure → Prop) (s t : Session) : Prop := s = t ∧ P s.reports

theorem reported_frame (P : List Failure → Prop) : Frame (Reported P) where
  like := {
    disk := by rintro s _ ⟨rfl, _⟩; rfl
    cwd := by rintro s _ ⟨rfl, _⟩; rfl
    input := by rintro s _ ⟨rfl, _⟩; rfl
    setInput := by rintro s _ ⟨rfl, said⟩ input; exact ⟨rfl, said⟩
    write := by
      rintro bs s _ ⟨rfl, said⟩
      simp only [Act.start, Act.write, ExceptT.run]
      split <;> exact .some ⟨rfl, rfl, said⟩
    flush := by
      rintro s _ ⟨rfl, said⟩
      simp only [Act.start, Act.flush, ExceptT.run]
      split <;> exact .some ⟨rfl, rfl, said⟩ }
  disks := by rintro s _ ⟨rfl, said⟩ disk; exact ⟨rfl, said⟩
  cwds := by rintro s _ ⟨rfl, said⟩ cwd; exact ⟨rfl, said⟩
  journal := by rintro s _ ⟨rfl, said⟩ record; exact ⟨rfl, said⟩
  outputs := {
    taken := by rintro s _ ⟨rfl, _⟩; rfl
    replace := by rintro s _ ⟨rfl, said⟩ output; exact ⟨rfl, said⟩
    restore := by rintro s _ s' _ ⟨rfl, _⟩ ⟨rfl, said⟩; exact ⟨rfl, said⟩ }

/-- Steps that agree from one and the same session are one step. -/
theorem eq_of_agrees {ε α : Type} [Fault ε] {act act' : Act ε α}
    (agrees : (Bond.free (Reported fun _ => True)).Agrees act act') : act = act' := by
  funext s
  have ends := agrees (⟨rfl, trivial⟩ : Reported (fun _ => True) s s)
  change act.start s = act'.start s
  generalize act.start s = left at ends ⊢
  generalize act'.start s = right at ends ⊢
  cases ends with
  | never => rfl
  | both _ same => rw [same.1]

/-! A pipe that does not end the session reports nothing. -/

/-- The two sessions are one, and it has these reports. -/
def Kept (reports : List Failure) (s t : Session) : Prop := s = t ∧ s.reports = reports

theorem kept_frame (reports : List Failure) : Frame (Kept reports) := reported_frame (· = reports)

/-- A step that agrees with itself on all sessions with the same reports makes no
report. -/
theorem reports_of_kept {α : Type} {act : Act Failure α} {s s' : Session} {result : Except Failure α}
    (agrees : ∀ reports, (Bond.free (Kept reports)).Agrees act act)
    (ran : act.start s = some (result, s')) : s'.reports = s.reports := by
  have ends := agrees s.reports ⟨rfl, rfl⟩
  rw [ran] at ends
  cases ends with
  | both _ kept => exact kept.2

theorem settle_silent {results : List (Except Failure Outcome)} {s s' : Session}
    {result : Except Failure Outcome} (ran : (Shell.settle results).start s = some (result, s'))
    (stays : ∀ code, result ≠ .ok (.exit code)) : s'.reports = s.reports := by
  have noted {failures s'} (found : (Shell.stageFailures 0 results).start s = some (failures, s')) :
      s'.reports = s.reports :=
    reports_of_kept (fun reports => stageFailures_agrees (kept_frame reports).journal 0 results) found
  rcases start_bind_eq_some_iff.mp ran with ⟨e, found, -⟩ | ⟨failures, s₁, found, settled⟩
  · exact noted found
  · cases exits : Shell.exitCode? results with
    | some code =>
      obtain ⟨journal, reported⟩ := start_reportAll failures s₁
      simp only [exits, start_bind, reported, start_pure] at settled
      cases settled
      exact absurd rfl (stays code)
    | none =>
      rw [exits] at settled
      cases failures with
      | nil => cases settled; exact noted found
      | cons e rest => cases settled; exact noted found

theorem pipe_silent {sh : Shell} {calls : List Call} {s s' : Session}
    {result : Except Failure Outcome}
    (silent : ∀ reports, Runs (fun _ => True) (.free (Kept reports)) run run)
    (ran : (sh.pipe run calls).start s = some (result, s'))
    (stays : ∀ code, result ≠ .ok (.exit code)) : s'.reports = s.reports := by
  have setting (reports : List Failure) :=
    frame_setting (K := .free (Kept reports)) (kept_frame reports) trivial trivial sh fun _ => True
  match calls with
  | [] =>
    cases ran
    rfl
  | [call] =>
    exact reports_of_kept (fun reports => call_agrees (setting reports) (setting reports)
      (silent reports) fun _ _ => trivial) ran
  | call :: next :: rest =>
    have quiet {results s'}
        (staged : (sh.stages run (call :: next :: rest)).start s = some (results, s')) :
        s'.reports = s.reports :=
      reports_of_kept (fun reports => stages_agrees (setting reports) (setting reports)
        (silent reports) (silent reports) _ fun _ _ _ _ => trivial) staged
    rcases start_bind_eq_some_iff.mp ran with ⟨e, staged, -⟩ | ⟨results, s₁, staged, settled⟩
    · exact quiet staged
    · exact (settle_silent settled stays).trans (quiet staged)

end LineShell.EvaluationAgreement
