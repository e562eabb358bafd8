import LineShell.Proofs.EvaluationAgreement
import LineShell.Shell.Concurrent

/-! Evaluation in turn beside evaluation at the same time. Both put together the same
steps in the same way, but for the stages of a pipe. So a relation between steps of a
session and runs holds between the two evaluations of a command if it holds of the
steps that evaluation is made of, and is kept by each way to put them together. -/
namespace LineShell.ConcurrentEvaluation
open StepAgreement SessionBonds EvaluationAgreement TokenRegions

/-- A step that evaluation is made of, where tokens are fit. In a run it is one access. -/
inductive Leaf (Fit : String → Prop) : {ε α : Type} → Act ε α → Prop where
  | note {ε : Type} (level : Level) (text : String) : Leaf Fit (Act.note level text : Act ε Unit)
  | report {ε : Type} (failure : Failure) : Leaf Fit (Act.report failure : Act ε Unit)
  | flush : Leaf Fit Act.flush
  | parse (line : String) : Leaf Fit (Shell.parse line)
  | glob (word : List Symbol) : Leaf Fit (Shell.glob word)
  | add {token : String} {sign : Token.Redirect} (fit : Fit token)
      (read : Token.redirect? token = some sign) (r : Redirection) (name : String) :
      Leaf Fit (r.add sign name)

/-- A relation between steps and runs, on an outlet, with what is known of the values that
are given. -/
abbrev Tie := Outlet → {ε α : Type} → Act ε α → Run ε α → (α → Prop) → Prop

/-- The stages of a pipe that come after a stage. -/
def Later (calls later : List Call) : Prop := later ≠ [] ∧ ∃ c, c :: later <:+ calls

/-- A stage and those after it, in turn. -/
def inTurn (act : Act Failure Outcome) (later : Act Failure (List (Except Failure Outcome))) :
    Act Failure (List (Except Failure Outcome)) := do
  let (result, bytes) ← Act.collect act
  let results ← Act.withInput (.stream bytes none) later
  return result :: results

theorem start_inTurn (act : Act Failure Outcome) (later : Act Failure (List (Except Failure Outcome)))
    (s : Session) :
    (inTurn act later).start s =
      match act.start { s with output := .unlimited } with
      | none => none
      | some (result, s₁) =>
        (later.start { s₁ with input := .stream s₁.output.taken none, output := s.output }).map
          fun ended => (ended.1.map (result :: ·), { ended.2 with input := s₁.input }) := by
  rw [inTurn, start_bind, start_collect]
  cases act.start { s with output := .unlimited } with
  | none => rfl
  | some ended =>
    simp only [Option.map_some, start_bind, start_withInput]
    cases later.start { ended.2 with
      input := .stream ended.2.output.taken none, output := s.output } with
    | none => rfl
    | some last => rcases last with ⟨_ | _, _⟩ <;> rfl

/-- What it takes for a relation to hold between the evaluations of fit tokens. Stages after
the first one are known to be `Good`. -/
structure Ties (sh : Shell) (Fit : String → Prop)
    (Good : Outlet → Act Failure (List (Except Failure Outcome)) → Prop) (R : Tie) : Prop where
  ofExcept : ∀ {o ε α} {result : Except ε α} {Q : α → Prop}, (∀ a, result = .ok a → Q a) →
    R o (Act.ofExcept result) (Run.ofExcept result) Q
  leaf : ∀ {o ε α} {act : Act ε α} {Q : α → Prop}, Leaf Fit act → (∀ a, Gives act a → Q a) →
    R o act (Run.access act) Q
  apps : ∀ {o app}, app ∈ sh.applications → ∀ args,
    R o (app.run args) (Concurrent.run app args) fun _ => True
  bind : ∀ {o ε α β} {act : Act ε α} {run : Run ε α} {next : α → Act ε β} {next' : α → Run ε β}
    {Q Q'}, R o act run Q → (∀ a, Q a → R o (next a) (next' a) Q') →
    R o (act >>= next) (run >>= next') Q'
  attempt : ∀ {o ε ε' α} {act : Act ε α} {run : Run ε α} {Q}, R o act run Q →
    R o (Act.attempt act : Act ε' (Except ε α)) (Run.attempt run) fun _ => True
  mapError : ∀ {o ε ε' α} {f : ε → ε'} {act : Act ε α} {run : Run ε α} {Q}, R o act run Q →
    R o (Act.mapError f act) (Run.mapError f run) fun _ => True
  withInput : ∀ {o ε α} {act : Act ε α} {run : Run ε α} {Q} input, R o act run Q →
    R o (Act.withInput input act) (Run.withInput input run) fun _ => True
  withOutput : ∀ {o ε α} {act : Act ε α} {run : Run ε α} {Q} output,
    (∃ token, Fit token ∧ Opens token) → R o act run Q →
    R o (Act.withOutput output act) (Run.withOutput output run) fun _ => True
  collect : ∀ {o ε ε' α} {act : Act ε α} {run : Run ε α} {Q}, R {} act run Q →
    R o (Act.collect act : Act ε' (Except ε α × Bytes)) (Run.collect run) fun _ => True
  beside : ∀ {o} {act : Act Failure Outcome} {run : Run Failure Outcome}
    {later : Act Failure (List (Except Failure Outcome))} {later'} {Q Q'}, R {} act run Q →
    R o later later' Q' → Good o later →
    R o (inTurn act later) (Run.beside run later') fun _ => True

/-- All stages that come after others in the pipes of a command are good. -/
inductive GoodPipes (Good : Outlet → Act Failure (List (Except Failure Outcome)) → Prop) (sh : Shell)
    (run : Substitution) (o : Outlet) : Command → Prop where
  | call (c : Call) : GoodPipes Good sh run o (.call c)
  | pipe {calls : List Call} (good : ∀ later, Later calls later → Good o (sh.stages run later)) :
      GoodPipes Good sh run o (.pipe calls)
  | sequence {commands : List Command}
      (each : ∀ command ∈ commands, GoodPipes Good sh run o command) :
      GoodPipes Good sh run o (.sequence commands)

/-- All stages that come after others are good: in the pipes of a command, and in those of
the commands in its back quotes, as deep as substitutions go. -/
def AllGood (Good : Outlet → Act Failure (List (Except Failure Outcome)) → Prop) (sh : Shell) :
    Nat → Outlet → Command → Prop
  | 0, o, command => GoodPipes Good sh (sh.substitute 0) o command
  | left + 1, o, command => GoodPipes Good sh (sh.substitute (left + 1)) o command ∧
    ∀ token ∈ tokensOf command, ∀ text ∈ regions token, ∀ inner, Command.parse text = .ok inner →
      AllGood Good sh left {} inner

variable {sh : Shell} {Fit : String → Prop}
  {Good : Outlet → Act Failure (List (Except Failure Outcome)) → Prop} {R : Tie}
  {run : Substitution} {run' : RunningSubstitution} {o : Outlet}

/-- Nothing is known of the values given. -/
abbrev Any {α : Type} : α → Prop := fun _ => True

/-- The commands in the back quotes of fit tokens have fit tokens. -/
def Closed (Fit : String → Prop) : Prop :=
  ∀ token, Fit token → ∀ text ∈ regions token, ∀ command, Command.parse text = .ok command →
    ∀ token ∈ tokensOf command, Fit token

/-- What is known of the tokens of a command: they are fit, and the runs of the texts in their
back quotes are tied on every outlet. -/
def Known (Fit : String → Prop) (R : Tie) (run : Substitution) (run' : RunningSubstitution)
    (token : String) : Prop :=
  Fit token ∧ ∀ text ∈ regions token, ∀ o, R o (run text) (run' text) Any

theorem goodPipes_of_allGood {left : Nat} {command : Command} (good : AllGood Good sh left o command) :
    GoodPipes Good sh (sh.substitute left) o command := by
  cases left with
  | zero => exact good
  | succ left => exact good.1

/-- Where nothing is asked of stages, they are good. -/
theorem goodPipes_of_forall (good : ∀ o act, Good o act) (run : Substitution) (o : Outlet)
    (command : Command) : GoodPipes Good sh run o command := by
  cases command with
  | call c => exact .call c
  | pipe calls => exact .pipe fun _ _ => good _ _
  | sequence commands => exact .sequence fun inner _ => goodPipes_of_forall good run o inner

theorem allGood_of_forall (good : ∀ o act, Good o act) (left : Nat) (o : Outlet)
    (command : Command) : AllGood Good sh left o command := by
  induction left generalizing o command with
  | zero => exact goodPipes_of_forall good _ _ _
  | succ left ih => exact ⟨goodPipes_of_forall good _ _ _, fun _ _ _ _ inner _ => ih {} inner⟩

namespace Ties

theorem ite {ε α : Type} {c : Prop} [Decidable c] {act other : Act ε α} {run other' : Run ε α}
    {Q : α → Prop} (yes : R o act run Q) (no : R o other other' Q) :
    R o (if c then act else other) (if c then run else other') Q := by
  split
  · exact yes
  · exact no

variable (ties : Ties sh Fit Good R)

include ties

theorem pure {ε α : Type} {a : α} {Q : α → Prop} (known : Q a) :
    R o (Pure.pure a : Act ε α) (Pure.pure a) Q :=
  ties.ofExcept (by rintro _ ⟨⟩; exact known)

theorem throw {ε α : Type} {e : ε} {Q : α → Prop} :
    R o (MonadExcept.throw e : Act ε α) (MonadExcept.throw e) Q :=
  ties.ofExcept nofun

theorem note {ε : Type} (level : Level) (text : String) :
    R o (Act.note level text : Act ε Unit) (Run.access (Act.note level text)) Any :=
  ties.leaf (.note level text) fun _ _ => trivial

theorem report {ε : Type} (failure : Failure) :
    R o (Act.report failure : Act ε Unit) (Run.access (Act.report failure)) Any :=
  ties.leaf (.report failure) fun _ _ => trivial

theorem flush : R o Act.flush (Run.access Act.flush) Any := ties.leaf .flush fun _ _ => trivial

/-! Words. -/

theorem scan (q : Quote) (command : List Char) (draft : Word.Draft) (cs : List Char)
    (runs : ∀ text ∈ regionsFrom q command cs, R o (run text) (run' text) Any) :
    R o (Word.scan run q command draft cs) (Word.scan run' q command draft cs) Any := by
  induction cs generalizing q command draft with
  | nil =>
    unfold Word.scan
    split
    · exact ties.pure trivial
    · exact ties.throw
  | cons c cs ih =>
    simp only [regionsFrom] at runs
    cases inside : q.isBack with
    | false =>
      obtain ⟨draft', scanned⟩ := scan_outside inside c command draft cs
      rw [scanned, scanned]
      exact ih _ _ _ (by simpa [inside] using runs)
    | true =>
      by_cases closes : c = Quote.backMark
      · subst closes
        obtain ⟨add, scanned⟩ := scan_close inside command draft cs
        rw [scanned, scanned]
        rw [inside, if_pos rfl, if_pos rfl, List.forall_mem_cons] at runs
        exact ties.bind runs.1 fun _ _ => ih _ _ _ runs.2
      · rw [scan_inside inside closes, scan_inside inside closes]
        exact ih _ _ _ (by simpa [inside, closes, step_of_isBack inside closes] using runs)

theorem lookUp (words : List (List Symbol)) :
    R o (Word.lookUp Shell.glob words) (Word.lookUp Concurrent.glob words) Any := by
  induction words with
  | nil => exact ties.pure trivial
  | cons word words ih =>
    have rest (found : List String) :
        R o (do return found ++ (← Word.lookUp Shell.glob words))
          (do return found ++ (← Word.lookUp Concurrent.glob words)) Any :=
      ties.bind ih fun _ _ => ties.pure trivial
    unfold Word.lookUp
    split
    · exact ties.bind (ties.leaf (.glob word) fun _ _ => trivial) fun found (_ : Any found) =>
        rest found
    · exact ties.bind (ties.pure trivial) fun found (_ : Any found) => rest found

theorem expand {token : String} (runs : ∀ text ∈ regions token, R o (run text) (run' text) Any) :
    R o (Word.expand run Shell.glob token) (Word.expand run' Concurrent.glob token) Any :=
  ties.bind (ties.scan _ _ _ _ runs) fun draft _ => ties.lookUp draft.words

theorem expandAll {tokens : List String}
    (runs : ∀ token ∈ tokens, ∀ text ∈ regions token, R o (run text) (run' text) Any) :
    R o (Word.expandAll run Shell.glob tokens) (Word.expandAll run' Concurrent.glob tokens) Any := by
  induction tokens with
  | nil => exact ties.pure trivial
  | cons token tokens ih =>
    obtain ⟨first, others⟩ := List.forall_mem_cons.mp runs
    exact ties.bind (ties.expand first) fun _ _ =>
      ties.bind (ih others) fun _ _ => ties.pure trivial

/-! Calls. -/

/-- A step that may stop with an error before it goes on. -/
theorem guard {ε α γ : Type} {c : Prop} [Decidable c] {e : ε} {k : γ → Act ε α} {k' : γ → Run ε α}
    {act : Act ε α} {run : Run ε α} {Q : α → Prop} (goesOn : R o act run Q) :
    R o (if c then (MonadExcept.throw e : Act ε γ) >>= k else act)
      (if c then (MonadExcept.throw e : Run ε γ) >>= k' else run) Q :=
  ite (ties.bind (ties.throw (Q := fun _ => False)) fun _ never => never.elim) goesOn

theorem operandName {expand : String → Act Failure (List String)}
    {expand' : String → Run Failure (List String)} {operand : String}
    (expands : R o (expand operand) (expand' operand) Any) :
    R o (Redirection.operandName expand operand) (Concurrent.operandName expand' operand) Any := by
  refine ties.bind expands fun words _ => ?_
  match words with
  | [name] => exact ite ties.throw (ties.pure trivial)
  | [] => exact ties.throw
  | _ :: _ :: _ => exact ties.throw

/-- The redirections are taken out, and what is left is of fit tokens. -/
theorem extractFrom {expand : String → Act Failure (List String)}
    {expand' : String → Run Failure (List String)} {Fits : String → Prop}
    (fit : ∀ token, Fits token → Fit token)
    (expands : ∀ token, Fits token → R o (expand token) (expand' token) Any) :
    (tokens : List String) → (r : Redirection) → (∀ token ∈ tokens, Fits token) →
      Prepared Fits r →
      R o (Redirection.extractFrom expand r tokens) (Concurrent.extractFrom expand' r tokens)
        (Prepared Fits)
  | [], r, _, prepared => ties.pure
    { prepared with rest := fun token held => prepared.rest token (List.mem_reverse.mp held) }
  | [token], r, fits, prepared => by
    unfold Redirection.extractFrom Concurrent.extractFrom
    cases Token.redirect? token with
    | none =>
      refine ties.pure { prepared with rest := fun other held => ?_ }
      rcases List.mem_cons.mp (List.mem_reverse.mp held) with rfl | held
      · exact fits _ List.mem_cons_self
      · exact prepared.rest other held
    | some sign => exact ties.throw
  | token :: operand :: tokens, r, fits, prepared => by
    obtain ⟨first, others⟩ := List.forall_mem_cons.mp fits
    obtain ⟨second, rest⟩ := List.forall_mem_cons.mp others
    unfold Redirection.extractFrom Concurrent.extractFrom
    cases read : Token.redirect? token with
    | none =>
      refine extractFrom fit expands (operand :: tokens) _ others ?_
      exact { prepared with rest := List.forall_mem_cons.mpr ⟨first, prepared.rest⟩ }
    | some sign =>
      refine ties.guard (ties.bind (ties.operandName (expands operand second)) fun name _ => ?_)
      exact ties.bind (ties.leaf (.add (fit token first) read r name) fun r' =>
        add_prepared read first prepared) fun r' prepared' =>
          extractFrom fit expands tokens r' rest prepared'

theorem within {r : Redirection} {act : Act Failure Outcome} {run : Run Failure Outcome}
    (opens : ∀ sink, r.output = some sink → ∃ token, Fit token ∧ Opens token)
    (tied : R o act run Any) : R o (r.within act) (Concurrent.within r run) Any := by
  obtain ⟨rest, input, output⟩ := r
  have fed : R o (({ rest, input } : Redirection).within act)
      (Concurrent.within { rest, input } run) Any := by
    cases input with
    | none => exact tied
    | some input => exact ties.withInput input tied
  cases output with
  | none => exact fed
  | some output => exact ties.withOutput output (opens output rfl) fed

theorem launch {app : Application} (member : app ∈ sh.applications) (args : List String) :
    R o (Shell.launch app args) (Concurrent.launch app args) Any := by
  refine ties.bind (ties.attempt (ties.apps member args)) fun result _ =>
    ties.bind (ties.attempt ties.flush) fun flushed _ => ?_
  match result, flushed with
  | .error _, _ => exact ties.throw
  | .ok _, .error _ => exact ties.throw
  | .ok _, .ok _ => exact ties.pure trivial

theorem call {c : Call} (known : ∀ token ∈ c.tokens, Known Fit R run run' token) :
    R o (sh.call run c) (Concurrent.call sh run' c) Any := by
  have expands (token : String) (known : Known Fit R run run' token) :
      R o (Word.expand run Shell.glob token) (Word.expand run' Concurrent.glob token) Any :=
    ties.expand fun text member => known.2 text member o
  refine ties.bind (ties.extractFrom (fun _ known => known.1) expands c.tokens {} known
    ⟨nofun, nofun, nofun⟩) fun r prepared => ?_
  refine ties.bind (ties.expandAll fun token held text member =>
    (prepared.rest token held).2 text member o) fun words _ => ?_
  cases words with
  | nil => exact ties.throw
  | cons name args =>
    dsimp only
    cases found : sh.find? name with
    | none => exact ties.throw
    | some app =>
      refine ties.bind (ties.note _ _) fun _ _ =>
        ties.within (fun sink opened => ?_) (ties.launch (find?_mem found) args)
      obtain ⟨-, token, known, opens⟩ := prepared.output sink opened
      exact ⟨token, known.1, opens⟩

theorem stage {c : Call} (known : ∀ token ∈ c.tokens, Known Fit R run run' token) :
    R o (sh.stage run c) (Concurrent.stage sh run' c) Any := by
  refine ties.bind (ties.attempt (ties.call known)) fun result _ =>
    ties.bind (ties.attempt ties.flush) fun flushed _ => ?_
  match result, flushed with
  | .ok _, .error _ => exact ite (ties.pure trivial) ties.throw
  | .ok _, .ok _ => exact ties.ofExcept fun _ _ => trivial
  | .error _, _ => exact ties.ofExcept fun _ _ => trivial

theorem stages : (calls : List Call) →
    (∀ c ∈ calls, ∀ token ∈ c.tokens, Known Fit R run run' token) →
    (∀ later, Later calls later → Good o (sh.stages run later)) →
    R o (sh.stages run calls) (Concurrent.stages sh run' calls) Any
  | [], _, _ => ties.pure trivial
  | [last], known, _ =>
    ties.bind (ties.attempt (ties.stage (known last List.mem_cons_self))) fun _ _ => ties.pure trivial
  | c :: next :: rest, known, good => by
    obtain ⟨first, others⟩ := List.forall_mem_cons.mp known
    refine ties.beside (ties.stage first) (stages (next :: rest) others ?_)
      (good (next :: rest) ⟨List.cons_ne_nil _ _, c, List.suffix_refl _⟩)
    rintro later ⟨some, before, follows⟩
    exact good later ⟨some, before, follows.trans (List.suffix_cons _ _)⟩

/-! Pipes and commands. -/

theorem stageFailures (i : Nat) (results : List (Except Failure Outcome)) :
    R o (Shell.stageFailures i results) (Concurrent.stageFailures i results) Any := by
  induction results generalizing i with
  | nil => exact ties.pure trivial
  | cons result results ih =>
    cases result with
    | ok outcome => exact ih (i + 1)
    | error e =>
      exact ite (ties.bind (ties.note _ _) fun _ _ => ih (i + 1))
        (ties.bind (ih (i + 1)) fun _ _ => ties.pure trivial)

theorem reportAll (failures : List Failure) :
    R o (Shell.reportAll failures) (Concurrent.reportAll failures) Any := by
  induction failures with
  | nil => exact ties.pure trivial
  | cons e failures ih => exact ties.bind (ties.report e) fun _ _ => ih

theorem settle (results : List (Except Failure Outcome)) :
    R o (Shell.settle results) (Concurrent.settle results) Any := by
  refine ties.bind (ties.stageFailures 0 results) fun failures _ => ?_
  match Shell.exitCode? results, failures with
  | some code, _ => exact ties.bind (ties.reportAll _) fun _ _ => ties.pure trivial
  | none, e :: _ => exact ties.throw
  | none, [] => exact ties.pure trivial

theorem pipe {calls : List Call} (known : ∀ c ∈ calls, ∀ token ∈ c.tokens, Known Fit R run run' token)
    (good : ∀ later, Later calls later → Good o (sh.stages run later)) :
    R o (sh.pipe run calls) (Concurrent.pipe sh run' calls) Any := by
  match calls with
  | [] => exact ties.pure trivial
  | [c] => exact ties.call (known c List.mem_cons_self)
  | c :: next :: rest => exact ties.bind (ties.stages _ known good) fun results _ => ties.settle results

theorem evaluateAll {commands : List Command}
    (each : ∀ command ∈ commands,
      R o (sh.evaluate run command) (Concurrent.evaluate sh run' command) Any) :
    R o (sh.evaluateAll run commands) (Concurrent.evaluateAll sh run' commands) Any := by
  induction commands with
  | nil => exact ties.pure trivial
  | cons command rest ih =>
    obtain ⟨first, others⟩ := List.forall_mem_cons.mp each
    refine ties.bind (ties.attempt first) fun result _ => ?_
    rcases result with e | _ | code
    · exact ties.bind (ties.report e) fun _ _ => ih others
    · exact ih others
    · exact ties.pure trivial

theorem evaluateInner {commands : List Command} {held : Option Failure}
    (each : ∀ command ∈ commands,
      R o (sh.evaluate run command) (Concurrent.evaluate sh run' command) Any) :
    R o (sh.evaluateInner run held commands) (Concurrent.evaluateInner sh run' held commands) Any := by
  induction commands generalizing held with
  | nil =>
    cases held with
    | none => exact ties.pure trivial
    | some e => exact ties.throw
  | cons command rest ih =>
    obtain ⟨first, others⟩ := List.forall_mem_cons.mp each
    simp only [Shell.evaluateInner, Concurrent.evaluateInner]
    refine ties.bind (ties.attempt first) fun result _ => ?_
    rcases result with e | _ | code
    · cases held with
      | none => exact ih others
      | some e' => exact ties.bind (ties.report e) fun _ _ => ih others
    · exact ih others
    · cases held with
      | none => exact ties.pure trivial
      | some e => exact ties.throw

theorem evaluate {command : Command} (good : GoodPipes Good sh run o command)
    (known : ∀ token ∈ tokensOf command, Known Fit R run run' token) :
    R o (sh.evaluate run command) (Concurrent.evaluate sh run' command) Any := by
  induction good with
  | call c => exact ties.call known
  | pipe good =>
    exact ties.pipe (fun c member token held => known token (List.mem_flatMap_of_mem member held)) good
  | sequence each ih =>
    exact ties.evaluateAll fun command member => ih command member fun token held =>
      known token (mem_tokensOfAll.mpr ⟨command, member, held⟩)

/-! Commands in back quotes. -/

theorem substitute (closed : Closed Fit) (left : Nat) {text : String}
    (good : ∀ deeper, left = deeper + 1 → ∀ command, Command.parse text = .ok command →
      AllGood Good sh deeper {} command)
    (fit : ∀ command, Command.parse text = .ok command → ∀ token ∈ tokensOf command, Fit token) :
    R o (sh.substitute left text) (Concurrent.substitute sh left text) Any := by
  induction left generalizing text o with
  | zero => exact ties.throw
  | succ left ih =>
    refine ties.bind (ties.leaf (.parse text) fun command given => parse_given given)
      fun command read => ?_
    have all := good left rfl command read
    obtain ⟨commands, rfl, -⟩ := LineLanguage.parse_parts read
    have known (token : String) (held : token ∈ tokensOf (.sequence commands)) :
        Known Fit R (sh.substitute left) (Concurrent.substitute sh left) token := by
      refine ⟨fit _ read token held, fun text member o => ih ?_ ?_⟩
      · rintro deeper rfl inner parsed
        exact all.2 token held text member inner parsed
      · exact closed token (fit _ read token held) text member
    have each (command : Command) (member : command ∈ commands) :
        R {} (sh.evaluate (sh.substitute left) command)
          (Concurrent.evaluate sh (Concurrent.substitute sh left) command) Any := by
      obtain - | - | each := goodPipes_of_allGood all
      exact ties.evaluate (each command member) fun token held =>
        known token (mem_tokensOfAll.mpr ⟨command, member, held⟩)
    exact ties.bind (ties.collect (ties.withInput .empty (ties.evaluateInner each)))
      fun collected _ => ties.bind (ties.ofExcept (Q := Any) fun _ _ => trivial) fun _ _ =>
        ties.pure trivial

/-- The two evaluations of a command are tied. -/
theorem evaluateTop (closed : Closed Fit) {command : Command}
    (good : AllGood Good sh sh.levels o command) (fit : ∀ token ∈ tokensOf command, Fit token) :
    R o (sh.evaluateTop command) (Concurrent.evaluateTop sh command) Any := by
  refine ties.evaluate (goodPipes_of_allGood good) fun token held => ⟨fit token held, ?_⟩
  intro text member o'
  refine ties.substitute closed sh.levels ?_ (closed token (fit token held) text member)
  intro deeper levels inner parsed
  rw [levels] at good
  exact good.2 token held text member inner parsed

/-- The two evaluations of a line are tied. -/
theorem evaluateLine (closed : Closed Fit) {line : String}
    (good : ∀ command, Command.parse line = .ok command → AllGood Good sh sh.levels o command)
    (fit : ∀ command, Command.parse line = .ok command → ∀ token ∈ tokensOf command, Fit token) :
    R o (sh.evaluateLine line) (Concurrent.evaluateLine sh line) Any :=
  ties.bind (ties.leaf (.parse line) fun _ given => parse_given given) fun command read =>
    ties.bind (ties.evaluateTop closed (good command read) (fit command read)) fun _ _ =>
      ties.bind (ties.mapError ties.flush) fun _ _ => ties.pure trivial

end Ties

end LineShell.ConcurrentEvaluation
