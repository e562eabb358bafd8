import Mathlib.Tactic.SplitIfs
import LineShell.Proofs.CallDispatch
import LineShell.Proofs.KeptDirectory

/-! Steps in which only some applications run. A line is evaluated by looking at the
session, opening files, flushing, keeping records, and running applications, and it
runs those only that its shell has. So whatever none of these applications does, no
line does. -/
namespace LineShell.ConfinedRuns
open StepAgreement EvaluationAgreement KeptDirectory

variable {ε ε' α β : Type}

/-- A step that is built from those below and runs allowed applications only. -/
inductive Confined (Allowed : Application → Prop) : {ε α : Type} → Act ε α → Prop where
  | ofExcept {ε α : Type} (result : Except ε α) : Confined Allowed (Act.ofExcept result)
  | view {ε α : Type} (f : Session → α) : Confined Allowed (Act.view f : Act ε α)
  | note {ε : Type} (level : Level) (text : String) :
      Confined Allowed (Act.note level text : Act ε Unit)
  | report {ε : Type} (failure : Failure) : Confined Allowed (Act.report failure : Act ε Unit)
  | flush : Confined Allowed Act.flush
  | openInput (name : String) : Confined Allowed (Redirection.openInput name)
  | openOutput (name : String) (keep : Bool) : Confined Allowed (Redirection.openOutput name keep)
  | run {app : Application} (allowed : Allowed app) (args : List String) :
      Confined Allowed (app.run args)
  | bind {ε α β : Type} {act : Act ε α} {next : α → Act ε β} (first : Confined Allowed act)
      (rest : ∀ a, Confined Allowed (next a)) : Confined Allowed (act >>= next)
  | attempt {ε ε' α : Type} {act : Act ε α} (inner : Confined Allowed act) :
      Confined Allowed (Act.attempt act : Act ε' (Except ε α))
  | mapError {ε ε' α : Type} {f : ε → ε'} {act : Act ε α} (inner : Confined Allowed act) :
      Confined Allowed (Act.mapError f act)
  | withInput {ε α : Type} {act : Act ε α} (input : Source) (inner : Confined Allowed act) :
      Confined Allowed (Act.withInput input act)
  | withOutput {ε α : Type} {act : Act ε α} (output : Sink) (inner : Confined Allowed act) :
      Confined Allowed (Act.withOutput output act)
  | collect {ε ε' α : Type} {act : Act ε α} (inner : Confined Allowed act) :
      Confined Allowed (Act.collect act : Act ε' (Except ε α × Bytes))

namespace Confined

variable {Allowed : Application → Prop} {act : Act ε α}

theorem pure (a : α) : Confined Allowed (Pure.pure a : Act ε α) := .ofExcept (.ok a)

theorem throw (e : ε) : Confined Allowed (MonadExcept.throw e : Act ε α) := .ofExcept (.error e)

theorem ite {c : Prop} [Decidable c] {other : Act ε α} (yes : Confined Allowed act)
    (no : Confined Allowed other) : Confined Allowed (if c then act else other) := by
  split
  · exact yes
  · exact no

/-- A step that may stop with an error before it goes on. -/
theorem guard {γ : Type} {c : Prop} [Decidable c] {e : ε} {k : γ → Act ε α}
    (goesOn : Confined Allowed act) :
    Confined Allowed (if c then (MonadExcept.throw e : Act ε γ) >>= k else act) :=
  ite (throw e) goesOn

/-- Without `cd` no step leaves the directory. -/
theorem cwd (confined : Confined Allowed act) (noCd : ¬Allowed .cd) {s s' : Session}
    {result : Except ε α} (ran : act.start s = some (result, s')) : s'.cwd = s.cwd := by
  induction confined generalizing s s' with
  | ofExcept | view | note | report =>
    cases ran
    rfl
  | flush => exact flush_cwd ran
  | openInput name => exact openInput_cwd ran
  | openOutput name keep => exact openOutput_cwd ran
  | run allowed args =>
    refine run_cwd ?_ ran
    rintro rfl
    exact noCd allowed
  | bind _ _ first rest =>
    obtain ⟨e, failed, rfl⟩ | ⟨a, s₁, ran₁, ran₂⟩ := start_bind_eq_some_iff.mp ran
    · exact first failed
    · exact (rest a ran₂).trans (first ran₁)
  | attempt _ inner =>
    rw [start_attempt, Option.map_eq_some_iff] at ran
    obtain ⟨_, ran, ⟨⟩⟩ := ran
    exact inner ran
  | mapError _ inner =>
    rw [start_mapError, Option.map_eq_some_iff] at ran
    obtain ⟨_, ran, ⟨⟩⟩ := ran
    exact inner ran
  | withInput _ _ inner =>
    rw [start_withInput, Option.map_eq_some_iff] at ran
    obtain ⟨_, ran, ⟨⟩⟩ := ran
    have kept := inner ran
    exact kept
  | withOutput _ _ inner =>
    rw [start_withOutput, Option.map_eq_some_iff] at ran
    obtain ⟨_, ran, ⟨⟩⟩ := ran
    have kept := inner ran
    exact kept
  | collect _ inner =>
    rw [start_collect, Option.map_eq_some_iff] at ran
    obtain ⟨_, ran, ⟨⟩⟩ := ran
    have kept := inner ran
    exact kept

end Confined

/-! Evaluation runs the applications of its shell. -/

section Words

variable {Allowed : Application → Prop} {run : Substitution}
  {expand : String → Act Failure (List String)}

theorem glob_confined (word : List Symbol) : Confined Allowed (Shell.glob word) := by
  refine .bind (.view _) fun found => ?_
  dsimp only
  split
  · exact .bind (.note _ _) fun _ => .pure _
  · exact .pure _

theorem lookUp_confined (words : List (List Symbol)) :
    Confined Allowed (Word.lookUp Shell.glob words) := by
  induction words with
  | nil => exact .pure _
  | cons word words ih =>
    exact .ite (.bind (glob_confined word) fun _ => .bind ih fun _ => .pure _)
      (.bind (.pure _) fun _ => .bind ih fun _ => .pure _)

theorem scan_confined (runs : ∀ text, Confined Allowed (run text)) (q : Quote)
    (command : List Char) (draft : Word.Draft) (cs : List Char) :
    Confined Allowed (Word.scan run q command draft cs) := by
  induction cs generalizing q command draft with
  | nil => exact .ite (.pure _) (.throw _)
  | cons c cs ih =>
    unfold Word.scan
    dsimp only
    split_ifs <;> first | exact ih _ _ _ | exact .bind (runs _) fun _ => ih _ _ _

theorem expand_confined (runs : ∀ text, Confined Allowed (run text)) (token : String) :
    Confined Allowed (Word.expand run Shell.glob token) :=
  .bind (scan_confined runs _ _ _ _) fun draft => lookUp_confined draft.words

theorem expandAll_confined (runs : ∀ text, Confined Allowed (run text)) (tokens : List String) :
    Confined Allowed (Word.expandAll run Shell.glob tokens) := by
  induction tokens with
  | nil => exact .pure _
  | cons token tokens ih =>
    exact .bind (expand_confined runs token) fun _ => .bind ih fun _ => .pure _

theorem add_confined (r : Redirection) (sign : Token.Redirect) (name : String) :
    Confined Allowed (r.add sign name) := by
  cases sign with
  | input => exact .guard (.bind (.openInput name) fun _ => .pure _)
  | output | append => exact .bind (.openOutput name _) fun _ => .pure _

theorem extractFrom_confined (expands : ∀ token, Confined Allowed (expand token)) :
    (tokens : List String) → (r : Redirection) →
      Confined Allowed (Redirection.extractFrom expand r tokens)
  | [], _ => .pure _
  | [token], r => by
    unfold Redirection.extractFrom
    split
    · exact .pure _
    · exact .throw _
  | token :: operand :: tokens, r => by
    have name : Confined Allowed (Redirection.operandName expand operand) := by
      refine .bind (expands operand) fun words => ?_
      split
      · exact .ite (.throw _) (.pure _)
      · exact .throw _
    unfold Redirection.extractFrom
    split
    · exact extractFrom_confined expands (operand :: tokens) _
    · exact .guard (.bind name fun name => .bind (add_confined r _ name) fun r =>
        extractFrom_confined expands tokens r)

theorem within_confined (r : Redirection) {act : Act ε α} (inner : Confined Allowed act) :
    Confined Allowed (r.within act) := by
  obtain ⟨rest, input, output⟩ := r
  have fed : Confined Allowed (({ rest, input } : Redirection).within act) := by
    cases input with
    | none => exact inner
    | some input => exact .withInput input inner
  cases output with
  | none => exact fed
  | some output => exact .withOutput output fed

theorem launch_confined {app : Application} (allowed : Allowed app) (args : List String) :
    Confined Allowed (Shell.launch app args) := by
  refine .bind (.attempt (.run allowed args)) fun result =>
    .bind (.attempt .flush) fun flushed => ?_
  split
  · exact .throw _
  · exact .throw _
  · exact .pure _

theorem stageFailures_confined (i : Nat) (results : List (Except Failure Outcome)) :
    Confined Allowed (Shell.stageFailures i results) := by
  induction results generalizing i with
  | nil => exact .pure _
  | cons result results ih =>
    cases result with
    | ok outcome => exact ih (i + 1)
    | error e =>
      exact .ite (.bind (.note _ _) fun _ => ih (i + 1)) (.bind (ih (i + 1)) fun _ => .pure _)

theorem reportAll_confined (failures : List Failure) :
    Confined Allowed (Shell.reportAll failures) := by
  induction failures with
  | nil => exact .pure _
  | cons e rest ih => exact .bind (.report e) fun _ => ih

theorem settle_confined (results : List (Except Failure Outcome)) :
    Confined Allowed (Shell.settle results) := by
  refine .bind (stageFailures_confined 0 results) fun failures => ?_
  split
  · exact .bind (reportAll_confined _) fun _ => .pure _
  · exact .throw _
  · exact .pure _

theorem parse_confined (line : String) : Confined Allowed (Shell.parse line) := by
  unfold Shell.parse
  split
  · exact .throw _
  · exact .pure _
  · exact .bind (.note _ _) fun _ => .pure _

end Words

section Commands

variable {sh : Shell} {run : Substitution}
  (runs : ∀ text, Confined (· ∈ sh.applications) (run text))
include runs

/-- A call runs the application that its first word names in the shell. -/
theorem call_confined (c : Call) : Confined (· ∈ sh.applications) (sh.call run c) := by
  refine .bind (extractFrom_confined (expand_confined runs) _ _) fun r =>
    .bind (expandAll_confined runs _) fun words => ?_
  cases words with
  | nil => exact .throw _
  | cons name args =>
    dsimp only
    cases found : sh.find? name with
    | none => exact .throw _
    | some app =>
      exact .bind (.note _ _) fun _ => within_confined r (launch_confined (find?_mem found) args)

theorem stage_confined (c : Call) : Confined (· ∈ sh.applications) (sh.stage run c) := by
  refine .bind (.attempt (call_confined runs c)) fun result =>
    .bind (.attempt .flush) fun flushed => ?_
  split
  · exact .ite (.pure _) (.throw _)
  · exact .ofExcept _

theorem stages_confined :
    (calls : List Call) → Confined (· ∈ sh.applications) (sh.stages run calls)
  | [] => .pure _
  | [last] => .bind (.attempt (stage_confined runs last)) fun _ => .pure _
  | c :: next :: rest =>
    .bind (.collect (stage_confined runs c)) fun _ =>
      .bind (.withInput _ (stages_confined (next :: rest))) fun _ => .pure _

theorem pipe_confined : (calls : List Call) → Confined (· ∈ sh.applications) (sh.pipe run calls)
  | [] => .pure _
  | [c] => call_confined runs c
  | c :: next :: rest => .bind (stages_confined runs (c :: next :: rest)) settle_confined

omit runs

mutual

theorem evaluate_confined (runs : ∀ text, Confined (· ∈ sh.applications) (run text)) :
    (command : Command) → Confined (· ∈ sh.applications) (sh.evaluate run command)
  | .call c => call_confined runs c
  | .pipe calls => pipe_confined runs calls
  | .sequence commands => evaluateAll_confined runs commands

theorem evaluateAll_confined (runs : ∀ text, Confined (· ∈ sh.applications) (run text)) :
    (commands : List Command) → Confined (· ∈ sh.applications) (sh.evaluateAll run commands)
  | [] => .pure _
  | c :: rest => .bind (.attempt (evaluate_confined runs c)) fun result => by
    rcases result with e | _ | code
    · exact .bind (.report e) fun _ => evaluateAll_confined runs rest
    · exact evaluateAll_confined runs rest
    · exact .pure _

end

include runs in
theorem evaluateInner_confined (first : Option Failure) (commands : List Command) :
    Confined (· ∈ sh.applications) (sh.evaluateInner run first commands) := by
  induction commands generalizing first with
  | nil =>
    cases first with
    | none => exact .pure _
    | some e => exact .throw e
  | cons c rest ih =>
    rw [Shell.evaluateInner]
    refine .bind (.attempt (evaluate_confined runs c)) fun result => ?_
    split
    · exact ih first
    · exact .pure _
    · exact .throw _
    · exact ih _
    · exact .bind (.report _) fun _ => ih _

end Commands

theorem substitute_confined (sh : Shell) (left : Nat) (text : String) :
    Confined (· ∈ sh.applications) (sh.substitute left text) := by
  induction left generalizing text with
  | zero => exact .throw _
  | succ left ih =>
    exact .bind (parse_confined text) fun command =>
      .bind (.collect (.withInput _ (evaluateInner_confined ih _ _))) fun collected =>
        .bind (.ofExcept _) fun _ => .pure _

/-- A line runs applications of its shell only. -/
theorem evaluateLine_confined (sh : Shell) (line : String) :
    Confined (· ∈ sh.applications) (sh.evaluateLine line) :=
  .bind (parse_confined line) fun command =>
    .bind (evaluate_confined (substitute_confined sh sh.levels) command) fun _ =>
      .bind (.mapError .flush) fun _ => .pure _

end LineShell.ConfinedRuns
