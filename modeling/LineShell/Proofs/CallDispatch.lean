import Mathlib.Tactic.SplitIfs
import LineShell.Proofs.SessionChanges
import LineShell.Shell.Evaluate

/-! A call in two parts. First it is prepared: its redirections are opened, its
words are expanded and its application is looked up; then the application is
dispatched. What can fail in the first part fails before the application has been
given the streams, so all that a preparation does to the streams is what its
substitutions do. -/
namespace LineShell.CallDispatch
open StepAgreement SessionChanges

/-- A call that is ready to be dispatched. -/
structure Ready where
  streams : Redirection
  app : Application
  args : List String
  deriving DecidableEq

/-- Prepares a call. -/
def prepare (sh : Shell) (run : Substitution) (c : Call) : Act Failure Ready := do
  let r ← Redirection.extract (Word.expand run Shell.glob) c.tokens
  match ← Word.expandAll run Shell.glob r.rest with
  | [] => throw (.line .noName)
  | name :: args =>
    let some app := sh.find? name | throw (.commandNotFound name)
    return ⟨r, app, args⟩

/-- Dispatches the application of a call. -/
def Ready.dispatch (ready : Ready) : Act Failure Outcome := do
  Act.note .debug ("run: " ++ Text.ShellWord.line (ready.app.name :: ready.args))
  ready.streams.within (Shell.launch ready.app ready.args)

variable {sh : Shell} {run : Substitution}

/-- An application is found by its own name only. -/
theorem name_of_find? {name : String} {app : Application} (found : sh.find? name = some app) :
    app.name = name := by
  simp only [Shell.find?, Option.filter_eq_some_iff, Application.ofName?] at found
  simpa using List.find?_some found.1

/-- A call is prepared and then dispatched. -/
theorem call_eq (sh : Shell) (run : Substitution) (c : Call) :
    sh.call run c = prepare sh run c >>= Ready.dispatch := by
  simp only [Shell.call, prepare, bind_assoc]
  refine bind_congr fun r => bind_congr fun words => ?_
  cases words with
  | nil => rfl
  | cons name args =>
    dsimp only
    cases found : sh.find? name with
    | none => rfl
    | some app =>
      simp only [pure_bind, Ready.dispatch, name_of_find? found]

/-- A call ends because its preparation fails, or after it was dispatched. -/
theorem call_cases {c : Call} {s s' : Session} {result : Except Failure Outcome}
    (ran : (sh.call run c).start s = some (result, s')) :
    (∃ e, (prepare sh run c).start s = some (.error e, s') ∧ result = .error e) ∨
      ∃ ready s₁, (prepare sh run c).start s = some (.ok ready, s₁) ∧
        ready.dispatch.start s₁ = some (result, s') := by
  rw [call_eq] at ran
  exact start_bind_eq_some_iff.mp ran

/-! What a preparation does to its session. -/

section Changes

variable {P : Session → Session → Prop} (quiet : Quiet P) (runs : ∀ text, Makes P (run text))

include quiet

theorem glob_makes (word : List Symbol) : Makes P (Shell.glob word) := by
  refine .bind quiet (.view quiet _) fun found => ?_
  dsimp only
  split
  · exact .bind quiet (.note quiet _ _) fun _ => .pure quiet _
  · exact .pure quiet _

theorem lookUp_makes (words : List (List Symbol)) : Makes P (Word.lookUp Shell.glob words) := by
  induction words with
  | nil => exact .pure quiet _
  | cons word words ih =>
    exact .ite (.bind quiet (glob_makes quiet word) fun _ => .bind quiet ih fun _ => .pure quiet _)
      (.bind quiet (.pure quiet _) fun _ => .bind quiet ih fun _ => .pure quiet _)

theorem openInput_makes (name : String) : Makes P (Redirection.openInput name) := by
  refine .bind quiet (.resolve quiet name) fun p => .bind quiet (.view quiet _) fun d =>
    .guard quiet ?_
  split
  · exact .pure quiet _
  · exact .throw quiet _

theorem openOutput_makes (name : String) (keep : Bool) :
    Makes P (Redirection.openOutput name keep) := by
  refine .bind quiet (.resolve quiet name) fun p => .bind quiet (.view quiet _) fun d =>
    .guard quiet ?_
  split
  · exact .bind quiet (.setDisk quiet _) fun _ => .pure quiet _
  · exact .throw quiet _

theorem add_makes (r : Redirection) (sign : Token.Redirect) (name : String) :
    Makes P (r.add sign name) := by
  cases sign with
  | input => exact .guard quiet (.bind quiet (openInput_makes quiet name) fun _ => .pure quiet _)
  | output => exact .bind quiet (openOutput_makes quiet name false) fun _ => .pure quiet _
  | append => exact .bind quiet (openOutput_makes quiet name true) fun _ => .pure quiet _

theorem operandName_makes {expand : String → Act Failure (List String)}
    (expands : ∀ token, Makes P (expand token)) (operand : String) :
    Makes P (Redirection.operandName expand operand) := by
  refine .bind quiet (expands operand) fun words => ?_
  split
  · exact .ite (.throw quiet _) (.pure quiet _)
  · exact .throw quiet _

theorem extractFrom_makes {expand : String → Act Failure (List String)}
    (expands : ∀ token, Makes P (expand token)) :
    (tokens : List String) → (r : Redirection) → Makes P (Redirection.extractFrom expand r tokens)
  | [], _ => .pure quiet _
  | [token], r => by
    unfold Redirection.extractFrom
    split
    · exact .pure quiet _
    · exact .throw quiet _
  | token :: operand :: tokens, r => by
    unfold Redirection.extractFrom
    split
    · exact extractFrom_makes expands (operand :: tokens) _
    · exact .guard quiet (.bind quiet (operandName_makes quiet expands operand) fun name =>
        .bind quiet (add_makes quiet r _ name) fun r => extractFrom_makes expands tokens r)

include runs

theorem scan_makes (q : Quote) (command : List Char) (draft : Word.Draft) (cs : List Char) :
    Makes P (Word.scan run q command draft cs) := by
  induction cs generalizing q command draft with
  | nil => exact .ite (.pure quiet _) (.throw quiet _)
  | cons c cs ih =>
    unfold Word.scan
    dsimp only
    split_ifs <;> first | exact ih _ _ _ | exact .bind quiet (runs _) fun _ => ih _ _ _

theorem expand_makes (token : String) : Makes P (Word.expand run Shell.glob token) :=
  .bind quiet (scan_makes quiet runs _ _ _ _) fun draft => lookUp_makes quiet draft.words

theorem expandAll_makes (tokens : List String) :
    Makes P (Word.expandAll run Shell.glob tokens) := by
  induction tokens with
  | nil => exact .pure quiet _
  | cons token tokens ih =>
    exact .bind quiet (expand_makes quiet runs token) fun _ => .bind quiet ih fun _ => .pure quiet _

theorem prepare_makes (sh : Shell) (c : Call) : Makes P (prepare sh run c) := by
  refine .bind quiet (extractFrom_makes quiet (expand_makes quiet runs) _ _) fun r =>
    .bind quiet (expandAll_makes quiet runs _) fun words => ?_
  cases words with
  | nil => exact .throw quiet _
  | cons name args =>
    dsimp only
    cases sh.find? name with
    | none => exact .throw quiet _
    | some app => exact .pure quiet _

end Changes

/-! Streams that are left alone. -/

/-- The streams of the session are as they were. -/
def Apart (s s' : Session) : Prop := s'.input = s.input ∧ s'.output = s.output

theorem apart_quiet : Quiet Apart where
  refl := fun _ => ⟨rfl, rfl⟩
  trans := fun _ _ _ first second => ⟨second.1.trans first.1, second.2.trans first.2⟩
  disk := fun _ _ => ⟨rfl, rfl⟩
  cwd := fun _ _ => ⟨rfl, rfl⟩
  journal := fun _ _ => ⟨rfl, rfl⟩

theorem parse_makes {P : Session → Session → Prop} (quiet : Quiet P) (line : String) :
    Makes P (Shell.parse line) := by
  unfold Shell.parse
  split
  · exact .throw quiet _
  · exact .pure quiet _
  · exact .bind quiet (.note quiet _ _) fun _ => .pure quiet _

/-- A substitution runs on streams of its own. -/
theorem substitute_apart (sh : Shell) (left : Nat) (text : String) :
    Makes Apart (sh.substitute left text) := by
  cases left with
  | zero => exact .throw apart_quiet _
  | succ left =>
    refine .bind apart_quiet (parse_makes apart_quiet text) fun command =>
      .bind apart_quiet ?_ fun collected =>
        .bind apart_quiet (.ofExcept apart_quiet _) fun _ => .pure apart_quiet _
    intro s result s' ran
    rw [start_collect, start_withInput, Option.map_map, Option.map_eq_some_iff] at ran
    obtain ⟨ended, -, same⟩ := ran
    cases same
    exact ⟨rfl, rfl⟩

theorem prepare_apart (sh : Shell) (left : Nat) (c : Call) :
    Makes Apart (prepare sh (sh.substitute left) c) :=
  prepare_makes apart_quiet (substitute_apart sh left) sh c

end LineShell.CallDispatch
