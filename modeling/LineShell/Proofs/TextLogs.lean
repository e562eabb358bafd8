import LineShell.Proofs.StepAgreement
import LineShell.Shell.Evaluate

/-! The texts that a step passes to its substitution. Expansion is written for
every monad with failures, so it also runs where each text is written to a log,
with what came of it, as it is passed on. Such a run is the run without a log and,
besides, adds to the log it was given. -/
namespace LineShell.TextLogs
open StepAgreement

/-- Texts passed to a substitution, in order, each with what came of it. -/
abbrev Log := List (String × Except Failure String)

/-- A step of a session that keeps a log. -/
abbrev Logged (α : Type) := ExceptT Failure (StateT Log (StateT Session Option)) α

variable {α β : Type}

section Failures

variable {n : Type → Type} [Monad n] [LawfulMonad n]

theorem throw_bind (e : Failure) (next : α → ExceptT Failure n β) :
    (throw e : ExceptT Failure n α) >>= next = throw e := by
  apply ExceptT.ext
  simp

theorem map_throw (f : α → β) (e : Failure) :
    f <$> (throw e : ExceptT Failure n α) = throw e := by
  rw [map_eq_pure_bind, throw_bind]

end Failures

/-- Runs a step with a log from a session. -/
def Logged.start (step : Logged α) (log : Log) (s : Session) :
    Option ((Except Failure α × Log) × Session) :=
  step.run log s

/-- A step that passes nothing on. -/
def keep (act : Act Failure α) : Logged α := fun log s =>
  (act.start s).map fun ended => ((ended.1, log), ended.2)

/-- A substitution that writes each text to the log. -/
def logged (run : Substitution) (text : String) : Logged String := fun log s =>
  ((run text).start s).map fun ended => ((ended.1, log ++ [(text, ended.1)]), ended.2)

theorem start_bind_logged (step : Logged α) (next : α → Logged β) (log : Log) (s : Session) :
    Logged.start (step >>= next) log s =
      match step.start log s with
      | none => none
      | some ((.error e, log'), s') => some ((.error e, log'), s')
      | some ((.ok a, log'), s') => (next a).start log' s' := by
  change Option.bind (step.start log s)
    (fun ended => ExceptT.bindCont next ended.1.1 ended.1.2 ended.2) = _
  rcases step.start log s with _ | ⟨⟨_ | _, _⟩, _⟩ <;> rfl

/-- The step with a log is the step, and adds to the log what the session makes it
add. -/
def Tracks (step : Logged α) (act : Act Failure α) : Prop :=
  ∀ s, ∃ new, ∀ log,
    step.start log s = (act.start s).map fun ended => ((ended.1, log ++ new), ended.2)

namespace Tracks

theorem keep (act : Act Failure α) : Tracks (keep act) act :=
  fun _ => ⟨[], fun log => by rw [List.append_nil]; rfl⟩

theorem ofExcept (result : Except Failure α) :
    Tracks (ExceptT.mk (pure result) : Logged α) (Act.ofExcept result) :=
  fun _ => ⟨[], fun log => by rw [List.append_nil]; rfl⟩

theorem pure (a : α) : Tracks (Pure.pure a) (Pure.pure a) := ofExcept (.ok a)

theorem throw (e : Failure) : Tracks (throw e : Logged α) (throw e : Act Failure α) :=
  ofExcept (.error e)

theorem logged (run : Substitution) (text : String) : Tracks (logged run text) (run text) := by
  intro s
  cases ran : (run text).start s with
  | none => exact ⟨[], fun log => by simp [Logged.start, ExceptT.run, TextLogs.logged, ran]⟩
  | some ended =>
    exact ⟨[(text, ended.1)], fun log => by simp [Logged.start, ExceptT.run, TextLogs.logged, ran]⟩

theorem bind {step : Logged α} {act : Act Failure α} {next : α → Logged β}
    {next' : α → Act Failure β} (first : Tracks step act) (rest : ∀ a, Tracks (next a) (next' a)) :
    Tracks (step >>= next) (act >>= next') := by
  intro s
  obtain ⟨new, ran⟩ := first s
  cases ended : act.start s with
  | none =>
    refine ⟨[], fun log => ?_⟩
    rw [start_bind_logged, ran, start_bind, ended]
    rfl
  | some ended' =>
    obtain ⟨_ | a, s₁⟩ := ended'
    · refine ⟨new, fun log => ?_⟩
      rw [start_bind_logged, ran, start_bind, ended]
      rfl
    · obtain ⟨later, ranLater⟩ := rest a s₁
      refine ⟨new ++ later, fun log => ?_⟩
      rw [start_bind_logged, ran, start_bind, ended, ← List.append_assoc]
      exact ranLater (log ++ new)

theorem ite {c : Prop} [Decidable c] {step step' : Logged α} {act act' : Act Failure α}
    (yes : Tracks step act) (no : Tracks step' act') :
    Tracks (if c then step else step') (if c then act else act') := by
  split
  · exact yes
  · exact no

/-- Without its log the step is the step. -/
theorem forget {step : Logged α} {act : Act Failure α} (tracks : Tracks step act) (log : Log)
    (s : Session) : (step.start log s).map (fun ended => (ended.1.1, ended.2)) = act.start s := by
  obtain ⟨new, ran⟩ := tracks s
  rw [ran, Option.map_map]
  exact Option.map_id'

/-- What is added to a log does not depend on what it held. -/
theorem start_eq {step : Logged α} {act : Act Failure α} (tracks : Tracks step act) (log : Log)
    (s : Session) :
    step.start log s =
      (step.start [] s).map fun ended => ((ended.1.1, log ++ ended.1.2), ended.2) := by
  obtain ⟨new, ran⟩ := tracks s
  rw [ran, ran, Option.map_map]
  rfl

end Tracks

/-! Expansion with a log. -/

section Expansion

variable (run : Substitution)

/-- Looks up a word with a star; nothing is passed on. -/
def look (word : List Symbol) : Logged (List String) := keep (Shell.glob word)

theorem scan_tracks (q : Quote) (command : List Char) (draft : Word.Draft) (cs : List Char) :
    Tracks (Word.scan (logged run) q command draft cs) (Word.scan run q command draft cs) := by
  induction cs generalizing q command draft with
  | nil => exact .ite (.pure _) (.throw _)
  | cons c cs ih =>
    unfold Word.scan
    dsimp only
    refine .ite (.bind (.logged run _) fun _ => ih _ _ _) (.ite ?_ ?_)
    · exact .bind (.logged run _) fun _ => ih _ _ _
    · exact .ite (ih _ _ _) (.ite (ih _ _ _) (.ite (ih _ _ _) (ih _ _ _)))

theorem lookUp_tracks (words : List (List Symbol)) :
    Tracks (Word.lookUp look words) (Word.lookUp Shell.glob words) := by
  induction words with
  | nil => exact .pure _
  | cons word words ih =>
    have rest (found : List String) : Tracks (do return found ++ (← Word.lookUp look words))
        (do return found ++ (← Word.lookUp Shell.glob words)) := .bind ih fun _ => .pure _
    exact .ite (.bind (.keep _) rest) (.bind (.pure _) rest)

theorem expand_tracks (token : String) :
    Tracks (Word.expand (logged run) look token) (Word.expand run Shell.glob token) :=
  .bind (scan_tracks run _ _ _ _) fun draft => lookUp_tracks draft.words

theorem expandAll_tracks (tokens : List String) :
    Tracks (Word.expandAll (logged run) look tokens) (Word.expandAll run Shell.glob tokens) := by
  induction tokens with
  | nil => exact .pure _
  | cons token tokens ih => exact .bind (expand_tracks run token) fun _ => .bind ih fun _ => .pure _

end Expansion

end LineShell.TextLogs
