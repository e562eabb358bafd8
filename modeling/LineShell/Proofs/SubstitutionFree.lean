import LineShell.Proofs.EvaluationAgreement

/-! Tokens without a back quote. Nothing in them opens a substitution, so a pipe
of such tokens does the same whatever substitutions would give; and a line
without a back quote has no other tokens. -/
namespace LineShell.SubstitutionFree
open SessionBonds EvaluationAgreement TokenRegions

/-- A token without a back quote. -/
def BackFree (token : String) : Prop := Quote.backMark ∉ token.toList

/-- A pipe of calls without a back quote in their tokens. -/
def BackFreePipe (calls : List Call) : Prop :=
  ∀ call ∈ calls, ∀ token ∈ call.tokens, BackFree token

/-- A command that is such a pipe. -/
def BackFreeCommand (command : Command) : Prop :=
  ∃ calls, command = .pipe calls ∧ BackFreePipe calls

/-- Tokens without a back quote run no substitution. -/
theorem backFree_runs (K : Bond) (run run' : Substitution) : Runs BackFree K run run' := by
  intro token free text member
  rw [regions_eq_nil free] at member
  cases member

/-- A command without back quotes does the same whatever substitutions would
give. -/
theorem evaluate_backFree (sh : Shell) {run run' : Substitution} {command : Command}
    (free : ∀ token ∈ tokensOf command, BackFree token) :
    sh.evaluate run command = sh.evaluate run' command := by
  have setting : Setting sh BackFree (.free (Reported fun _ => True)) _ :=
    frame_setting (reported_frame fun _ => True) trivial trivial sh BackFree
  exact eq_of_agrees (evaluate_agrees setting setting (fun _ _ rel failure _ => by
    obtain ⟨rfl, _⟩ := rel
    exact ⟨rfl, trivial⟩) (backFree_runs _ run run') (backFree_runs _ run run') command free)

/-- A line without a back quote is a sequence of pipes without one. -/
theorem parse_backFree {line : String} {command : Command} (free : BackFree line)
    (ran : Command.parse line = .ok command) :
    ∃ commands, command = .sequence commands ∧ ∀ pipe ∈ commands, BackFreeCommand pipe := by
  obtain ⟨commands, rfl, pipes⟩ := LineLanguage.parse_parts ran
  refine ⟨commands, rfl, fun pipe member => ?_⟩
  obtain ⟨calls, rfl, -⟩ := pipes pipe member
  refine ⟨calls, rfl, fun call inside token held marked => ?_⟩
  exact free (mem_line_of_mem_token ran
    (mem_tokensOfAll.mpr ⟨_, member, List.mem_flatMap_of_mem inside held⟩) marked)

end LineShell.SubstitutionFree
