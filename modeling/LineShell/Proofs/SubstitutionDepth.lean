import LineShell.Proofs.SubstitutionFree

/-! Substitutions never nest. A text in back quotes holds no back quote, so the
command read from it has no substitution of its own, and evaluation comes to the
same with any limit but zero. With the limit zero a call stops where it would run
its first text in back quotes. -/
namespace LineShell.SubstitutionDepth
open StepAgreement SessionBonds EvaluationAgreement TokenRegions SubstitutionFree

/-! The limit is not looked at by commands. -/

section Levels

variable (sh : Shell) (levels : Nat) {run : Substitution}

theorem stages_levels : (calls : List Call) →
    ({ sh with levels } : Shell).stages run calls = sh.stages run calls
  | [] => rfl
  | [_] => rfl
  | c :: next :: rest => by
    rw [Shell.stages, Shell.stages, stages_levels (next :: rest)]
    rfl

theorem pipe_levels (calls : List Call) :
    ({ sh with levels } : Shell).pipe run calls = sh.pipe run calls := by
  match calls with
  | [] => rfl
  | [c] => rfl
  | c :: next :: rest =>
    change _ >>= Shell.settle = _ >>= Shell.settle
    rw [stages_levels]

theorem evaluateAll_levels {commands : List Command}
    (each : ∀ command ∈ commands,
      ({ sh with levels } : Shell).evaluate run command = sh.evaluate run command) :
    ({ sh with levels } : Shell).evaluateAll run commands = sh.evaluateAll run commands := by
  induction commands with
  | nil => rfl
  | cons command rest ih =>
    obtain ⟨first, others⟩ := List.forall_mem_cons.mp each
    simp only [Shell.evaluateAll, first, ih others]

theorem evaluate_levels (command : Command) :
    ({ sh with levels } : Shell).evaluate run command = sh.evaluate run command := by
  cases command with
  | call c => rfl
  | pipe calls => exact pipe_levels sh levels calls
  | sequence commands =>
    exact evaluateAll_levels sh levels fun command member => evaluate_levels command
termination_by sizeOf command
decreasing_by
  have less := List.sizeOf_lt_of_mem member
  simp only [Command.sequence.sizeOf_spec]
  omega

theorem evaluateInner_levels (commands : List Command) (held : Option Failure) :
    ({ sh with levels } : Shell).evaluateInner run held commands =
      sh.evaluateInner run held commands := by
  induction commands generalizing held with
  | nil => cases held <;> rfl
  | cons command rest ih => simp only [Shell.evaluateInner, evaluate_levels sh levels command, ih]

theorem substituteOnce_levels :
    substituteOnce ({ sh with levels } : Shell) run = substituteOnce sh run := by
  funext text
  simp only [substituteOnce, evaluateInner_levels]

end Levels

/-! One level is enough. -/

/-- A text in back quotes leaves nothing to deeper levels. -/
theorem once_runs {sh : Shell} {K : Bond} (setting : ∀ Fit, Setting sh Fit K K)
    (reports : K.Reports) (deeper deeper' : Substitution) :
    Runs (fun _ => True) K (substituteOnce sh deeper) (substituteOnce sh deeper') := by
  intro token _ text member
  refine substituteOnce_agrees (setting BackFree) (setting BackFree) reports
    (backFree_runs K deeper deeper') fun command read token held marked => ?_
  exact backMark_not_mem_region member (mem_line_of_mem_token read held marked)

theorem evaluate_once (sh : Shell) (deeper deeper' : Substitution) (command : Command) :
    sh.evaluate (substituteOnce sh deeper) command =
      sh.evaluate (substituteOnce sh deeper') command := by
  have setting (Fit : String → Prop) : Setting sh Fit (.free (Reported fun _ => True)) _ :=
    frame_setting (reported_frame fun _ => True) trivial trivial sh Fit
  have reports : (Bond.free (Reported fun _ => True)).Reports := by
    rintro s _ ⟨rfl, _⟩ failure _
    exact ⟨rfl, trivial⟩
  have runs := once_runs setting reports deeper deeper'
  exact eq_of_agrees (evaluate_agrees (setting _) (setting _) reports runs runs command
    fun _ _ => trivial)

theorem evaluateTop_once (sh : Shell) {levels : Nat} (some : 1 ≤ levels) (deeper : Substitution)
    (command : Command) :
    ({ sh with levels } : Shell).evaluateTop command =
      sh.evaluate (substituteOnce sh deeper) command := by
  obtain ⟨left, rfl⟩ := Nat.exists_eq_add_of_le' some
  rw [Shell.evaluateTop, evaluate_levels, substitute_succ, substituteOnce_levels]
  exact evaluate_once sh _ deeper command

/-- Reports that go on from others, with nothing too deep among the new ones. -/
def Shallow (before now : List Failure) : Prop :=
  ∃ new, now = before ++ new ∧ ∀ limit, .tooDeep limit ∉ new

/-- One session that has reported nothing too deep since it had these reports. -/
def shallow (before : List Failure) : Bond :=
  ⟨Reported (Shallow before), fun trouble => trouble ≠ .deep⟩

theorem shallow_reports (before : List Failure) : (shallow before).Reports := by
  rintro s _ ⟨rfl, new, since, fine⟩ failure borne
  refine ⟨rfl, new ++ [failure], by simp [since], fun limit member => ?_⟩
  rcases List.mem_append.mp member with old | last
  · exact fine limit old
  · obtain rfl := List.mem_singleton.mp last
    exact borne .deep rfl rfl

/-- Nothing too deep is met or reported. -/
theorem evaluateTop_shallow (sh : Shell) (some : 1 ≤ sh.levels) (command : Command)
    (before : List Failure) :
    (shallow before).Agrees (sh.evaluateTop command) (sh.evaluateTop command) := by
  have setting (Fit : String → Prop) : Setting sh Fit (shallow before) _ :=
    frame_setting (reported_frame (Shallow before)) Trouble.noConfusion Trouble.noConfusion sh Fit
  obtain ⟨left, deep⟩ := Nat.exists_eq_add_of_le' some
  have runs := once_runs setting (shallow_reports before) (sh.substitute left) (sh.substitute left)
  rw [Shell.evaluateTop, deep, substitute_succ]
  exact evaluate_agrees (setting _) (setting _) (shallow_reports before) runs runs command
    fun _ _ => trivial

/-! Where a call asks for a substitution. -/

section Asking

variable {α β : Type}

/-- Whatever substitutions give, the step comes to run the text in session `s'`,
and goes on from there. -/
def Asks (act : Substitution → Act Failure α) (s : Session) (text : String) (s' : Session) : Prop :=
  ∃ next : Substitution → String → Act Failure α,
    ∀ run, (act run).start s = (run text >>= next run).start s'

/-- The step does without substitutions, or asks for one of the texts first. -/
def Reaches (Region : String → Prop) (act : Substitution → Act Failure α) (s : Session) : Prop :=
  (∀ run run', (act run).start s = (act run').start s) ∨
    ∃ text, Region text ∧ ∃ s', Asks act s text s'

variable {Region : String → Prop} {s : Session}

theorem reaches_const (act : Act Failure α) : Reaches Region (fun _ => act) s := .inl fun _ _ => rfl

theorem reaches_run {text : String} (region : Region text)
    (next : Substitution → String → Act Failure α) :
    Reaches Region (fun run => run text >>= next run) s :=
  .inr ⟨text, region, s, next, fun _ => rfl⟩

/-- What comes first asks first; if it does without, then what comes next may. -/
theorem reaches_bind {act : Substitution → Act Failure α} {next : Substitution → α → Act Failure β}
    (first : Reaches Region act s)
    (rest : ∀ a s', (∃ run, Gives (act run) a) → Reaches Region (fun run => next run a) s') :
    Reaches Region (fun run => act run >>= next run) s := by
  rcases first with same | ⟨text, region, s', later, asks⟩
  · -- It ends the same way with all substitutions, so any one of them tells how.
    have ends (run : Substitution) := same run fun _ => pure ""
    generalize ran : (act fun _ => pure "").start s = ended at ends
    rcases ended with _ | ⟨e | a, s₁⟩
    · exact .inl fun run run' => by rw [start_bind, start_bind, ends, ends]
    · exact .inl fun run run' => by rw [start_bind, start_bind, ends, ends]
    · have later (run : Substitution) : (act run >>= next run).start s = (next run a).start s₁ := by
        rw [start_bind, ends]
      rcases rest a s₁ ⟨_, s, s₁, ran⟩ with same | ⟨text, region, s', next', asks⟩
      · exact .inl fun run run' => by rw [later, later, same run run']
      · exact .inr ⟨text, region, s', next', fun run => by rw [later, asks]⟩
  · refine .inr ⟨text, region, s', fun run output => later run output >>= next run, fun run => ?_⟩
    rw [← bind_assoc, start_bind, asks run, ← start_bind]

/-- A scan of a text without regions is the same with any substitution, and
otherwise it runs the first region before all else. -/
theorem scan_first (q : Quote) (command : List Char) (draft : Word.Draft) (cs : List Char) :
    (regionsFrom q command cs = [] ∧ ∃ act : Act Failure Word.Draft, ∀ run : Substitution,
      Word.scan run q command draft cs = act) ∨
    ∃ text later, regionsFrom q command cs = text :: later ∧
      ∃ next : Substitution → String → Act Failure Word.Draft, ∀ run : Substitution,
        Word.scan run q command draft cs = run text >>= next run := by
  induction cs generalizing q command draft with
  | nil => exact .inl ⟨rfl, _, fun _ => rfl⟩
  | cons c cs ih =>
    cases inside : q.isBack with
    | false =>
      obtain ⟨draft', scanned⟩ := scan_outside inside c command draft cs
      simp only [regionsFrom, inside, Bool.false_eq_true, if_false, scanned]
      exact ih _ _ _
    | true =>
      by_cases closes : c = Quote.backMark
      · subst closes
        obtain ⟨add, scanned⟩ := scan_close inside command draft cs
        simp only [regionsFrom, inside, if_true]
        exact .inr ⟨_, _, rfl, _, scanned⟩
      · simp only [regionsFrom, inside, closes, if_true, if_false, step_of_isBack inside closes,
          scan_inside (m := Act Failure) inside closes]
        exact ih _ _ _

theorem scan_reaches (q : Quote) (command : List Char) (draft : Word.Draft) (cs : List Char)
    (region : ∀ text ∈ regionsFrom q command cs, Region text) :
    Reaches Region (fun run => Word.scan run q command draft cs) s := by
  rcases scan_first q command draft cs with ⟨-, act, same⟩ | ⟨text, later, first, next, runs⟩
  · simp only [same]
    exact reaches_const act
  · simp only [runs]
    exact reaches_run (region text (first ▸ List.mem_cons_self)) next

theorem expand_reaches {token : String} (region : ∀ text ∈ regions token, Region text) :
    Reaches Region (fun run => Word.expand run Shell.glob token) s :=
  reaches_bind (scan_reaches _ _ _ _ region) fun _ _ _ => reaches_const _

theorem expandAll_reaches {tokens : List String}
    (region : ∀ token ∈ tokens, ∀ text ∈ regions token, Region text) :
    Reaches Region (fun run => Word.expandAll run Shell.glob tokens) s := by
  induction tokens generalizing s with
  | nil => exact reaches_const _
  | cons token tokens ih =>
    obtain ⟨first, others⟩ := List.forall_mem_cons.mp region
    exact reaches_bind (expand_reaches first) fun _ _ _ =>
      reaches_bind (ih others) fun _ _ _ => reaches_const _

theorem extractFrom_reaches : (tokens : List String) → (r : Redirection) → (s : Session) →
    (∀ token ∈ tokens, ∀ text ∈ regions token, Region text) →
    Reaches Region (fun run => Redirection.extractFrom (Word.expand run Shell.glob) r tokens) s
  | [], r, s, _ => by
    simp only [Redirection.extractFrom]
    exact reaches_const _
  | [token], r, s, _ => by
    simp only [Redirection.extractFrom]
    exact reaches_const _
  | token :: operand :: tokens, r, s, region => by
    obtain ⟨-, later⟩ := List.forall_mem_cons.mp region
    obtain ⟨second, others⟩ := List.forall_mem_cons.mp later
    simp only [Redirection.extractFrom]
    split
    · exact extractFrom_reaches (operand :: tokens) _ s later
    · split
      · refine reaches_bind (reaches_const _) ?_
        rintro _ _ ⟨_, given⟩
        exact absurd given not_gives_throw
      · refine reaches_bind (reaches_bind (expand_reaches second) fun _ _ _ => reaches_const _)
          fun name s _ => ?_
        exact reaches_bind (reaches_const _) fun r s _ => extractFrom_reaches tokens r s others

/-- A call does without substitutions, or asks for a text in back quotes of one of
its tokens first. -/
theorem call_reaches (sh : Shell) (c : Call) (s : Session) :
    Reaches (fun text => ∃ token ∈ c.tokens, text ∈ regions token) (fun run => sh.call run c) s := by
  refine reaches_bind (extractFrom_reaches c.tokens {} s fun token held text member =>
    ⟨token, held, member⟩) fun r s' ⟨run, given⟩ => ?_
  have prepared : Prepared (· ∈ c.tokens) r := extract_prepared (fun _ held => held) given
  exact reaches_bind (expandAll_reaches fun token held text member =>
    ⟨token, prepared.rest token held, member⟩) fun _ _ _ => reaches_const _

/-- A step that asks for a text fails there if substitutions do. -/
theorem start_of_asks {act : Substitution → Act Failure α} {text : String} {s' : Session}
    {e : Failure} (asks : Asks act s text s') : (act fun _ => throw e).start s = some (.error e, s') := by
  obtain ⟨next, asks⟩ := asks
  rw [asks, start_bind]
  rfl

end Asking

/-- A token with a text in back quotes cannot be expanded where substitutions
fail. -/
theorem scan_throw {q : Quote} {command cs : List Char} (some : regionsFrom q command cs ≠ [])
    (e : Failure) (draft : Word.Draft) :
    Word.scan (fun _ => throw e : Substitution) q command draft cs = throw e := by
  rcases scan_first q command draft cs with ⟨empty, -⟩ | ⟨text, later, -, next, runs⟩
  · exact absurd empty some
  · rw [runs]
    rfl

/-- Substitutions never nest: with any limit but zero evaluation is the same, even
if deeper substitutions are replaced by anything at all, and nothing too deep is
met or reported. With the limit zero a token with a text in back quotes cannot be
expanded, and a call fails in the very session in which it comes to such a text,
and is the same as ever if it comes to none. -/
theorem substitutions_never_nest (sh : Shell) (command : Command) (m n : Nat) (someM : 1 ≤ m)
    (someN : 1 ≤ n) :
    ({ sh with levels := m } : Shell).evaluateTop command =
        ({ sh with levels := n } : Shell).evaluateTop command ∧
      (∀ deeper, ({ sh with levels := n } : Shell).evaluateTop command =
        sh.evaluate (substituteOnce sh deeper) command) ∧
      (∀ s result s', (({ sh with levels := n } : Shell).evaluateTop command).start s =
          some (result, s') →
        (∀ limit, result ≠ .error (.tooDeep limit)) ∧
          ∃ new, s'.reports = s.reports ++ new ∧ ∀ limit, .tooDeep limit ∉ new) ∧
      (∀ token, regions token ≠ [] →
        Word.expand (({ sh with levels := 0 } : Shell).substitute 0) Shell.glob token =
          throw (.tooDeep 0)) ∧
      ∀ c s, (∀ run run', (sh.call run c).start s = (sh.call run' c).start s) ∨
        ∃ token ∈ c.tokens, ∃ text ∈ regions token, ∃ s', Asks (fun run => sh.call run c) s text s' ∧
          (({ sh with levels := 0 } : Shell).call (({ sh with levels := 0 } : Shell).substitute 0)
            c).start s = some (.error (.tooDeep 0), s') := by
  refine ⟨?_, fun deeper => evaluateTop_once sh someN deeper command, fun s result s' ran => ?_,
    fun token some => ?_, fun c s => ?_⟩
  · have none : Substitution := fun _ => pure ""
    rw [evaluateTop_once sh someM none command, evaluateTop_once sh someN none command]
  · have rel : (shallow s.reports).Rel s s := ⟨rfl, [], by simp, by simp⟩
    have ends := evaluateTop_shallow { sh with levels := n } someN command s.reports rel
    rw [ran] at ends
    cases ends with
    | both admitted rel =>
      obtain ⟨-, new, since, fine⟩ := rel
      refine ⟨fun limit failed => ?_, new, since, fine⟩
      exact admitted _ failed .deep rfl rfl
  · have fails : ({ sh with levels := 0 } : Shell).substitute 0 = fun _ => throw (.tooDeep 0) := rfl
    rw [fails, Word.expand, scan_throw some]
    rfl
  · rcases call_reaches sh c s with same | ⟨text, ⟨token, held, member⟩, s', asks⟩
    · exact .inl same
    · exact .inr ⟨token, held, text, member, s', asks, start_of_asks asks⟩

/-- A command in back quotes with the limits one, eight and zero. -/
theorem echo_in_back_quotes_by_limit :
    ({ levels := 1 } : Shell).evaluateTop (.call ⟨["echo", "`echo x`"]⟩) =
        ({ levels := 8 } : Shell).evaluateTop (.call ⟨["echo", "`echo x`"]⟩) ∧
      ((({ levels := 1 } : Shell).evaluateTop (.call ⟨["echo", "`echo x`"]⟩)).start {}).map
          (fun ended => (ended.1, ended.2.output)) =
        some (.ok .proceed, .outlet { taken := Text.bytes "x\n" }) ∧
      ((({ levels := 0 } : Shell).evaluateTop (.call ⟨["echo", "`echo x`"]⟩)).start {}).map
          (fun ended => (ended.1, ended.2.output)) =
        some (.error (.tooDeep 0), .unlimited) :=
  ⟨(substitutions_never_nest {} (.call ⟨["echo", "`echo x`"]⟩) 1 8 (by decide) (by decide)).1,
    by decide +kernel, by decide +kernel⟩

end LineShell.SubstitutionDepth
