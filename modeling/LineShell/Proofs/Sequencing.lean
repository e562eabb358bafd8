import LineShell.Proofs.JournalAside

/-! Sequencing is composition. A semicolon between two lines makes one sequence of
their commands, and a sequence that is cut in two is one evaluation after the
other, unless the first one ends the session. -/
namespace LineShell.Sequencing
open Text QuoteRegions LineLanguage StepAgreement SessionBonds EvaluationAgreement JournalAside

/-- Takes a step, and the next one unless the first ends the session. -/
def onProceed (first next : Act Failure Outcome) : Act Failure Outcome := do
  match ← first with
  | .proceed => next
  | .exit code => return .exit code

/-! Reading. -/

/-- Two lines with a semicolon between them are read as the commands of both. -/
theorem parse_semicolon {a b : String} {xs ys : List Command}
    (visibleA : allBlank a.toList = false) (visibleB : allBlank b.toList = false)
    (readA : Command.parse a = .ok (.sequence xs)) (readB : Command.parse b = .ok (.sequence ys)) :
    Command.parse (a ++ ";" ++ b) = .ok (.sequence (xs ++ ys)) := by
  have spelled : (a ++ ";" ++ b).toList = a.toList ++ ';' :: b.toList := by simp
  rcases parse_inversion readA with ⟨blank, -⟩ | ⟨unbrokenA, closedA, _, same, segmentsA⟩
  · rw [visibleA] at blank
    cases blank
  rcases parse_inversion readB with ⟨blank, -⟩ | ⟨unbrokenB, closedB, _, same', segmentsB⟩
  · rw [visibleB] at blank
    cases blank
  cases same
  cases same'
  have visible : allBlank (a ++ ";" ++ b).toList = false := by
    rw [spelled]
    simp only [allBlank, List.all_append, Bool.and_eq_false_iff] at visibleA ⊢
    exact .inl visibleA
  have unbroken : ¬ ('\n' ∈ (a ++ ";" ++ b).toList ∨ '\r' ∈ (a ++ ";" ++ b).toList) := by
    rw [spelled]
    simp only [List.mem_append, List.mem_cons]
    grind
  have closed : Quote.plain.after (a ++ ";" ++ b).toList = .plain := by
    rw [spelled, Quote.after_append, closedA, Quote.after_cons]
    exact closedB
  refine (parse_eq_ok_iff visible unbroken closed).mpr ⟨_, rfl, ?_⟩
  rw [spelled, pieces_append_cons closedA (by decide) (by decide)]
  exact List.rel_append segmentsA segmentsB

/-! Evaluating. -/

variable {sh : Shell} {run : Substitution}

theorem evaluateAll_append (xs ys : List Command) :
    sh.evaluateAll run (xs ++ ys) = onProceed (sh.evaluateAll run xs) (sh.evaluateAll run ys) := by
  induction xs with
  | nil => rfl
  | cons command xs ih =>
    simp only [List.cons_append, Shell.evaluateAll, onProceed, bind_assoc] at ih ⊢
    refine bind_congr fun result => ?_
    rcases result with e | _ | code
    · simp only [ih, bind_assoc]
    · exact ih
    · rfl

/-- A sequence reports the failures of its commands and has none itself. -/
theorem evaluateAll_ok {commands : List Command} {s s' : Session} {result : Except Failure Outcome}
    (ran : (sh.evaluateAll run commands).start s = some (result, s')) :
    ∃ outcome, result = .ok outcome := by
  induction commands generalizing s with
  | nil =>
    cases ran
    exact ⟨_, rfl⟩
  | cons command commands ih =>
    rw [Shell.evaluateAll, start_bind, start_attempt] at ran
    cases ended : (sh.evaluate run command).start s with
    | none =>
      rw [ended] at ran
      cases ran
    | some first =>
      rw [ended] at ran
      obtain ⟨first, s₁⟩ := first
      rcases first with e | _ | code
      · simp only [Option.map, start_bind, start_report] at ran
        exact ih ran
      · exact ih ran
      · cases ran
        exact ⟨_, rfl⟩

/-- An error that never comes need not be caught. -/
theorem attempt_bind_of_ok {α β : Type} {act : Act Failure α} {k : Except Failure α → Act Failure β}
    (fine : ∀ s result s', act.start s = some (result, s') → ∃ a, result = .ok a) :
    Act.attempt act >>= k = act >>= fun a => k (.ok a) := by
  funext s
  change (Act.attempt act >>= k).start s = (act >>= fun a => k (.ok a)).start s
  rw [start_bind, start_bind, start_attempt]
  cases ended : act.start s with
  | none => rfl
  | some result =>
    obtain ⟨result, s'⟩ := result
    obtain ⟨a, rfl⟩ := fine s result s' ended
    rfl

/-- A sequence among commands is as good as its own commands. -/
theorem evaluateAll_nested (ys zs : List Command) :
    sh.evaluateAll run (.sequence ys :: zs) = sh.evaluateAll run (ys ++ zs) := by
  rw [evaluateAll_append, Shell.evaluateAll, Shell.evaluate,
    attempt_bind_of_ok fun _ _ _ ran => evaluateAll_ok ran]
  exact bind_congr fun outcome => by cases outcome <;> rfl

/-- A line does what its commands do, the journal and a flush aside. -/
theorem line_agrees (sh : Shell) {line : String} {commands : List Command}
    (read : Command.parse line = .ok (.sequence commands)) :
    (alike (fun _ => True) True).Agrees (sh.evaluateLine line)
      (sh.evaluateTop (.sequence commands)) := by
  refine parse_skips read ?_
  have evaluated : sh.evaluateTop (.sequence commands) =
      sh.evaluateTop (.sequence commands) >>= pure := (bind_pure _).symm
  rw [evaluated]
  simp only [bind_assoc, pure_bind]
  refine .bind (alike_evaluateTop trivial trivial sh _) fun outcome =>
    .skip (b := ()) (fun s t rel => ⟨s, ?_, rel⟩) (.pure outcome)
  rw [start_mapError, Alike.start_flush rel]
  rfl

/-- Sequencing is composition: two lines with a semicolon between them are one
evaluation after the other, sequences can be nested or not, and a sequence never
fails. -/
theorem semicolon_is_composition (sh : Shell) (a b : String) (first second : Command)
    (visibleA : allBlank a.toList = false) (visibleB : allBlank b.toList = false)
    (readA : Command.parse a = .ok first) (readB : Command.parse b = .ok second) :
    Command.parse (a ++ ";" ++ b) =
        .ok (.sequence (Shell.elements first ++ Shell.elements second)) ∧
      (∀ s : Session, s.output.flush = none →
        EndAlike ((sh.evaluateLine (a ++ ";" ++ b)).start s)
          ((onProceed (sh.evaluateLine a) (sh.evaluateLine b)).start s)) ∧
      (∀ run xs ys zs, sh.evaluate run (.sequence (xs ++ [.sequence ys] ++ zs)) =
        sh.evaluate run (.sequence (xs ++ ys ++ zs))) ∧
      ∀ run commands s result s',
        (sh.evaluate run (.sequence commands)).start s = some (result, s') →
          ∃ outcome, result = .ok outcome := by
  obtain ⟨xs, rfl, -⟩ := parse_parts readA
  obtain ⟨ys, rfl, -⟩ := parse_parts readB
  have read := parse_semicolon visibleA visibleB readA readB
  refine ⟨read, fun s flushes => ?_, fun run xs ys zs => ?_, fun run commands s result s' ran => ?_⟩
  · have split : sh.evaluateTop (.sequence (xs ++ ys)) =
        onProceed (sh.evaluateTop (.sequence xs)) (sh.evaluateTop (.sequence ys)) :=
      evaluateAll_append xs ys
    -- Both sides do what the two lists of commands do, one after the other.
    have apart : (alike (fun _ => True) True).Agrees
        (onProceed (sh.evaluateLine a) (sh.evaluateLine b))
        (onProceed (sh.evaluateTop (.sequence xs)) (sh.evaluateTop (.sequence ys))) := by
      refine .bind (line_agrees sh readA) fun outcome => ?_
      cases outcome with
      | proceed => exact line_agrees sh readB
      | exit code => exact .pure _
    have together := line_agrees sh read
    rw [split] at together
    exact endAlike_of_agrees (agrees_trans together (agrees_symm apart)) (smooth_of_flush flushes)
      fun _ _ _ => trivial
  · simp only [Shell.evaluate, List.append_assoc, List.singleton_append, evaluateAll_append xs,
      evaluateAll_nested]
  · exact evaluateAll_ok ran

/-- What comes after `exit` is not run, on the same line or on the next. -/
theorem semicolon_after_exit :
    EndAlike ((({} : Shell).evaluateLine "echo x;exit;echo y").start {})
        ((onProceed (({} : Shell).evaluateLine "echo x;exit")
          (({} : Shell).evaluateLine "echo y")).start {}) ∧
      ((({} : Shell).evaluateLine "echo x;exit;echo y").start {}).map
          (fun ended => (ended.1, ended.2.output)) =
        some (.ok (.exit 0), .outlet { taken := bytes "x\n" }) := by
  have reads (line : String) (fine : (Command.parse line).isOk = true) :
      ∃ command, Command.parse line = .ok command := by
    cases read : Command.parse line with
    | ok command => exact ⟨command, rfl⟩
    | error fault =>
      rw [read] at fine
      cases fine
  obtain ⟨first, readA⟩ := reads "echo x;exit" (by decide +kernel)
  obtain ⟨second, readB⟩ := reads "echo y" (by decide +kernel)
  obtain ⟨-, alike, -⟩ := semicolon_is_composition {} "echo x;exit" "echo y" first second
    (by decide +kernel) (by decide +kernel) readA readB
  have joined : "echo x;exit" ++ ";" ++ "echo y" = "echo x;exit;echo y" := by decide
  rw [joined] at alike
  exact ⟨alike {} rfl, by decide +kernel⟩

end LineShell.Sequencing
