import LineShell.Proofs.CallDispatch
import LineShell.Proofs.QuotedWords
import LineShell.Proofs.SubstitutionFree

/-! Words that are settled before anything runs. A token without a back quote and
without a plain star stands for the same words in every session, and none of
them is looked up. A call of such tokens that opens no output is prepared without
a trace: what comes of it depends on the disk and the directory only. And the
redirections of a call can be read one part after the other. -/
namespace LineShell.SettledWords
open StepAgreement SessionBonds EvaluationAgreement CallDispatch QuoteRegions SubstitutionFree

variable {ε α β : Type} {d : Disk} {cwd : Place} (run : Substitution)

/-! Steps without a trace. -/

/-- A step that goes by the disk and the directory, and changes nothing. -/
def Settled (d : Disk) (cwd : Place) (act : Act ε α) : Prop :=
  ∃ result, ∀ s : Session, s.disk = d → s.cwd = cwd → act.start s = some (result, s)

namespace Settled

theorem ofExcept (result : Except ε α) : Settled d cwd (Act.ofExcept result) :=
  ⟨result, fun _ _ _ => rfl⟩

theorem pure (a : α) : Settled d cwd (Pure.pure a : Act ε α) := ⟨.ok a, fun _ _ _ => rfl⟩

theorem throw (e : ε) : Settled d cwd (MonadExcept.throw e : Act ε α) :=
  ⟨.error e, fun _ _ _ => rfl⟩

theorem bind_given {act : Act ε α} {next : α → Act ε β} (first : Settled d cwd act)
    (rest : ∀ a, Gives act a → Settled d cwd (next a)) : Settled d cwd (act >>= next) := by
  obtain ⟨result, ran⟩ := first
  cases result with
  | error e =>
    refine ⟨.error e, fun s disk dir => ?_⟩
    rw [start_bind, ran s disk dir]
  | ok a =>
    obtain ⟨later, ran'⟩ := rest a ⟨{ disk := d, cwd }, _, ran _ rfl rfl⟩
    refine ⟨later, fun s disk dir => ?_⟩
    rw [start_bind, ran s disk dir]
    exact ran' s disk dir

theorem bind {act : Act ε α} {next : α → Act ε β} (first : Settled d cwd act)
    (rest : ∀ a, Settled d cwd (next a)) : Settled d cwd (act >>= next) :=
  first.bind_given fun a _ => rest a

theorem guard {γ : Type} {c : Prop} [Decidable c] {e : ε} {k : γ → Act ε α} {act : Act ε α}
    (goesOn : Settled d cwd act) :
    Settled d cwd (if c then (MonadExcept.throw e : Act ε γ) >>= k else act) := by
  split
  · exact ⟨.error e, fun _ _ _ => rfl⟩
  · exact goesOn

theorem keeps {act : Act ε α} {s s' : Session} {result : Except ε α}
    (settled : Settled s.disk s.cwd act) (ran : act.start s = some (result, s')) : s' = s := by
  obtain ⟨known, settled⟩ := settled
  exact (Prod.mk.inj (Option.some.inj (ran.symm.trans (settled s rfl rfl)))).2

theorem resolve (path : String) : Settled d cwd (Act.resolve path : Act ε Place) := by
  refine ⟨.ok (Path.resolve cwd path), fun s _ dir => ?_⟩
  rw [start_resolve, dir]

theorem viewDisk : Settled d cwd (Act.view (·.disk) : Act ε Disk) := by
  refine ⟨.ok d, fun s disk _ => ?_⟩
  rw [start_view, disk]

end Settled

/-! Tokens that stand for their words by themselves. -/

/-- A token without a back quote, without a star outside quotes, and which is no
sign for an output. -/
structure Plain (token : String) : Prop where
  backFree : BackFree token
  starless : Uncut (· = '*') token.toList
  signless : ¬ Opens token

instance (token : String) : Decidable (Plain token) :=
  decidable_of_iff (Quote.backMark ∉ token.toList ∧ Uncut (· = '*') token.toList ∧
      ¬ (Token.redirect? token = some .output ∨ Token.redirect? token = some .append))
    ⟨fun ⟨back, star, sign⟩ => ⟨back, star, sign⟩, fun ⟨back, star, sign⟩ => ⟨back, star, sign⟩⟩

/-- A draft of words without stars. -/
def Clear (draft : Word.Draft) : Prop := ∀ word ∈ draft.current :: draft.done, .star ∉ word

theorem clear_touch {draft : Word.Draft} (clear : Clear draft) : Clear draft.touch := clear

theorem clear_add {draft : Word.Draft} (clear : Clear draft) (c : Char) :
    Clear (draft.add (.lit c)) := by
  obtain ⟨current, done⟩ := List.forall_mem_cons.mp clear
  refine List.forall_mem_cons.mpr ⟨fun held => ?_, done⟩
  rcases List.mem_cons.mp held with same | held
  · cases same
  · exact current held

theorem isBack_step {q : Quote} {c : Char} (outside : q.isBack = false) (other : c ≠ Quote.backMark) :
    (q.step c).isBack = false := by
  cases q with
  | plain => simp only [Quote.step, other, if_false]; split_ifs <;> rfl
  | single => simp only [Quote.step]; split_ifs <;> rfl
  | double => simp only [Quote.step, other, if_false]; split_ifs <;> rfl
  | back => cases outside
  | backInDouble => cases outside

/-- The scan of a text without back quotes and plain stars adds characters, or
fails at the end. -/
theorem scan_settled {q : Quote} (command : List Char) {draft : Word.Draft} {cs : List Char}
    (outside : q.isBack = false) (free : Quote.backMark ∉ cs)
    (starless : ∀ m ∈ q.mark cs, atPlain (· = '*') m = false) (clear : Clear draft) :
    (∃ draft', Clear draft' ∧ Word.scan run q command draft cs = pure draft') ∨
      ∃ e, Word.scan run q command draft cs = throw e := by
  induction cs generalizing q draft with
  | nil =>
    rw [Word.scan]
    split
    · exact .inl ⟨draft, clear, rfl⟩
    · exact .inr ⟨_, rfl⟩
  | cons c cs ih =>
    obtain ⟨here, later⟩ := not_or.mp fun held => free (List.mem_cons.mpr held)
    obtain ⟨first, others⟩ := List.forall_mem_cons.mp starless
    have still := isBack_step outside (Ne.symm here)
    have notBack : q ≠ .back := by rintro rfl; cases outside
    have notBackInDouble : q ≠ .backInDouble := by rintro rfl; cases outside
    have star : (q.isPlain && decide (c = '*')) = false := first
    simp only [Word.scan, notBack, notBackInDouble, outside, decide_false, Bool.false_and,
      Bool.false_eq_true, if_false, star, still]
    split
    · exact ih still later others (clear_touch clear)
    · exact ih still later others (clear_add clear c)

theorem lookUp_clear {words : List (List Symbol)} (clear : ∀ word ∈ words, .star ∉ word) :
    Word.lookUp Shell.glob words = pure (words.map Wildcard.literal) := by
  induction words with
  | nil => rfl
  | cons word words ih =>
    obtain ⟨first, others⟩ := List.forall_mem_cons.mp clear
    have starless : Wildcard.hasStar word = false := by simpa [Wildcard.hasStar] using first
    simp only [Word.lookUp, starless, Bool.false_eq_true, if_false, ih others, pure_bind,
      List.map_cons, List.singleton_append]

theorem words_clear {draft : Word.Draft} (clear : Clear draft) :
    ∀ word ∈ draft.words, .star ∉ word := by
  intro word held star
  simp only [Word.Draft.words, List.mem_reverse, List.mem_map] at held
  obtain ⟨raw, held, rfl⟩ := held
  have member : raw ∈ draft.current :: draft.done := by
    split at held
    · exact held
    · exact List.mem_cons_of_mem _ held
  exact clear raw member (List.mem_reverse.mp star)

theorem expand_settled {token : String} (plain : Plain token) :
    ∃ result, Word.expand run Shell.glob token = Act.ofExcept result := by
  have clear : Clear {} := by simp [Clear]
  rcases scan_settled run [] rfl plain.backFree plain.starless clear with
    ⟨draft, clear, scanned⟩ | ⟨e, scanned⟩
  · refine ⟨.ok (draft.words.map Wildcard.literal), ?_⟩
    rw [Word.expand, scanned, pure_bind, lookUp_clear (words_clear clear)]
    rfl
  · refine ⟨.error e, ?_⟩
    rw [Word.expand, scanned]
    rfl

theorem expandAll_settled {tokens : List String} (plain : ∀ token ∈ tokens, Plain token) :
    ∃ result, Word.expandAll run Shell.glob tokens = Act.ofExcept result := by
  induction tokens with
  | nil => exact ⟨.ok [], rfl⟩
  | cons token tokens ih =>
    obtain ⟨first, others⟩ := List.forall_mem_cons.mp plain
    obtain ⟨found, expanded⟩ := expand_settled run first
    obtain ⟨later, expandedAll⟩ := ih others
    rw [Word.expandAll, expanded, expandedAll]
    cases found with
    | error e => exact ⟨.error e, rfl⟩
    | ok words =>
      cases later with
      | error e => exact ⟨.error e, rfl⟩
      | ok rest => exact ⟨.ok (words ++ rest), rfl⟩

/-! Redirections. -/

theorem openInput_settled (name : String) : Settled d cwd (Redirection.openInput name) := by
  refine .bind (.resolve name) fun p => .bind .viewDisk fun d => .guard ?_
  split
  · exact .pure _
  · exact .throw _

theorem operandName_settled {operand : String} (plain : Plain operand) :
    Settled d cwd (Redirection.operandName (Word.expand run Shell.glob) operand) := by
  obtain ⟨result, expanded⟩ := expand_settled run plain
  rw [Redirection.operandName, expanded]
  refine .bind (.ofExcept result) fun words => ?_
  split
  · split
    · exact .throw _
    · exact .pure _
  · exact .throw _

theorem add_settled (r : Redirection) {token name : String} {sign : Token.Redirect}
    (read : Token.redirect? token = some sign) (signless : ¬ Opens token) :
    Settled d cwd (r.add sign name) := by
  cases sign with
  | input => exact .guard (.bind (openInput_settled name) fun _ => .pure _)
  | output => exact absurd (.inl read) signless
  | append => exact absurd (.inr read) signless

theorem extractFrom_settled : (tokens : List String) → (r : Redirection) →
    (∀ token ∈ tokens, Plain token) →
    Settled d cwd (Redirection.extractFrom (Word.expand run Shell.glob) r tokens)
  | [], _, _ => .pure _
  | [token], r, _ => by
    unfold Redirection.extractFrom
    split
    · exact .pure _
    · exact .throw _
  | token :: operand :: tokens, r, plain => by
    obtain ⟨first, others⟩ := List.forall_mem_cons.mp plain
    obtain ⟨second, later⟩ := List.forall_mem_cons.mp others
    unfold Redirection.extractFrom
    split
    · exact extractFrom_settled (operand :: tokens) _ others
    · rename_i sign read
      exact .guard (.bind (operandName_settled run second) fun name =>
        .bind (add_settled r read first.signless) fun r => extractFrom_settled tokens r later)

/-- A call of settled tokens is prepared without a trace. -/
theorem prepare_settled (sh : Shell) {c : Call} (plain : ∀ token ∈ c.tokens, Plain token) :
    Settled d cwd (prepare sh run c) := by
  refine .bind_given (extractFrom_settled run c.tokens {} plain) fun r given => ?_
  obtain ⟨result, expanded⟩ := expandAll_settled run (extract_prepared plain given).rest
  rw [expanded]
  refine .bind (.ofExcept result) fun words => ?_
  cases words with
  | nil => exact .throw _
  | cons name args =>
    dsimp only
    cases sh.find? name with
    | none => exact .throw _
    | some app => exact .pure _

/-- Redirections are taken out of tokens one part after the other. -/
theorem extractFrom_append {expand : String → Act Failure (List String)} {r' : Redirection}
    {s s' : Session} (more : List String) : (tokens : List String) → (r : Redirection) →
    (Redirection.extractFrom expand r tokens).start s = some (.ok r', s') →
    (Redirection.extractFrom expand r (tokens ++ more)).start s =
      (Redirection.extractFrom expand { r' with rest := r'.rest.reverse } more).start s'
  | [], r, ran => by
    cases ran
    rw [List.nil_append, List.reverse_reverse]
  | [token], r, ran => by
    unfold Redirection.extractFrom at ran
    split at ran
    · rename_i read
      cases ran
      cases more with
      | nil => simp [Redirection.extractFrom, read]
      | cons operand tokens => simp [Redirection.extractFrom, read]
    · cases ran
  | token :: operand :: tokens, r, ran => by
    unfold Redirection.extractFrom at ran
    rw [List.cons_append, List.cons_append, Redirection.extractFrom]
    split at ran
    · exact extractFrom_append more (operand :: tokens) _ ran
    · split at ran
      · cases ran
      · rename_i other
        dsimp only
        rw [if_neg other]
        rcases start_bind_eq_some_iff.mp ran with ⟨e, -, failed⟩ | ⟨name, s₁, named, ran⟩
        · cases failed
        rcases start_bind_eq_some_iff.mp ran with ⟨e, -, failed⟩ | ⟨added, s₂, adds, ran⟩
        · cases failed
        rw [start_bind, named]
        dsimp only
        rw [start_bind, adds]
        exact extractFrom_append more tokens added ran

end LineShell.SettledWords
