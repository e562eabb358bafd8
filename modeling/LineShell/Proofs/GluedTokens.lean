import LineShell.Proofs.EchoLine
import LineShell.Proofs.QuoteRegions
import LineShell.Proofs.TextLogs
import LineShell.Proofs.TokenRegions

/-! Words of tokens that are written without a space between them. The last word of
the first joins the first word of the second, and a token that stands for no word
adds none. Whatever a scan meets is glued to the words so far in this way, and
gluing is associative: so a token can be cut wherever its quotes are closed. -/
namespace LineShell.GluedTokens
open StepAgreement QuoteRegions TokenRegions TextLogs Word

/-- Two lists of words, of which the last word of the first and the first word of
the second become one. -/
def glue {α : Type} [Append α] (xs ys : List α) : List α :=
  match xs.getLast?, ys with
  | none, ys => ys
  | some _, [] => xs
  | some x, y :: ys => xs.dropLast ++ (x ++ y) :: ys

section Glue

variable {α β : Type} [Append α] [Append β]

@[simp] theorem nil_glue (ys : List α) : glue [] ys = ys := rfl

@[simp] theorem glue_nil (xs : List α) : glue xs [] = xs := by
  rcases List.eq_nil_or_concat' xs with rfl | ⟨xs, x, rfl⟩
  · rfl
  · simp [glue]

@[simp] theorem glue_cons (xs : List α) (x y : α) (ys : List α) :
    glue (xs ++ [x]) (y :: ys) = xs ++ (x ++ y) :: ys := by
  simp [glue]

theorem map_glue {f : α → β} (hom : ∀ x y, f (x ++ y) = f x ++ f y) (xs ys : List α) :
    (glue xs ys).map f = glue (xs.map f) (ys.map f) := by
  rcases List.eq_nil_or_concat' xs with rfl | ⟨xs, x, rfl⟩
  · rfl
  · cases ys with
    | nil => simp
    | cons y ys => simp [hom]

theorem glue_assoc {γ : Type} (xs ys zs : List (List γ)) :
    glue (glue xs ys) zs = glue xs (glue ys zs) := by
  rcases List.eq_nil_or_concat' xs with rfl | ⟨xs, x, rfl⟩
  · rfl
  rcases ys with _ | ⟨y, ys⟩
  · rw [nil_glue, glue_nil]
  rcases zs with _ | ⟨z, zs⟩
  · rw [glue_nil, glue_nil]
  -- The middle list is one word, which joins both sides, or has a first and a last.
  rcases List.eq_nil_or_concat' ys with rfl | ⟨ys, y', rfl⟩
  · have middle : glue [y] (z :: zs) = (y ++ z) :: zs := glue_cons [] y z zs
    rw [glue_cons, glue_cons, middle, glue_cons, List.append_assoc]
  · have middle : glue (y :: (ys ++ [y'])) (z :: zs) = y :: (ys ++ (y' ++ z) :: zs) :=
      glue_cons (y :: ys) y' z zs
    have left : xs ++ (x ++ y) :: (ys ++ [y']) = (xs ++ (x ++ y) :: ys) ++ [y'] := by simp
    rw [glue_cons, middle, glue_cons, left, glue_cons]
    simp

theorem mem_glue {γ : Type} {xs ys : List (List γ)} {word : List γ} {g : γ}
    (held : word ∈ glue xs ys) (inside : g ∈ word) : ∃ word' ∈ xs ++ ys, g ∈ word' := by
  rcases List.eq_nil_or_concat' xs with rfl | ⟨xs, x, rfl⟩
  · exact ⟨word, held, inside⟩
  · cases ys with
    | nil => exact ⟨word, by simpa using held, inside⟩
    | cons y ys =>
      rw [glue_cons, List.mem_append, List.mem_cons] at held
      rcases held with held | rfl | held
      · exact ⟨word, by simp [held], inside⟩
      · rcases List.mem_append.mp inside with inside | inside
        · exact ⟨x, by simp, inside⟩
        · exact ⟨y, by simp, inside⟩
      · exact ⟨word, by simp [held], inside⟩

end Glue

/-! Drafts. -/

/-- A draft in which no word is made yet is empty. -/
def Begun (d : Draft) : Prop := d.started = false → d = {}

/-- Words in which nothing is a wildcard. -/
def Starless (words : List (List Symbol)) : Prop := ∀ word ∈ words, .star ∉ word

/-- A change to a draft that glues some words to it. -/
structure Glues (words : List (List Symbol)) (change : Draft → Draft) : Prop where
  begun : ∀ {d}, Begun d → Begun (change d)
  words : ∀ {d}, Begun d → (change d).words = glue d.words words

theorem words_of_started {d : Draft} (started : d.started = true) :
    d.words = (d.done.map List.reverse).reverse ++ [d.current.reverse] := by
  simp [Draft.words, started]

/-- What adds to the word being made, and begins one if there is none. -/
theorem glues_current {change : Draft → Draft} {word : List Symbol}
    (started : ∀ d, (change d).started = true) (done : ∀ d, (change d).done = d.done)
    (current : ∀ d, (change d).current = word.reverse ++ d.current) : Glues [word] change where
  begun := fun {d} _ unstarted => by rw [started] at unstarted; cases unstarted
  words := fun {d} begun => by
    rw [words_of_started (started d), done, current]
    cases isStarted : d.started with
    | false => rw [begun isStarted]; simp [Draft.words]
    | true => rw [words_of_started isStarted, glue_cons]; simp

theorem glues_touch : Glues [[]] Draft.touch :=
  glues_current (fun _ => rfl) (fun _ => rfl) (fun _ => rfl)

theorem glues_add (symbol : Symbol) : Glues [[symbol]] (·.add symbol) :=
  glues_current (fun _ => rfl) (fun _ => rfl) (fun _ => rfl)

theorem foldl_lit (cs : List Char) (word : List Symbol) :
    cs.foldl (fun word c => .lit c :: word) word = (cs.map Symbol.lit).reverse ++ word := by
  induction cs generalizing word with
  | nil => rfl
  | cons c cs ih => simp [ih]

theorem glues_addText (cs : List Char) : Glues [cs.map .lit] (·.addText cs) :=
  glues_current (fun _ => rfl) (fun _ => rfl) (fun d => foldl_lit cs d.current)

theorem glue_cons_eq {α : Type} [Append α] (xs : List α) (y : α) (ys : List α) :
    glue xs (y :: ys) = glue xs [y] ++ ys := by
  rcases List.eq_nil_or_concat' xs with rfl | ⟨xs, x, rfl⟩
  · rfl
  · simp

theorem glues_addWords (texts : List (List Char)) :
    Glues (texts.map (·.map .lit)) (·.addWords texts) := by
  cases texts with
  | nil => exact ⟨id, fun _ => (glue_nil _).symm⟩
  | cons first others =>
    have joins := glues_addText first
    have begun (d : Draft) : (others.foldl Draft.next (d.addText first)).started = true := by
      rcases List.eq_nil_or_concat' others with rfl | ⟨others, last, rfl⟩
      · rfl
      · rw [List.foldl_append]
        rfl
    refine ⟨fun {d} _ unstarted => ?_, fun {d} isBegun => ?_⟩
    · exact absurd ((begun d).symm.trans unstarted) nofun
    · rw [List.map_cons, glue_cons_eq, ← joins.words isBegun]
      exact EchoLine.words_foldl_next rfl others

theorem glues_nothing : Glues [] id := ⟨id, fun _ => (glue_nil _).symm⟩

/-! The steps of a scan. -/

section Steps

variable {m : Type → Type} [Monad m] [MonadExceptOf Failure m] {q : Quote}

/-- Outside back quotes a character glues a word, or nothing where it opens back
quotes. -/
theorem scan_outside_glues (outside : q.isBack = false) (c : Char) :
    ∃ words change, Glues words change ∧ (atPlain (· = '*') (q, c) = false → Starless words) ∧
      ∀ (run : String → m String) command draft cs,
        Word.scan run q command draft (c :: cs) =
          Word.scan run (q.step c) command (change draft) cs := by
  have notBack : q ≠ .back := by rintro rfl; cases outside
  have notBackInDouble : q ≠ .backInDouble := by rintro rfl; cases outside
  simp only [Word.scan, notBack, notBackInDouble, outside, decide_false, Bool.false_and,
    Bool.false_eq_true, if_false]
  by_cases turns : q.step c = q
  · simp only [turns, ne_eq, not_true_eq_false, if_false]
    by_cases star : (q.isPlain && decide (c = '*')) = true
    · simp only [star, if_true]
      refine ⟨_, _, glues_add .star, fun plain => ?_, fun _ _ _ _ => rfl⟩
      cases star.symm.trans plain
    · simp only [star, Bool.false_eq_true, if_false]
      exact ⟨_, _, glues_add (.lit c), fun _ => by simp [Starless], fun _ _ _ _ => rfl⟩
  · simp only [ne_eq, turns, not_false_eq_true, if_true]
    by_cases opens : (q.step c).isBack = true
    · simp only [opens, if_true]
      exact ⟨_, _, glues_nothing, fun _ => by simp [Starless], fun _ _ _ _ => rfl⟩
    · simp only [opens, Bool.false_eq_true, if_false]
      exact ⟨_, _, glues_touch, fun _ => by simp [Starless], fun _ _ _ _ => rfl⟩

/-- A text in back quotes is run when they close, and its words are glued. -/
theorem scan_close_glues (inside : q.isBack = true) :
    ∃ (words : String → List (List Symbol)) (change : String → Draft → Draft),
      (∀ output, Glues (words output) (change output) ∧ Starless (words output)) ∧
      ∀ (run : String → m String) command draft cs,
        Word.scan run q command draft (Quote.backMark :: cs) = (do
          let output ← run (String.ofList command.reverse)
          Word.scan run (q.step Quote.backMark) [] (change output draft) cs) := by
  rcases isBack_iff.mp inside with rfl | rfl
  · refine ⟨_, _, fun output => ⟨glues_addWords (Text.blankWords (tidy output.toList)), ?_⟩,
      fun _ _ _ _ => rfl⟩
    simp [Starless]
  · refine ⟨_, _, fun output => ⟨glues_addText (tidy output.toList), ?_⟩, fun _ _ _ _ => rfl⟩
    simp [Starless]

end Steps

/-! Scans from an empty draft. -/

section Scans

variable {n : Type → Type} [Monad n] [LawfulMonad n] {β : Type}
  (run : String → ExceptT Failure n String)

/-- A draft made by a scan: no word that is not begun, and no wildcard. -/
structure Fine (d : Draft) : Prop where
  begun : Begun d
  starless : Starless d.words

theorem fine_empty : Fine {} := ⟨fun _ => rfl, by simp [Starless, Draft.words]⟩

theorem Fine.change {d : Draft} {words : List (List Symbol)} {change : Draft → Draft}
    (fine : Fine d) (glues : Glues words change) (starless : Starless words) : Fine (change d) where
  begun := glues.begun fine.begun
  starless := by
    rw [glues.words fine.begun]
    intro word held star
    obtain ⟨word', held, star⟩ := mem_glue held star
    rcases List.mem_append.mp held with held | held
    · exact fine.starless word' held star
    · exact starless word' held star

/-- What follows a scan without plain stars only has to be known for fine drafts. -/
theorem scan_bind_congr {q : Quote} (command : List Char) {d : Draft} {cs : List Char}
    {next next' : Draft → ExceptT Failure n β} (fine : Fine d)
    (starless : ∀ mark ∈ q.mark cs, atPlain (· = '*') mark = false)
    (same : ∀ d, Fine d → next d = next' d) :
    Word.scan run q command d cs >>= next = Word.scan run q command d cs >>= next' := by
  induction cs generalizing q command d with
  | nil =>
    unfold Word.scan
    split
    · simp only [pure_bind, same d fine]
    · simp only [throw_bind]
  | cons c cs ih =>
    obtain ⟨first, others⟩ := List.forall_mem_cons.mp starless
    cases inside : q.isBack with
    | false =>
      obtain ⟨words, change, glues, clear, scanned⟩ :=
        scan_outside_glues (m := ExceptT Failure n) inside c
      rw [scanned]
      exact ih command (fine.change glues (clear first)) others
    | true =>
      by_cases closes : c = Quote.backMark
      · subst closes
        obtain ⟨words, change, glues, scanned⟩ := scan_close_glues (m := ExceptT Failure n) inside
        rw [scanned, bind_assoc, bind_assoc]
        refine bind_congr fun output => ?_
        exact ih [] (fine.change (glues output).1 (glues output).2) others
      · rw [scan_inside inside closes]
        rw [step_of_isBack inside closes] at others
        exact ih (c :: command) fine others

/-- A scan glues its words to those of the draft that it starts from. -/
theorem scan_glues (q : Quote) (command : List Char) {d : Draft} (begun : Begun d)
    (cs : List Char) :
    Draft.words <$> Word.scan run q command d cs =
      (fun e => glue d.words e.words) <$> Word.scan run q command {} cs := by
  induction cs generalizing q command d with
  | nil =>
    unfold Word.scan
    split
    · simp [Draft.words]
    · simp only [map_throw]
  | cons c cs ih =>
    -- A change to either draft glues the same words; gluing them first or last is one.
    have glued (q : Quote) (command : List Char) {words : List (List Symbol)}
        {change : Draft → Draft} (glues : Glues words change) :
        Draft.words <$> Word.scan run q command (change d) cs =
          (fun e => glue d.words e.words) <$> Word.scan run q command (change {}) cs := by
      have nothing : Begun {} := fun _ => rfl
      have later : (fun e => glue d.words (Draft.words e)) =
          (fun words => glue d.words words) ∘ Draft.words := rfl
      rw [ih q command (glues.begun begun), later, comp_map, ih q command (glues.begun nothing),
        ← comp_map, glues.words begun, glues.words nothing]
      congr 1
      funext e
      exact glue_assoc _ _ _
    cases inside : q.isBack with
    | false =>
      obtain ⟨words, change, glues, -, scanned⟩ :=
        scan_outside_glues (m := ExceptT Failure n) inside c
      rw [scanned, scanned]
      exact glued _ _ glues
    | true =>
      by_cases closes : c = Quote.backMark
      · subst closes
        obtain ⟨words, change, glues, scanned⟩ := scan_close_glues (m := ExceptT Failure n) inside
        rw [scanned, scanned, map_bind, map_bind]
        exact bind_congr fun output => glued _ _ (glues output).1
      · rw [scan_inside inside closes, scan_inside inside closes]
        exact ih _ _ begun

/-- Where the quotes are closed, a scan can be taken up again. -/
theorem scan_append {q : Quote} {command xs : List Char} (waits : q.isBack = false → command = [])
    (closed : q.after xs = .plain) (d : Draft) (ys : List Char) :
    Word.scan run q command d (xs ++ ys) =
      Word.scan run q command d xs >>= fun e => Word.scan run .plain [] e ys := by
  induction xs generalizing q command d with
  | nil =>
    obtain rfl : q = .plain := closed
    obtain rfl := waits rfl
    change _ = (pure d : ExceptT Failure n Draft) >>= _
    rw [List.nil_append, pure_bind]
  | cons x xs ih =>
    rw [List.cons_append]
    cases inside : q.isBack with
    | false =>
      obtain ⟨words, change, -, -, scanned⟩ := scan_outside_glues (m := ExceptT Failure n) inside x
      rw [scanned, scanned]
      exact ih (fun _ => waits inside) closed _
    | true =>
      by_cases closes : x = Quote.backMark
      · subst closes
        obtain ⟨words, change, -, scanned⟩ := scan_close_glues (m := ExceptT Failure n) inside
        rw [scanned, scanned, bind_assoc]
        exact bind_congr fun output => ih (fun _ => rfl) closed _
      · rw [scan_inside inside closes, scan_inside inside closes]
        rw [Quote.after_cons, step_of_isBack inside closes] at closed
        exact ih (fun outside => absurd (inside.symm.trans outside) nofun) closed d

variable (glob : List Symbol → ExceptT Failure n (List String))

theorem lookUp_starless {words : List (List Symbol)} (starless : Starless words) :
    Word.lookUp glob words = pure (words.map Wildcard.literal) := by
  induction words with
  | nil => rfl
  | cons word words ih =>
    obtain ⟨first, others⟩ := List.forall_mem_cons.mp starless
    have noStar : Wildcard.hasStar word = false := by simpa [Wildcard.hasStar] using first
    simp [Word.lookUp, noStar, ih others]

/-- A token without a plain star is scanned, and nothing is looked up. -/
theorem expand_starless {token : String} (starless : Uncut (· = '*') token.toList) :
    Word.expand run glob token =
      (fun d => d.words.map Wildcard.literal) <$> Word.scan run .plain [] {} token.toList := by
  rw [map_eq_pure_bind]
  exact scan_bind_congr run [] fine_empty starless fun d fine => lookUp_starless glob fine.starless

theorem literal_append (word word' : List Symbol) :
    Wildcard.literal (word ++ word') = Wildcard.literal word ++ Wildcard.literal word' := by
  simp [Wildcard.literal, String.ofList_append]

/-- A token that can be cut stands for the words of its parts, glued together. -/
theorem expand_append {token later : String} (closed : Quote.plain.after token.toList = .plain)
    (starless : Uncut (· = '*') token.toList) (starlessLater : Uncut (· = '*') later.toList) :
    Word.expand run glob (token ++ later) = (do
      let words ← Word.expand run glob token
      let more ← Word.expand run glob later
      return glue words more) := by
  have whole : Uncut (· = '*') (token ++ later).toList := by
    rw [String.toList_append]
    exact (uncut_append closed).mpr ⟨starless, starlessLater⟩
  rw [expand_starless run glob whole, expand_starless run glob starless,
    expand_starless run glob starlessLater, String.toList_append,
    scan_append run (fun _ => rfl) closed, map_bind, bind_map_left]
  refine scan_bind_congr run [] fine_empty starless fun d fine => ?_
  calc (fun e : Draft => e.words.map Wildcard.literal) <$> Word.scan run .plain [] d later.toList
      = List.map Wildcard.literal <$> Draft.words <$> Word.scan run .plain [] d later.toList := by
        rw [← comp_map]
        rfl
    _ = (fun e : Draft => (glue d.words e.words).map Wildcard.literal) <$>
          Word.scan run .plain [] {} later.toList := by
        rw [scan_glues run _ _ fine.begun, ← comp_map]
        rfl
    _ = _ := by
        simp only [map_glue literal_append, map_eq_pure_bind, bind_assoc, pure_bind]

end Scans

/-! Tokens that are glued. -/

/-- The words of a token, with a log of the texts passed for them. -/
def expandLogged (run : Substitution) (token : String) : Logged (List String) :=
  Word.expand (logged run) look token

/-- A token that closes its quotes and another one after it, neither with a plain
star, stand together for the words of the first and those of the second, of which
the last and the first one are glued. The texts of the first are passed before those of the
second, which are not come to if the first fails, and a failure of either is the
failure of both. Without the logs this is what the expansion of words comes to. -/
theorem glued_tokens_stand_for_glued_words (run : Substitution) (token later : String)
    (closed : Quote.plain.after token.toList = .plain)
    (starless : Uncut (· = '*') token.toList) (starlessLater : Uncut (· = '*') later.toList)
    (s : Session) :
    (expandLogged run (token ++ later)).start [] s =
        (match (expandLogged run token).start [] s with
        | none => none
        | some ((.error e, log), s₁) => some ((.error e, log), s₁)
        | some ((.ok words, log), s₁) =>
          match (expandLogged run later).start [] s₁ with
          | none => none
          | some ((.error e, more), s₂) => some ((.error e, log ++ more), s₂)
          | some ((.ok words', more), s₂) => some ((.ok (glue words words'), log ++ more), s₂)) ∧
      ∀ token s, ((expandLogged run token).start [] s).map (fun ended => (ended.1.1, ended.2)) =
        (Word.expand run Shell.glob token).start s := by
  refine ⟨?_, fun token s => (expand_tracks run token).forget [] s⟩
  simp only [expandLogged]
  rw [expand_append (logged run) look closed starless starlessLater, start_bind_logged]
  rcases (Word.expand (logged run) look token).start [] s with _ | ⟨⟨_ | words, log⟩, s₁⟩
  · rfl
  · rfl
  · dsimp only
    rw [start_bind_logged, (expand_tracks run later).start_eq]
    rcases (Word.expand (logged run) look later).start [] s₁ with _ | ⟨⟨_ | words', more⟩, s₂⟩ <;>
      rfl

/-- A text in back quotes with two words for an output, between a letter and an
empty pair of quotes before another letter. -/
theorem glued_letter_output_letter :
    (expandLogged (fun _ => pure "1 2\n") "x`t`\"\"y").start [] {} =
        some ((.ok ["x1", "2y"], [("t", .ok "1 2\n")]), {}) ∧
      (expandLogged (fun _ => pure "1 2\n") ("x`t`" ++ "\"\"y")).start [] {} =
        some ((.ok (glue ["x1", "2"] ["y"]), [("t", .ok "1 2\n")] ++ []), {}) := by
  refine ⟨by decide +kernel, ?_⟩
  rw [(glued_tokens_stand_for_glued_words (fun _ => pure "1 2\n") "x`t`" "\"\"y" (by decide)
    (by decide) (by decide) {}).1]
  decide +kernel

end LineShell.GluedTokens
