import LineShell.Proofs.LineLanguage
import LineShell.Word.Expand

/-! The tokens of a command, and the texts that stand in back quotes in a token.
A text in back quotes holds no back quote, and every character of a command comes
from the line that it was read from. So the commands in back quotes have no
substitutions of their own. -/
namespace LineShell.TokenRegions
open StageTokens LineLanguage

/-- The texts in back quotes in the rest of a token, met in region `q`. `command`
holds the text since an open back quote, latest first. -/
def regionsFrom (q : Quote) (command : List Char) : List Char → List String
  | [] => []
  | c :: cs =>
    if q.isBack then
      if c = Quote.backMark then String.ofList command.reverse :: regionsFrom (q.step c) [] cs
      else regionsFrom (q.step c) (c :: command) cs
    else regionsFrom (q.step c) command cs

/-- The texts in back quotes in a token, in order. -/
def regions (token : String) : List String := regionsFrom .plain [] token.toList

variable {q : Quote} {c : Char} {command cs xs ys : List Char} {text token : String}

theorem isBack_iff : q.isBack = true ↔ q = .back ∨ q = .backInDouble := by simp [Quote.isBack]

/-- Inside back quotes only a back quote closes them. -/
theorem step_of_isBack (inside : q.isBack = true) (other : c ≠ Quote.backMark) : q.step c = q := by
  rcases isBack_iff.mp inside with rfl | rfl <;> simp [Quote.step, other]

theorem step_backMark (inside : q.isBack = true) : (q.step Quote.backMark).isBack = false := by
  rcases isBack_iff.mp inside with rfl | rfl <;> rfl

/-- Only a back quote in plain text or in double quotes opens back quotes. -/
theorem opens_back (outside : q.isBack = false) (opened : (q.step c).isBack = true) :
    c = Quote.backMark ∧ (q = .plain ∨ q = .double) := by
  revert opened
  cases q with
  | plain => simp only [Quote.step]; split_ifs <;> simp_all [Quote.isBack]
  | single => simp only [Quote.step]; split_ifs <;> simp [Quote.isBack]
  | double => simp only [Quote.step]; split_ifs <;> simp_all [Quote.isBack]
  | back => cases outside
  | backInDouble => cases outside

/-- The text up to the next back quote is one region. -/
theorem regionsFrom_close (inside : q.isBack = true) (free : Quote.backMark ∉ xs) :
    regionsFrom q command (xs ++ Quote.backMark :: cs) =
      String.ofList (command.reverse ++ xs) :: regionsFrom (q.step Quote.backMark) [] cs := by
  induction xs generalizing command with
  | nil => simp [regionsFrom, inside]
  | cons x xs ih =>
    rw [List.mem_cons, not_or] at free
    simp only [List.cons_append, regionsFrom, inside, if_true, if_neg (Ne.symm free.1),
      step_of_isBack inside (Ne.symm free.1), ih free.2]
    simp

/-- What stands before a place outside back quotes has its regions first. -/
theorem regionsFrom_append (waits : q.isBack = false → command = [])
    (outside : (q.after xs).isBack = false) :
    regionsFrom q command (xs ++ ys) =
      regionsFrom q command xs ++ regionsFrom (q.after xs) [] ys := by
  induction xs generalizing q command with
  | nil =>
    have idle : command = [] := waits outside
    simp [idle, regionsFrom]
  | cons x xs ih =>
    simp only [List.cons_append, regionsFrom]
    split
    · split
      · rw [ih (fun _ => rfl) outside]
        rfl
      · rename_i inside other
        refine ih (fun closed => ?_) outside
        rw [step_of_isBack inside other, inside] at closed
        cases closed
    · rename_i away
      exact ih (fun _ => waits (by simpa using away)) outside

/-- A region is the rest of the one that is open, or opens later, outside back and
single quotes. -/
theorem mem_regionsFrom (member : text ∈ regionsFrom q command cs)
    (waits : q.isBack = false → command = []) :
    (q.isBack = true ∧ ∃ xs ys, cs = xs ++ Quote.backMark :: ys ∧ Quote.backMark ∉ xs ∧
        text = String.ofList (command.reverse ++ xs)) ∨
      ∃ xs ys, cs = xs ++ Quote.backMark :: (text.toList ++ Quote.backMark :: ys) ∧
        (q.after xs = .plain ∨ q.after xs = .double) ∧ Quote.backMark ∉ text.toList := by
  -- Outside back quotes nothing of a region has been read yet, so one that opens
  -- there is whole.
  induction cs generalizing q command with
  | nil => cases member
  | cons c cs ih =>
    simp only [regionsFrom] at member
    split at member
    · rename_i inside
      split at member
      · rename_i closes
        subst closes
        rcases List.mem_cons.mp member with rfl | later
        · exact .inl ⟨inside, [], cs, by simp⟩
        · rcases ih later fun _ => rfl with ⟨still, -⟩ | ⟨xs, ys, rfl, opens, free⟩
          · rw [step_backMark inside] at still
            cases still
          · exact .inr ⟨Quote.backMark :: xs, ys, rfl, opens, free⟩
      · rename_i other
        rw [step_of_isBack inside other] at member
        rcases ih member (fun closed => by rw [inside] at closed; cases closed) with
          ⟨-, xs, ys, rfl, free, rfl⟩ | ⟨xs, ys, rfl, opens, free⟩
        · exact .inl ⟨inside, c :: xs, ys, rfl, by simp [free, Ne.symm other], by simp⟩
        · refine .inr ⟨c :: xs, ys, rfl, ?_, free⟩
          rw [Quote.after_cons, step_of_isBack inside other]
          exact opens
    · rename_i away
      have idle : command = [] := waits (by simpa using away)
      rcases ih member (fun _ => idle) with
        ⟨opened, xs, ys, rfl, free, rfl⟩ | ⟨xs, ys, rfl, opens, free⟩
      · obtain ⟨rfl, here⟩ := opens_back (by simpa using away) opened
        exact .inr ⟨[], ys, by simp [idle], here, by simpa [idle] using free⟩
      · exact .inr ⟨c :: xs, ys, rfl, opens, free⟩

/-- The texts in back quotes are those between a back quote in plain text or in
double quotes and the next one. -/
theorem mem_regions_iff :
    text ∈ regions token ↔ ∃ before after,
      token.toList = before ++ Quote.backMark :: (text.toList ++ Quote.backMark :: after) ∧
        (Quote.plain.after before = .plain ∨ Quote.plain.after before = .double) ∧
        Quote.backMark ∉ text.toList := by
  constructor
  · intro member
    exact (mem_regionsFrom member fun _ => rfl).resolve_left (by simp [Quote.isBack])
  · rintro ⟨before, after, spelled, opens, free⟩
    have outside : (Quote.plain.after before).isBack = false := by
      rcases opens with opens | opens <;> rw [opens] <;> rfl
    have opened : ((Quote.plain.after before).step Quote.backMark).isBack = true := by
      rcases opens with opens | opens <;> rw [opens] <;> rfl
    rw [regions, spelled, regionsFrom_append (fun _ => rfl) outside, regionsFrom]
    simp [outside, regionsFrom_close opened free]

theorem backMark_not_mem_region (member : text ∈ regions token) : Quote.backMark ∉ text.toList := by
  obtain ⟨_, _, _, _, free⟩ := mem_regions_iff.mp member
  exact free

/-- A region is a part of its token. -/
theorem mem_of_mem_region (member : text ∈ regions token) (inText : c ∈ text.toList) :
    c ∈ token.toList := by
  obtain ⟨before, after, spelled, -, -⟩ := mem_regions_iff.mp member
  simp [spelled, inText]

/-- A token without a back quote has no regions. -/
theorem regions_eq_nil (free : Quote.backMark ∉ token.toList) : regions token = [] := by
  refine List.eq_nil_iff_forall_not_mem.mpr fun text member => free ?_
  obtain ⟨before, after, spelled, -, -⟩ := mem_regions_iff.mp member
  simp [spelled]

/-! A scan runs the regions of its token and nothing else. -/

/-- A back quote that closes a region runs it. What is added does not depend on the monad. -/
theorem scan_close (inside : q.isBack = true) (command : List Char) (draft : Word.Draft)
    (cs : List Char) :
    ∃ add : String → Word.Draft, ∀ {m : Type → Type} [Monad m] [MonadExceptOf Failure m]
      (run : String → m String),
      Word.scan run q command draft (Quote.backMark :: cs) = (do
        let output ← run (String.ofList command.reverse)
        Word.scan run (q.step Quote.backMark) [] (add output) cs) := by
  rcases isBack_iff.mp inside with rfl | rfl <;> exact ⟨_, fun run => rfl⟩

theorem scan_inside {m : Type → Type} [Monad m] [MonadExceptOf Failure m] (inside : q.isBack = true)
    (other : c ≠ Quote.backMark) (run : String → m String) (command : List Char) (draft : Word.Draft)
    (cs : List Char) :
    Word.scan run q command draft (c :: cs) = Word.scan run q (c :: command) draft cs := by
  rcases isBack_iff.mp inside with rfl | rfl <;>
    simp [Word.scan, Quote.step, other, Quote.isBack]

/-- Outside back quotes a character goes to the draft. -/
theorem scan_outside (outside : q.isBack = false) (c : Char) (command : List Char)
    (draft : Word.Draft) (cs : List Char) :
    ∃ draft', ∀ {m : Type → Type} [Monad m] [MonadExceptOf Failure m] (run : String → m String),
      Word.scan run q command draft (c :: cs) = Word.scan run (q.step c) command draft' cs := by
  have notBack : q ≠ .back := by rintro rfl; cases outside
  have notBackInDouble : q ≠ .backInDouble := by rintro rfl; cases outside
  simp only [Word.scan, notBack, notBackInDouble, outside, decide_false, Bool.false_and,
    Bool.false_eq_true, if_false]
  split_ifs <;> exact ⟨_, fun run => rfl⟩

/-! The tokens of a command. -/

mutual

/-- The tokens of a command's calls, in order. -/
def tokensOf : Command → List String
  | .call c => c.tokens
  | .pipe calls => calls.flatMap (·.tokens)
  | .sequence commands => tokensOfAll commands

/-- The tokens of several commands, in order. -/
def tokensOfAll : List Command → List String
  | [] => []
  | c :: cs => tokensOf c ++ tokensOfAll cs

end

theorem mem_tokensOfAll {commands : List Command} :
    token ∈ tokensOfAll commands ↔ ∃ command ∈ commands, token ∈ tokensOf command := by
  induction commands with
  | nil => simp [tokensOfAll]
  | cons command commands ih => simp [tokensOfAll, ih]

/-- A line has every character of the commands read from it. -/
theorem mem_line_of_mem_token {line : String} {command : Command}
    (read : Command.parse line = .ok command) (held : token ∈ tokensOf command)
    (inToken : c ∈ token.toList) : c ∈ line.toList := by
  obtain ⟨commands, rfl, pipes⟩ := parse_parts read
  obtain ⟨pipe, member, held⟩ := mem_tokensOfAll.mp held
  obtain ⟨calls, rfl, -, each⟩ := pipes pipe member
  obtain ⟨call, inside, held⟩ := List.mem_flatMap.mp held
  obtain ⟨stage, -, inLine, -, read⟩ := each call inside
  obtain ⟨-, spelled⟩ := call_parse_eq_ok_iff.mp read
  exact inLine _ (spelled.mem _ (List.mem_map_of_mem held) _ inToken)

end LineShell.TokenRegions
