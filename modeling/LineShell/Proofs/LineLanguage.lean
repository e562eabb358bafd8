import Mathlib.Data.List.Forall2
import LineShell.Proofs.StageTokens

/-! Which lines are commands, and what is wrong with the others. The reader cuts
a line three times and scans every piece afresh; its answer is the one that a
single scan of the whole line gives. -/
namespace LineShell.LineLanguage
open Text QuoteRegions StageTokens

/-- Whether a segment between semicolons is no pipe: it is blank, or one of the
stages between its bars is. -/
def flawed (segment : List Char) : Bool :=
  allBlank segment || (pieces (· = '|') segment).any allBlank

/-- What a flawed segment is blamed for. -/
def blame (segment : List Char) : LineFault :=
  if allBlank segment then .blankCommand else .blankStage

theorem neutral_semicolon : Neutral (· = ';') := by
  intro c here
  rw [of_decide_eq_true here]
  decide

theorem neutral_bar : Neutral (· = '|') := by
  intro c here
  rw [of_decide_eq_true here]
  decide

section Faults
variable {α β ε : Type} {f : α → Except ε β} {xs before later : List α} {ys : List β} {x : α}

theorem bind_eq_ok {g : α → Except ε β} {r : Except ε α} {b : β} (ran : r >>= g = .ok b) :
    ∃ a, r = .ok a ∧ g a = .ok b := by
  cases r with
  | error e => cases ran
  | ok a => exact ⟨a, rfl, ran⟩

theorem mapM_eq_ok_iff : xs.mapM f = .ok ys ↔ List.Forall₂ (fun x y => f x = .ok y) xs ys := by
  constructor
  · intro ran
    induction xs generalizing ys with
    | nil =>
      cases ran
      exact .nil
    | cons x xs ih =>
      rw [List.mapM_cons] at ran
      obtain ⟨y, first, ran⟩ := bind_eq_ok ran
      obtain ⟨zs, others, ran⟩ := bind_eq_ok ran
      cases ran
      exact .cons first (ih others)
  · intro each
    induction each with
    | nil => rfl
    | cons first _ ih =>
      rw [List.mapM_cons, first, ih]
      rfl

theorem mapM_isOk (fine : ∀ x ∈ xs, ∃ y, f x = .ok y) : ∃ ys, xs.mapM f = .ok ys := by
  induction xs with
  | nil => exact ⟨[], rfl⟩
  | cons x xs ih =>
    obtain ⟨⟨y, first⟩, others⟩ := List.forall_mem_cons.mp fine
    obtain ⟨ys, rest⟩ := ih others
    exact ⟨y :: ys, mapM_eq_ok_iff.mpr (.cons first (mapM_eq_ok_iff.mp rest))⟩

/-- The first failure is the one that counts. -/
theorem mapM_eq_error {e : ε} (fine : ∀ x ∈ before, ∃ y, f x = .ok y) (fails : f x = .error e) :
    (before ++ x :: later).mapM f = .error e := by
  induction before with
  | nil => simp [fails, bind, Except.bind]
  | cons z before ih =>
    obtain ⟨⟨y, first⟩, others⟩ := List.forall_mem_cons.mp fine
    simp [first, ih others, bind, Except.bind]

end Faults

variable {stage segment : List Char} {call : Call} {command : Command} {line : String}

theorem call_parse_eq_ok_iff :
    Call.parse stage = .ok call ↔
      allBlank stage = false ∧ Spells stage (call.tokens.map String.toList) := by
  rw [← tokenize_eq_ok_iff, Call.parse]
  split
  · simp_all
  · rename_i visible
    rw [map_eq_ok_iff]
    constructor
    · rintro ⟨tokens, ran, rfl⟩
      exact ⟨by simpa using visible, ran⟩
    · rintro ⟨-, ran⟩
      exact ⟨call.tokens, ran, rfl⟩

theorem call_parse_isOk (visible : allBlank stage = false) (closed : Quote.plain.after stage = .plain) :
    ∃ call, Call.parse stage = .ok call := by
  have result := tokenize_result stage
  rw [if_pos closed] at result
  obtain ⟨tokens, ran⟩ := result
  exact ⟨⟨tokens⟩, call_parse_eq_ok_iff.mpr ⟨visible, tokenize_eq_ok_iff.mp ran⟩⟩

theorem parsePipe_eq (visible : allBlank segment = false)
    (closed : Quote.plain.after segment = .plain) :
    Command.parsePipe segment = .pipe <$> (pieces (· = '|') segment).mapM Call.parse := by
  rw [Command.parsePipe, if_neg (by simp [visible]), cutPlain_eq, if_pos closed]
  rfl

theorem parsePipe_eq_ok_iff (closed : Quote.plain.after segment = .plain) :
    Command.parsePipe segment = .ok command ↔
      allBlank segment = false ∧ ∃ calls, command = .pipe calls ∧
        List.Forall₂ (fun stage call => Call.parse stage = .ok call)
          (pieces (· = '|') segment) calls := by
  cases visible : allBlank segment with
  | true => simp [Command.parsePipe, visible]
  | false =>
    rw [parsePipe_eq visible closed, map_eq_ok_iff]
    simp only [mapM_eq_ok_iff, true_and]
    exact exists_congr fun calls => and_comm

/-- A segment without a flaw is a pipe. -/
theorem parsePipe_isOk (closed : Quote.plain.after segment = .plain)
    (fine : flawed segment = false) : ∃ command, Command.parsePipe segment = .ok command := by
  simp only [flawed, Bool.or_eq_false_iff, List.any_eq_false, Bool.not_eq_true] at fine
  obtain ⟨calls, ran⟩ := mapM_isOk fun stage member =>
    call_parse_isOk (fine.2 stage member) (pieces_seamless neutral_bar closed stage member).closed
  exact ⟨.pipe calls, by rw [parsePipe_eq fine.1 closed, ran]; rfl⟩

/-- A segment with a flaw is blamed for its blank whole, or else for its first
blank stage. -/
theorem parsePipe_flawed (closed : Quote.plain.after segment = .plain)
    (bad : flawed segment = true) : Command.parsePipe segment = .error (blame segment) := by
  rw [blame]
  cases visible : allBlank segment with
  | true => simp [Command.parsePipe, visible]
  | false =>
    simp only [flawed, visible, Bool.false_or, List.any_eq_true] at bad
    obtain ⟨stage, member, blank⟩ := bad
    cases found : (pieces (· = '|') segment).find? allBlank with
    | none => exact absurd blank (List.find?_eq_none.mp found stage member)
    | some first =>
      obtain ⟨firstBlank, before, later, stages, earlier⟩ := List.find?_eq_some_iff_append.mp found
      have fine : ∀ stage ∈ before, ∃ call, Call.parse stage = .ok call := by
        intro stage member
        have inside : stage ∈ pieces (· = '|') segment := by simp [stages, member]
        exact call_parse_isOk (by simpa using earlier stage member)
          (pieces_seamless neutral_bar closed stage inside).closed
      have fails : Call.parse first = .error .blankStage := by simp [Call.parse, firstBlank]
      rw [parsePipe_eq visible closed, stages, mapM_eq_error fine fails]
      rfl

private theorem any_break_eq_false {cs : List Char} (unbroken : ¬ ('\n' ∈ cs ∨ '\r' ∈ cs)) :
    cs.any (fun c => c = '\n' || c = '\r') = false := by
  simp only [not_or] at unbroken
  simp only [List.any_eq_false, Bool.or_eq_true, decide_eq_true_eq, not_or]
  intro c inside
  exact ⟨fun same => unbroken.1 (same ▸ inside), fun same => unbroken.2 (same ▸ inside)⟩

/-- A line that is neither blank nor broken and closes its quotes is read
segment by segment. -/
theorem parse_eq (visible : allBlank line.toList = false)
    (unbroken : ¬ ('\n' ∈ line.toList ∨ '\r' ∈ line.toList))
    (closed : Quote.plain.after line.toList = .plain) :
    Command.parse line =
      .sequence <$> (pieces (· = ';') line.toList).mapM Command.parsePipe := by
  rw [Command.parse]
  simp only [visible, any_break_eq_false unbroken, cutPlain_eq, closed]
  rfl

theorem parse_eq_ok_iff (visible : allBlank line.toList = false)
    (unbroken : ¬ ('\n' ∈ line.toList ∨ '\r' ∈ line.toList))
    (closed : Quote.plain.after line.toList = .plain) :
    Command.parse line = .ok command ↔
      ∃ commands, command = .sequence commands ∧
        List.Forall₂ (fun segment command => Command.parsePipe segment = .ok command)
          (pieces (· = ';') line.toList) commands := by
  rw [parse_eq visible unbroken closed, map_eq_ok_iff]
  simp only [mapM_eq_ok_iff]
  exact exists_congr fun commands => and_comm

/-- A blank segment is its own only stage, so a segment is flawed exactly when
one of its stages is blank. -/
theorem flawed_eq_false_iff :
    flawed segment = false ↔ ∀ stage ∈ pieces (· = '|') segment, allBlank stage = false := by
  simp only [flawed, Bool.or_eq_false_iff, List.any_eq_false, Bool.not_eq_true, and_iff_right_iff_imp]
  intro stages
  cases blank : allBlank segment with
  | false => rfl
  | true =>
    have uncut : Uncut (· = '|') segment := uncut_of_not_mem fun c inside => by
      have blankHere := List.all_eq_true.mp blank c inside
      exact decide_eq_false fun same => by rw [same] at blankHere; revert blankHere; decide
    rw [pieces_of_uncut uncut] at stages
    rw [← stages segment List.mem_cons_self, blank]

/-- The segments of a line that closes its quotes are all read, or the first one
that is flawed takes the blame. -/
theorem parse_result (visible : allBlank line.toList = false)
    (unbroken : ¬ ('\n' ∈ line.toList ∨ '\r' ∈ line.toList))
    (closed : Quote.plain.after line.toList = .plain) :
    match (pieces (· = ';') line.toList).find? flawed with
    | none => ∃ command, Command.parse line = .ok command
    | some segment => Command.parse line = .error (blame segment) := by
  have segmentClosed := fun segment member =>
    (pieces_seamless neutral_semicolon closed segment member).closed
  rw [parse_eq visible unbroken closed]
  split
  · rename_i none
    obtain ⟨commands, ran⟩ := mapM_isOk fun segment member => parsePipe_isOk
      (segmentClosed segment member) (by simpa using List.find?_eq_none.mp none segment member)
    exact ⟨.sequence commands, by rw [ran]; rfl⟩
  · rename_i segment found
    obtain ⟨bad, before, later, segments, earlier⟩ := List.find?_eq_some_iff_append.mp found
    have fine : ∀ segment ∈ before, ∃ command, Command.parsePipe segment = .ok command := by
      intro segment member
      exact parsePipe_isOk (segmentClosed segment (by simp [segments, member]))
        (by simpa using earlier segment member)
    have fails := parsePipe_flawed (segmentClosed segment (by simp [segments])) bad
    rw [segments, mapM_eq_error fine fails]
    rfl

theorem parse_broken (visible : allBlank line.toList = false)
    (broken : '\n' ∈ line.toList ∨ '\r' ∈ line.toList) :
    Command.parse line = .error .lineBreak := by
  have found : line.toList.any (fun c => c = '\n' || c = '\r') = true := by
    simp only [List.any_eq_true, Bool.or_eq_true, decide_eq_true_eq]
    rcases broken with feed | ret
    · exact ⟨_, feed, .inl rfl⟩
    · exact ⟨_, ret, .inr rfl⟩
  simp only [Command.parse, visible, found]
  rfl

theorem parse_open (visible : allBlank line.toList = false)
    (unbroken : ¬ ('\n' ∈ line.toList ∨ '\r' ∈ line.toList))
    (open' : Quote.plain.after line.toList ≠ .plain) :
    Command.parse line = .error (.unterminated (Quote.plain.after line.toList)) := by
  simp only [Command.parse, visible, any_break_eq_false unbroken, cutPlain_eq, open']
  rfl

/-- Every call read has a token. -/
theorem tokens_ne_nil (ran : Call.parse stage = .ok call) : call.tokens ≠ [] := by
  intro none
  obtain ⟨visible, spelled⟩ := call_parse_eq_ok_iff.mp ran
  rw [none] at spelled
  rw [spelled.allBlank] at visible
  cases visible

/-- No segment is flawed exactly when no piece between plain semicolons and bars
is blank. -/
theorem find?_flawed_eq_none_iff {cs : List Char} :
    (pieces (· = ';') cs).find? flawed = none ↔
      ∀ piece ∈ pieces (fun c => c = ';' || c = '|') cs, allBlank piece = false := by
  rw [pieces_or neutral_semicolon]
  simp only [List.find?_eq_none, Bool.not_eq_true, flawed_eq_false_iff, List.mem_flatMap]
  constructor
  · rintro fine piece ⟨segment, member, inside⟩
    exact fine segment member piece inside
  · intro fine segment member stage inside
    exact fine stage ⟨segment, member, inside⟩

/-- The cuts inside a line that closes its quotes all succeed. -/
theorem cuts_succeed {cs : List Char} (closed : Quote.plain.after cs = .plain) :
    ∃ segments, cutPlain ';' cs = .ok segments ∧
      ∀ segment ∈ segments, ∃ stages, cutPlain '|' segment = .ok stages ∧
        ∀ stage ∈ stages, ∃ tokens, tokenize stage = .ok tokens := by
  refine ⟨_, (cutPlain_eq ';' cs).trans (if_pos closed), fun segment member => ?_⟩
  have segmentClosed := (pieces_seamless neutral_semicolon closed segment member).closed
  refine ⟨_, (cutPlain_eq '|' segment).trans (if_pos segmentClosed), fun stage inside => ?_⟩
  have stageClosed := (pieces_seamless neutral_bar segmentClosed stage inside).closed
  simpa only [stageClosed, if_true] using tokenize_result stage

/-- All that it takes for a line to be read as a command. -/
theorem parse_inversion (ran : Command.parse line = .ok command) :
    (allBlank line.toList = true ∧ command = .sequence []) ∨
      (¬ ('\n' ∈ line.toList ∨ '\r' ∈ line.toList) ∧ Quote.plain.after line.toList = .plain ∧
        ∃ commands, command = .sequence commands ∧
          List.Forall₂ (fun segment command => Command.parsePipe segment = .ok command)
            (pieces (· = ';') line.toList) commands) := by
  cases visible : allBlank line.toList with
  | true =>
    simp only [Command.parse, visible, if_true, Except.ok.injEq] at ran
    exact .inl ⟨rfl, ran.symm⟩
  | false =>
    by_cases broken : '\n' ∈ line.toList ∨ '\r' ∈ line.toList
    · rw [parse_broken visible broken] at ran
      cases ran
    · by_cases closed : Quote.plain.after line.toList = .plain
      · exact .inr ⟨broken, closed, (parse_eq_ok_iff visible broken closed).mp ran⟩
      · rw [parse_open visible broken closed] at ran
        cases ran

theorem forall₂_mem {α β : Type} {R : α → β → Prop} {xs : List α} {ys : List β} {y : β}
    (each : List.Forall₂ R xs ys) (member : y ∈ ys) : ∃ x ∈ xs, R x y := by
  induction each with
  | nil => cases member
  | @cons x y' xs ys first _ ih =>
    rcases List.mem_cons.mp member with rfl | member
    · exact ⟨x, by simp, first⟩
    · obtain ⟨x', inside, related⟩ := ih member
      exact ⟨x', by simp [inside], related⟩

/-- Each pipe of a command that was read comes from a segment of the line, and
each of its calls from a stage of that segment. -/
theorem parse_parts (ran : Command.parse line = .ok command) :
    ∃ commands, command = .sequence commands ∧ ∀ pipe ∈ commands, ∃ calls,
      pipe = .pipe calls ∧ calls ≠ [] ∧ ∀ call ∈ calls, ∃ stage,
        Uncut (fun c => c = ';' || c = '|') stage ∧ (∀ c ∈ stage, c ∈ line.toList) ∧
        ¬ ('\n' ∈ line.toList ∨ '\r' ∈ line.toList) ∧ Call.parse stage = .ok call := by
  rcases parse_inversion ran with ⟨-, rfl⟩ | ⟨unbroken, closed, commands, rfl, segments⟩
  · exact ⟨[], rfl, by simp⟩
  · refine ⟨commands, rfl, fun pipe member => ?_⟩
    obtain ⟨segment, inLine, ran⟩ := forall₂_mem segments member
    have segmentSeamless := pieces_seamless neutral_semicolon closed segment inLine
    obtain ⟨-, calls, rfl, stages⟩ := (parsePipe_eq_ok_iff segmentSeamless.closed).mp ran
    refine ⟨calls, rfl, ?_, fun call inside => ?_⟩
    · rintro rfl
      cases nothing : pieces (· = '|') segment with
      | nil => simp [pieces, splitWhere_ne_nil] at nothing
      | cons first others => rw [nothing] at stages; cases stages
    · obtain ⟨stage, inSegment, ran⟩ := forall₂_mem stages inside
      refine ⟨stage, uncut_or (pieces_uncut neutral_bar segmentSeamless.uncut stage inSegment)
        (pieces_seamless neutral_bar segmentSeamless.closed stage inSegment).uncut, ?_, unbroken, ran⟩
      intro c found
      exact mem_of_mem_pieces neutral_semicolon inLine
        (mem_of_mem_pieces neutral_bar inSegment found)

/-- What a line that is not blank is read as. A line break comes first, then a
quote left open, and the cuts after that never meet an open quote: the line is a
command exactly when no piece between plain semicolons and bars is blank, and
otherwise the leftmost segment with a blank piece says what is wrong. -/
theorem parse_accepts_exactly_unblank_pieces (line : String)
    (visible : allBlank line.toList = false) :
    (('\n' ∈ line.toList ∨ '\r' ∈ line.toList) → Command.parse line = .error .lineBreak) ∧
    (¬ ('\n' ∈ line.toList ∨ '\r' ∈ line.toList) →
      if Quote.plain.after line.toList ≠ .plain then
        Command.parse line = .error (.unterminated (Quote.plain.after line.toList))
      else
        ((∃ command, Command.parse line = .ok command) ↔
          ∀ piece ∈ pieces (fun c => c = ';' || c = '|') line.toList, allBlank piece = false) ∧
        (∀ fault, Command.parse line = .error fault ↔
          ((pieces (· = ';') line.toList).find? flawed).map blame = some fault) ∧
        (∃ segments, cutPlain ';' line.toList = .ok segments ∧
          ∀ segment ∈ segments, ∃ stages, cutPlain '|' segment = .ok stages ∧
            ∀ stage ∈ stages, ∃ tokens, tokenize stage = .ok tokens)) ∧
    (∀ command, Command.parse line = .ok command → ∃ commands, command = .sequence commands ∧
      ∀ pipe ∈ commands, ∃ calls, pipe = .pipe calls ∧ ∀ call ∈ calls, call.tokens ≠ []) ∧
    LineFault.lineBreak.message = "unexpected newline" ∧
    (∀ q, (LineFault.unterminated q).message = "unterminated " ++ q.describe) ∧
    LineFault.blankCommand.message = "unexpected ';'" ∧
    LineFault.blankStage.message = "unexpected '|'" := by
  refine ⟨parse_broken visible, fun unbroken => ?_, fun command ran => ?_, rfl, fun _ => rfl, rfl, rfl⟩
  · split
    · exact parse_open visible unbroken (by assumption)
    · rename_i closed
      have closed := Classical.not_not.mp closed
      have result := parse_result visible unbroken closed
      rw [← find?_flawed_eq_none_iff]
      refine ⟨?_, fun fault => ?_, cuts_succeed closed⟩
      all_goals
        cases found : (pieces (· = ';') line.toList).find? flawed with
        | none =>
          rw [found] at result
          obtain ⟨command, ran⟩ := result
          simp [ran]
        | some segment =>
          rw [found] at result
          simp [result]
  · obtain ⟨commands, rfl, pipes⟩ := parse_parts ran
    refine ⟨commands, rfl, fun pipe member => ?_⟩
    obtain ⟨calls, rfl, -, each⟩ := pipes pipe member
    refine ⟨calls, rfl, fun call inside => ?_⟩
    obtain ⟨stage, -, -, -, ran⟩ := each call inside
    exact tokens_ne_nil ran

/-- The quoted semicolon cuts nothing, and of the two segments the second one
begins with a bar. -/
theorem parse_quoted_semicolon_then_bar :
    allBlank "echo 'a;b';|wc".toList = false ∧
      Command.parse "echo 'a;b';|wc" = .error .blankStage := by
  refine ⟨by decide, ?_⟩
  have answer := (parse_accepts_exactly_unblank_pieces "echo 'a;b';|wc" (by decide)).2.1 (by decide)
  rw [if_neg (by decide)] at answer
  exact (answer.2.1 .blankStage).mpr (by decide)

end LineShell.LineLanguage
