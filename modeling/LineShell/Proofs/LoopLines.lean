import Mathlib.Data.List.DropRight
import LineShell.CommandLine
import LineShell.Proofs.EncodedText
import LineShell.Proofs.PipeIntoCat
import LineShell.Proofs.WholeInputs

/-! The loop goes through the lines of its input. It shares the input with the
commands that it runs, so what it reads is told in turns: a line, and what the
line's commands take of the rest. On an output that takes everything a turn
never stops half-way, the turns use up the input in order, and there is a turn
at most for each line. Where no command reads the rest, the loop comes to what
evaluating the lines one by one comes to. -/
namespace LineShell.LoopLines
open StepAgreement SessionBonds SessionChanges EvaluationAgreement JournalAside PipeIntoCat
  WholeInputs EncodedText CallDispatch

/-! The lines of an input. -/

/-- The lines between line feeds, without the carriage returns at their ends, and
with the bytes that come after each. After a line feed at the end of the input
there is no line. -/
def linesOf : List (List Char) → List (String × Bytes)
  | [] => []
  | [last] =>
    if last = [] then [] else [(String.ofList (last.rdropWhile (· == '\r')), [])]
  | line :: next :: later =>
    (String.ofList (line.rdropWhile (· == '\r')),
      Text.encode (Text.joinWith ['\n'] (next :: later))) :: linesOf (next :: later)

/-- The lines of a text. -/
def lines (cs : List Char) : List (String × Bytes) := linesOf (Text.splitWhere (· == '\n') cs)

/-- How a text begins with a line: it ends at the first line feed, or with the
text. -/
inductive FirstLine : List Char → List Char → List Char → List Char → Prop where
  | fed {body : List Char} (rest : List Char) (clean : '\n' ∉ body) :
      FirstLine (body ++ '\n' :: rest) body (body ++ ['\n']) rest
  | last {body : List Char} (some : body ≠ []) (clean : '\n' ∉ body) : FirstLine body body body []

variable {cs body line rest : List Char}

theorem exists_firstLine (some : cs ≠ []) : ∃ body line rest, FirstLine cs body line rest := by
  by_cases feed : '\n' ∈ cs
  · obtain ⟨body, rest, rfl, clean⟩ := List.eq_append_cons_of_mem feed
    exact ⟨body, _, rest, .fed rest clean⟩
  · exact ⟨cs, cs, [], .last some feed⟩

namespace FirstLine

theorem append (first : FirstLine cs body line rest) : line ++ rest = cs := by
  cases first <;> simp

theorem line_ne_nil (first : FirstLine cs body line rest) : line ≠ [] := by
  cases first with
  | fed => simp
  | last some => exact some

/-- A line read leaves a text with fewer line feeds, or none. -/
theorem count (first : FirstLine cs body line rest) :
    rest = [] ∨ rest.count '\n' + 1 = cs.count '\n' := by
  cases first with
  | fed rest clean =>
    right
    simp [List.count_eq_zero_of_not_mem clean]
  | last => exact .inl rfl

end FirstLine

theorem lines_nil : lines [] = [] := rfl

theorem lines_first (first : FirstLine cs body line rest) :
    lines cs = (String.ofList (body.rdropWhile (· == '\r')), Text.encode rest) :: lines rest := by
  cases first with
  | fed rest clean =>
    obtain ⟨segment, later, cut⟩ :=
      List.exists_cons_of_ne_nil (Text.splitWhere_ne_nil (· == '\n') rest)
    rw [lines, Text.splitWhere_append_sep _ _ rfl, Text.splitWhere_of_not_mem clean, cut,
      List.singleton_append, linesOf, ← cut, Text.joinWith_splitWhere (by simp)]
    rfl
  | last some clean =>
    rw [lines, Text.splitWhere_of_not_mem clean, linesOf, if_neg some]
    rfl

/-- The line without its ending. -/
theorem withoutEnding_first (first : FirstLine cs body line rest) :
    Shell.withoutEnding (String.ofList line) = String.ofList (body.rdropWhile (· == '\r')) := by
  have trimmed (clean : '\n' ∉ body) :
      body.rdropWhile (fun c => c = '\n' || c = '\r') = body.rdropWhile (· == '\r') := by
    have congr (cs : List Char) (clean : '\n' ∉ cs) :
        cs.dropWhile (fun c => c = '\n' || c = '\r') = cs.dropWhile (· == '\r') := by
      induction cs with
      | nil => rfl
      | cons c cs ih =>
        obtain ⟨here, later⟩ := not_or.mp (fun held => clean (List.mem_cons.mpr held))
        have other : c ≠ '\n' := fun same => here same.symm
        simp only [List.dropWhile_cons, other, decide_false, Bool.false_or, ih later,
          decide_eq_true_eq, beq_iff_eq]
    simp only [List.rdropWhile]
    rw [congr _ (by simpa using clean)]
  cases first with
  | fed rest clean =>
    rw [Shell.withoutEnding, String.toList_ofList, List.reverse_append]
    simp only [List.reverse_cons, List.reverse_nil, List.nil_append, List.singleton_append]
    rw [List.dropWhile_cons_of_pos (by simp)]
    exact congrArg String.ofList (trimmed clean)
  | last some clean =>
    rw [Shell.withoutEnding, String.toList_ofList]
    exact congrArg String.ofList (trimmed clean)

/-! What the loop does with an input. -/

theorem start_readLine (s : Session) :
    Act.readLine.start s =
      some ((s.input.readLine s.disk).1, { s with input := (s.input.readLine s.disk).2 }) := rfl

theorem start_readReply_nil {s : Session} (input : s.input = .stream [] none) :
    Shell.readReply.start s = some (.ok .ended, s) := by
  rw [Shell.readReply, start_bind, start_attempt, start_readLine, input]
  simp [Source.readLine, Source.cutLine, Source.held, Source.fault, Source.skip, ← input]

theorem cutLine_fed {before after : Bytes} (clean : 10 ∉ before) :
    Source.cutLine (before ++ 10 :: after) = (before ++ [10], some after) := by
  have all : ∀ b ∈ before, (decide (b ≠ 10)) = true := by
    intro b member
    have other : b ≠ 10 := fun same => clean (same ▸ member)
    simpa using other
  have taken : (before ++ 10 :: after).takeWhile (· ≠ 10) = before := by
    rw [List.takeWhile_append_of_pos all, List.takeWhile_cons_of_neg (by simp), List.append_nil]
  simp only [Source.cutLine, taken, List.drop_left]

theorem cutLine_clean {bs : Bytes} (clean : 10 ∉ bs) : Source.cutLine bs = (bs, none) := by
  have taken : bs.takeWhile (· ≠ 10) = bs := by
    refine List.takeWhile_eq_self_iff.mpr fun b member => ?_
    have other : b ≠ 10 := fun same => clean (same ▸ member)
    simpa using other
  simp only [Source.cutLine, taken, List.drop_length]

theorem readLine_first (first : FirstLine cs body line rest) (d : Disk) :
    (Source.stream (Text.encode cs) none).readLine d =
      (.ok (Text.encode line), .stream (Text.encode rest) none) := by
  cases first with
  | fed rest clean =>
    have noFeed : 10 ∉ Text.encode body := fun held => clean (feed_mem_encode.mp held)
    have bytes : Text.encode (body ++ '\n' :: rest) = Text.encode body ++ 10 :: Text.encode rest := by
      rw [encode_append, encode_cons]
      rfl
    have after : (Text.encode body ++ 10 :: Text.encode rest).drop (Text.encode body ++ [10]).length =
        Text.encode rest := by
      rw [List.append_cons (Text.encode body) 10 (Text.encode rest), List.drop_left]
    simp only [Source.readLine, Source.held, bytes, cutLine_fed noFeed, Source.skip, after,
      encode_append, encode_feed]
  | last some clean =>
    have noFeed : 10 ∉ Text.encode cs := fun held => clean (feed_mem_encode.mp held)
    simp only [Source.readLine, Source.held, cutLine_clean noFeed, Source.fault, Source.skip,
      List.drop_length]
    rfl

theorem encode_ne_nil (some : cs ≠ []) : Text.encode cs ≠ [] := by
  obtain ⟨c, cs, rfl⟩ := List.exists_cons_of_ne_nil some
  have length := String.length_utf8EncodeChar c
  have positive := c.utf8Size_pos
  intro none
  rw [encode_cons, List.append_eq_nil_iff] at none
  rw [none.1, List.length_nil] at length
  omega

theorem length_encode_rest (first : FirstLine cs body line rest) :
    (Text.encode rest).length < (Text.encode cs).length := by
  have some := List.length_pos_iff.mpr (encode_ne_nil first.line_ne_nil)
  rw [← first.append, encode_append, List.length_append]
  omega

theorem start_readReply_first {s : Session} (first : FirstLine cs body line rest)
    (input : s.input = .stream (Text.encode cs) none) :
    Shell.readReply.start s =
      some (.ok (.line (String.ofList line)), { s with input := .stream (Text.encode rest) none }) := by
  obtain ⟨b, bs, some⟩ := List.exists_cons_of_ne_nil (encode_ne_nil first.line_ne_nil)
  have decoded := decode?_encode line
  rw [Shell.readReply, start_bind, start_attempt, start_readLine, input, readLine_first first]
  rw [some] at decoded ⊢
  simp only [Option.map, decoded, start_pure]

/-! Turns. -/

variable {sh : Shell} {s s' s₁ t : Session}

/-- A line that the loop reads, with its ending, and what evaluating it takes off
the input after the line. -/
structure Turn where
  line : String
  consumed : Bytes

/-- All that a turn takes off the input. -/
def Turn.bytes (turn : Turn) : Bytes := Text.bytes turn.line ++ turn.consumed

/-- What the session's input still holds. -/
def held (s : Session) : Bytes := s.input.held s.disk

/-- The loop prompts and reads a line. -/
def Reads (sh : Shell) (s : Session) (line : String) (s' : Session) : Prop :=
  Text.bytes line ++ held s' = held s ∧
    ∃ s₁, sh.showPrompt.start s = some (.ok true, s₁) ∧
      Shell.readReply.start s₁ = some (.ok (.line line), s')

/-- The loop takes a turn; `code?` is the code to end with, if the line asks for
that. -/
def Takes (sh : Shell) (s : Session) (turn : Turn) (code? : Option Nat) (s' : Session) : Prop :=
  ∃ s₁, Reads sh s turn.line s₁ ∧ (sh.answer turn.line).start s₁ = some (.ok code?, s') ∧
    turn.consumed ++ held s' = held s₁

/-- The loop takes turns one after the other, of which only the last one may ask
for the end. -/
inductive Turns (sh : Shell) : Session → List Turn → Option Nat → Session → Prop where
  | none (s : Session) : Turns sh s [] none s
  | asks {s s' : Session} {turn : Turn} {code : Nat} (taken : Takes sh s turn (some code) s') :
      Turns sh s [turn] (some code) s'
  | goesOn {s s₁ s' : Session} {turn : Turn} {turns : List Turn} {code? : Option Nat}
      (taken : Takes sh s turn .none s₁) (later : Turns sh s₁ turns code? s') :
      Turns sh s (turn :: turns) code? s'

/-- The loop prompts and finds that the input has ended. -/
def Closes (sh : Shell) (s s' : Session) : Prop :=
  ∃ s₁ s₂, sh.showPrompt.start s = some (.ok true, s₁) ∧
    Shell.readReply.start s₁ = some (.ok .ended, s₂) ∧
    s' = { s₂ with journal := s₂.journal ++ [⟨.info, "repl reached end of input"⟩] }

/-- How the loop ends after its turns. -/
def Stops (sh : Shell) (s : Session) (code? : Option Nat) (code : Nat) (s' : Session) : Prop :=
  match code? with
  | some asked => code = asked ∧ s' = s
  | none => code = 0 ∧ Closes sh s s'

/-- The loop reads a line whose evaluation never ends. -/
def Hangs (sh : Shell) (s : Session) : Prop :=
  ∃ line s', Reads sh s line s' ∧
    (sh.evaluateLine (Shell.withoutEnding line)).start s' = none

/-- The loop is about to prompt, with a text left to read. -/
structure Ready (cs : List Char) (s : Session) : Prop where
  input : s.input = .stream (Text.encode cs) none
  output : ∃ p, s.output = .outlet p ∧ Unlimited p

theorem Ready.held (ready : Ready cs s) : held s = Text.encode cs := by
  rw [LoopLines.held, ready.input]
  rfl

/-- The session after a prompt. -/
def prompted (sh : Shell) (s : Session) : Session :=
  { s with output := (s.output.write s.disk (Text.bytes sh.prompt)).2.1 }

theorem start_prompt (sh : Shell) {p : Outlet} (output : s.output = .outlet p)
    (unlimited : Unlimited p) :
    (Act.write (Text.bytes sh.prompt)).start s = some (.ok (), prompted sh s) ∧
      (prompted sh s).output = .outlet (fed p (Text.bytes sh.prompt)) := by
  have written : (s.output.write s.disk (Text.bytes sh.prompt)).2.1 =
      .outlet (fed p (Text.bytes sh.prompt)) := by
    simp [output, Sink.write, Outlet.write, unlimited.room, fed]
  rw [start_write_unlimited unlimited output, prompted, written]
  exact ⟨rfl, rfl⟩

theorem Ready.showPrompt (sh : Shell) (ready : Ready cs s) :
    sh.showPrompt.start s = some (.ok true, prompted sh s) ∧ Ready cs (prompted sh s) := by
  obtain ⟨p, output, unlimited⟩ := ready.output
  obtain ⟨wrote, output'⟩ := start_prompt sh output unlimited
  have flushed := start_flush_unlimited (unlimited.fed (Text.bytes sh.prompt)) output'
  refine ⟨?_, ready.input, _, output', unlimited.fed _⟩
  simp only [Shell.showPrompt, start_bind, start_attempt, wrote, flushed, Option.map, start_pure]

/-- The session when the first line has been read. -/
def advanced (sh : Shell) (rest : List Char) (s : Session) : Session :=
  { prompted sh s with input := .stream (Text.encode rest) none }

theorem Ready.reads (sh : Shell) (ready : Ready cs s) (first : FirstLine cs body line rest) :
    Reads sh s (String.ofList line) (advanced sh rest s) ∧ Ready rest (advanced sh rest s) := by
  obtain ⟨shown, still⟩ := ready.showPrompt sh
  have left : Ready rest (advanced sh rest s) := ⟨rfl, still.output⟩
  refine ⟨⟨?_, _, shown, start_readReply_first first still.input⟩, left⟩
  rw [ready.held, left.held, Text.bytes, String.toList_ofList, ← encode_append, first.append]

theorem Ready.closes (sh : Shell) (ready : Ready [] s) :
    Closes sh s { prompted sh s with
      journal := s.journal ++ [⟨.info, "repl reached end of input"⟩] } := by
  obtain ⟨shown, still⟩ := ready.showPrompt sh
  exact ⟨_, _, shown, start_readReply_nil still.input, rfl⟩

/-! One round. -/

/-- The code to end with that a result asks for. -/
def asked : Except Failure Outcome → Option Nat
  | .ok (.exit code) => some code
  | _ => none

/-- What the loop notes down about a result. -/
def noted (result : Except Failure Outcome) (s : Session) : Session :=
  match result with
  | .ok .proceed => s
  | .ok (.exit code) =>
    { s with journal := s.journal ++ [⟨.info, "repl exiting with status " ++ toString code⟩] }
  | .error e =>
    { s with journal := s.journal ++ [⟨.warn, e.message⟩], reports := s.reports ++ [e] }

theorem start_answer (sh : Shell) {line : String}
    (some : Text.allBlank (Shell.withoutEnding line).toList = false) (s : Session) :
    (sh.answer line).start s =
      ((sh.evaluateLine (Shell.withoutEnding line)).start s).map fun ended =>
        (.ok (asked ended.1), noted ended.1 ended.2) := by
  simp only [Shell.answer, some, Bool.false_eq_true, if_false, start_bind, start_attempt]
  rcases (sh.evaluateLine (Shell.withoutEnding line)).start s with _ | ⟨e | _ | code, s'⟩ <;> rfl

theorem start_answer_blank (sh : Shell) {line : String}
    (blank : Text.allBlank (Shell.withoutEnding line).toList = true) (s : Session) :
    (sh.answer line).start s = some (.ok none, s) := by
  simp only [Shell.answer, blank, if_true, start_pure]

theorem ready_noted (result : Except Failure Outcome) (ready : Ready cs s) :
    Ready cs (noted result s) := by
  obtain ⟨input, output⟩ := ready
  rcases result with e | _ | code <;> exact ⟨input, output⟩

/-- A line that has been evaluated has left the input or used it up. -/
theorem Ready.evaluated {text : String} {result : Except Failure Outcome} (ready : Ready cs s)
    (ran : (sh.evaluateLine text).start s = some (result, s')) : Ready cs s' ∨ Ready [] s' := by
  obtain ⟨p, output, unlimited⟩ := ready.output
  have ample : Ample False s.output := by
    rw [output]
    exact ⟨unlimited.flushes, .inr unlimited.room⟩
  obtain ⟨still, emptied⟩ := line_whole sh text ran ample
  have output' : ∃ p, s'.output = .outlet p ∧ Unlimited p := by
    cases found : s'.output with
    | file id pos =>
      rw [found] at still
      exact still.elim
    | outlet p =>
      rw [found] at still
      exact ⟨p, rfl, still.2.resolve_left id, still.1⟩
  rcases emptied _ _ ready.input with kept | emptied
  · exact .inl ⟨kept, output'⟩
  · exact .inr ⟨emptied, output'⟩

/-- An answer is given, or evaluating the line never ends. -/
theorem Ready.answer (sh : Shell) (ready : Ready cs s) (line : String) :
    ((sh.answer line).start s = none ∧
        (sh.evaluateLine (Shell.withoutEnding line)).start s = none) ∨
      ∃ code? s', (sh.answer line).start s = some (.ok code?, s') ∧ (Ready cs s' ∨ Ready [] s') := by
  by_cases blank : Text.allBlank (Shell.withoutEnding line).toList = true
  · exact .inr ⟨_, _, start_answer_blank sh blank s, .inl ready⟩
  · rw [start_answer sh (Bool.eq_false_iff.mpr blank)]
    cases ran : (sh.evaluateLine (Shell.withoutEnding line)).start s with
    | none => exact .inl ⟨rfl, rfl⟩
    | some ended =>
      refine .inr ⟨_, _, rfl, ?_⟩
      exact (ready.evaluated ran).imp (ready_noted _) (ready_noted _)

theorem start_rounds_reads {line : String} (n : Nat) (reads : Reads sh s line s₁) :
    (sh.rounds (n + 1)).start s =
      match (sh.answer line).start s₁ with
      | none => none
      | some (.error e, s') => some (.error e, s')
      | some (.ok (some code), s') => some (.ok code, s')
      | some (.ok none, s') => (sh.rounds n).start s' := by
  obtain ⟨-, _, shown, read⟩ := reads
  simp only [Shell.rounds, start_bind, shown, Bool.not_true, Bool.false_eq_true, if_false, read]
  rcases (sh.answer line).start s₁ with _ | ⟨_ | _ | code, s'⟩ <;> rfl

theorem start_rounds_closes (n : Nat) (closes : Closes sh s s') :
    (sh.rounds (n + 1)).start s = some (.ok 0, s') := by
  obtain ⟨_, _, shown, read, rfl⟩ := closes
  simp only [Shell.rounds, start_bind, shown, Bool.not_true, Bool.false_eq_true, if_false, read,
    start_note, start_pure]

/-- What a turn leaves is what was left of the input after the line, or nothing. -/
theorem exists_takes {line : String} {code? : Option Nat} (reads : Reads sh s line s₁)
    (ready : Ready rest s₁) (answered : (sh.answer line).start s₁ = some (.ok code?, s'))
    (after : Ready rest s' ∨ Ready [] s') :
    ∃ turn rest', Takes sh s turn code? s' ∧ Ready rest' s' ∧ (rest' = rest ∨ rest' = []) ∧
      turn.bytes ++ Text.encode rest' = held s ∧ (turn.consumed = [] → rest' = rest) := by
  rcases after with kept | emptied
  · refine ⟨⟨line, []⟩, rest, ⟨s₁, reads, answered, ?_⟩, kept, .inl rfl, ?_, fun _ => rfl⟩
    · rw [List.nil_append, kept.held, ready.held]
    · rw [← reads.1, ready.held, Turn.bytes, List.append_nil]
  · refine ⟨⟨line, Text.encode rest⟩, [], ⟨s₁, reads, answered, ?_⟩, emptied, .inr rfl, ?_, ?_⟩
    · rw [emptied.held, ready.held]
      exact List.append_nil _
    · rw [← reads.1, ready.held, Turn.bytes]
      exact List.append_nil _
    · intro none
      by_contra some
      exact encode_ne_nil (Ne.symm some) none

/-! All rounds. -/

theorem length_lines_le (cs : List Char) : (lines cs).length ≤ cs.count '\n' + 1 := by
  induction n : cs.length using Nat.strong_induction_on generalizing cs with
  | _ n ih =>
    subst n
    by_cases none : cs = []
    · subst none
      exact Nat.zero_le _
    · obtain ⟨body, line, rest, first⟩ := exists_firstLine none
      have shorter : rest.length < cs.length := by
        have whole := congrArg List.length first.append
        have some := List.length_pos_iff.mpr first.line_ne_nil
        rw [List.length_append] at whole
        omega
      have later := ih _ shorter rest rfl
      rw [lines_first first, List.length_cons]
      rcases first.count with rfl | fewer
      · simp [lines_nil]
      · omega

/-- The loop gets stuck at a line, after turns that use up the input in order. -/
def GetsStuck (sh : Shell) (s : Session) (cs : List Char) : Prop :=
  ∃ turns s₁, Turns sh s turns none s₁ ∧ Hangs sh s₁ ∧
    turns.flatMap Turn.bytes ++ held s₁ = Text.encode cs ∧ turns.length < (lines cs).length

/-- The loop ends after turns that use up the input in order. -/
def GoesThrough (sh : Shell) (s : Session) (cs : List Char) (code : Nat) (s' : Session) : Prop :=
  ∃ turns code? s₁ unread, Turns sh s turns code? s₁ ∧ Stops sh s₁ code? code s' ∧
    s'.input = .stream unread none ∧ turns.flatMap Turn.bytes ++ unread = Text.encode cs ∧
    turns.length ≤ (lines cs).length

theorem rounds_story (sh : Shell) (n : Nat) (ready : Ready cs s)
    (enough : (Text.encode cs).length < n) :
    ((sh.rounds n).start s = none ∧ GetsStuck sh s cs) ∨
      ∃ code s', (sh.rounds n).start s = some (.ok code, s') ∧ GoesThrough sh s cs code s' := by
  induction n generalizing cs s with
  | zero => omega
  | succ n ih =>
    by_cases none : cs = []
    · subst none
      have closes := ready.closes sh
      refine .inr ⟨0, _, start_rounds_closes n closes, [], .none, s, [], .none s, ⟨rfl, closes⟩, ?_,
        rfl, ?_⟩
      · exact ready.input
      · exact Nat.zero_le _
    · obtain ⟨body, line, rest, first⟩ := exists_firstLine none
      obtain ⟨reads, after⟩ := ready.reads sh first
      rw [start_rounds_reads n reads]
      rcases after.answer sh (String.ofList line) with
        ⟨unanswered, endless⟩ | ⟨code?, s₂, answered, left⟩
      · rw [unanswered]
        refine .inl ⟨rfl, [], s, .none s, ⟨_, _, reads, endless⟩, ready.held, ?_⟩
        rw [lines_first first]
        exact Nat.succ_pos _
      · obtain ⟨turn, rest', taken, ready', fewer, bytes, -⟩ := exists_takes reads after answered left
        rw [ready.held] at bytes
        have bound : (lines rest').length + 1 ≤ (lines cs).length := by
          rw [lines_first first, List.length_cons]
          rcases fewer with rfl | rfl
          · exact Nat.le_refl _
          · simp [lines_nil]
        rw [answered]
        cases code? with
        | some code =>
          refine .inr ⟨code, s₂, rfl, [turn], some code, s₂, _, .asks taken, ⟨rfl, rfl⟩,
            ready'.input, ?_, ?_⟩
          · simpa using bytes
          · rw [List.length_singleton]
            omega
        | none =>
          have less : (Text.encode rest').length < n := by
            have shorter := length_encode_rest first
            rcases fewer with rfl | rfl
            · omega
            · exact Nat.lt_of_le_of_lt (Nat.zero_le _) (Nat.lt_of_lt_of_le shorter (by omega))
          rcases ih ready' less with ⟨never, turns, s₃, later, hangs, used, short⟩ |
            ⟨code, s', ended, turns, code?, s₃, unread, later, stops, input, used, short⟩
          · refine .inl ⟨never, turn :: turns, s₃, .goesOn taken later, hangs, ?_, ?_⟩
            · rw [List.flatMap_cons, List.append_assoc, used, bytes]
            · rw [List.length_cons]
              omega
          · refine .inr ⟨code, s', ended, turn :: turns, code?, s₃, unread, .goesOn taken later, stops,
              input, ?_, ?_⟩
            · rw [List.flatMap_cons, List.append_assoc, used, bytes]
            · rw [List.length_cons]
              omega

/-! Line by line. -/

/-- Evaluates lines one by one, each on the bytes that come after it, and prompts
before each and at the end. A failure is reported; a line that asks for the end
leaves the bytes after it unread. -/
def lineByLine (sh : Shell) : List (String × Bytes) → Act Failure Nat
  | [] => do
    Act.mapError .io (Act.write (Text.bytes sh.prompt))
    Act.change fun s => { s with input := .empty }
    return 0
  | (text, rest) :: later => do
    Act.mapError .io (Act.write (Text.bytes sh.prompt))
    if Text.allBlank text.toList then lineByLine sh later
    else
      match ← Act.attempt (Act.withInput (.stream rest none) (sh.evaluateLine text)) with
      | .ok .proceed => lineByLine sh later
      | .ok (.exit code) =>
        Act.change fun s => { s with input := .stream rest none }
        return code
      | .error e =>
        Act.report e
        lineByLine sh later

/-- The sessions are the same but for the journal and what is left of the input. -/
def Beside (s t : Session) : Prop := ∃ journal input, s = { t with journal, input }

theorem start_prompt_beside (sh : Shell) (ready : Ready cs s) (beside : Beside s t) :
    (Act.mapError Failure.io (Act.write (Text.bytes sh.prompt))).start t =
      some (.ok (), prompted sh t) := by
  obtain ⟨p, output, unlimited⟩ := ready.output
  obtain ⟨journal, input, rfl⟩ := beside
  rw [start_mapError, (start_prompt sh (s := t) output unlimited).1]
  rfl

theorem evaluateLine_agrees (sh : Shell) (line : String) :
    (alike Unbroken False).Agrees (sh.evaluateLine line) (sh.evaluateLine line) :=
  .bind (parse_agrees alike_journal line) fun command =>
    .bind (alike_evaluateTop nofun nofun sh command) fun outcome =>
      .bind (.mapError (fun _ => rfl) (alike_like nofun).flush) fun _ => .pure outcome

/-- A line comes to the same in the loop and on its own. -/
theorem evaluate_beside (sh : Shell) (ready : Ready rest s) (beside : Beside s t) (text : String) :
    ((sh.evaluateLine text).start s = none ∧
        (Act.withInput (.stream (Text.encode rest) none) (sh.evaluateLine text)).start t = none) ∨
      ∃ result s₂ t₂, (sh.evaluateLine text).start s = some (result, s₂) ∧
        (Act.withInput (.stream (Text.encode rest) none) (sh.evaluateLine text)).start t =
          some (result, t₂) ∧ Beside s₂ t₂ := by
  obtain ⟨journal, input, rfl⟩ := beside
  obtain ⟨known, p, output, unlimited⟩ := ready
  have same : input = .stream (Text.encode rest) none := known
  subst same
  have rel : Alike Unbroken False { t with journal, input := .stream (Text.encode rest) none }
      { t with input := .stream (Text.encode rest) none } := by
    refine ⟨⟨journal, rfl⟩, ?_, nofun⟩
    rw [show t.output = .outlet p from output]
    exact ⟨unlimited.flushes, .inr unlimited.room⟩
  have ends := evaluateLine_agrees sh text rel
  rw [start_withInput]
  generalize (sh.evaluateLine text).start
    { t with journal, input := .stream (Text.encode rest) none } = looped at ends
  generalize (sh.evaluateLine text).start
    { t with input := .stream (Text.encode rest) none } = single at ends
  cases ends with
  | never => exact .inl ⟨rfl, rfl⟩
  | both _ rel' =>
    obtain ⟨⟨journal', rfl⟩, -, -⟩ := rel'
    exact .inr ⟨_, _, _, rfl, rfl, journal', _, rfl⟩

theorem beside_noted (e : Failure) (beside : Beside s t) :
    Beside (noted (.error e) s)
      { t with journal := t.journal ++ [⟨.warn, e.message⟩], reports := t.reports ++ [e] } := by
  obtain ⟨journal, input, rfl⟩ := beside
  exact ⟨_, input, rfl⟩

/-- What the loop leaves unread at a line that asks for the end. -/
theorem equal_of_beside (code : Nat) (ready : Ready rest s) (beside : Beside s t) :
    EqualButJournal (noted (.ok (.exit code)) s)
      { t with input := .stream (Text.encode rest) none } := by
  obtain ⟨journal, input, rfl⟩ := beside
  have same : input = .stream (Text.encode rest) none := ready.input
  subst same
  exact ⟨_, rfl⟩

/-- No turn takes more than its line. -/
def OnlyLines (sh : Shell) (s : Session) : Prop :=
  ∀ turns code? s₁, Turns sh s turns code? s₁ → ∀ turn ∈ turns, turn.consumed = []

theorem OnlyLines.leaves {line : String} {code? : Option Nat} (only : OnlyLines sh s)
    (reads : Reads sh s line s₁) (ready : Ready rest s₁)
    (answered : (sh.answer line).start s₁ = some (.ok code?, s')) (left : Ready rest s' ∨ Ready [] s') :
    ∃ turn, Takes sh s turn code? s' ∧ Ready rest s' := by
  obtain ⟨turn, rest', taken, ready', -, -, unread⟩ := exists_takes reads ready answered left
  have turns : ∃ code?, Turns sh s [turn] code? s' := by
    cases code? with
    | none => exact ⟨_, .goesOn taken (.none s')⟩
    | some code => exact ⟨_, .asks taken⟩
  obtain ⟨_, turns⟩ := turns
  rw [unread (only _ _ _ turns turn (List.mem_singleton_self turn))] at ready'
  exact ⟨turn, taken, ready'⟩

theorem OnlyLines.later {turn : Turn} (only : OnlyLines sh s) (taken : Takes sh s turn none s') :
    OnlyLines sh s' := by
  intro turns code? s₁ later turn' member
  exact only _ _ _ (.goesOn taken later) turn' (List.mem_cons_of_mem _ member)

/-- The first turn is at the first line. -/
theorem takes_first {turn : Turn} {code? : Option Nat} (ready : Ready cs s)
    (first : FirstLine cs body line rest) (taken : Takes sh s turn code? s') :
    (sh.answer (String.ofList line)).start (advanced sh rest s) = some (.ok code?, s') ∧
      turn.consumed ++ held s' = Text.encode rest := by
  obtain ⟨⟨-, _, shown, read⟩, after⟩ := ready.reads sh first
  obtain ⟨s₁, ⟨-, _, shown', read'⟩, answered, used⟩ := taken
  cases shown.symm.trans shown'
  obtain ⟨same, rfl⟩ := Prod.mk.inj (Option.some.inj (read.symm.trans read'))
  injection Except.ok.inj same with same
  rw [← same] at answered
  rw [after.held] at used
  exact ⟨answered, used⟩

/-- No turn takes more than its line if the first one does not, and none after it. -/
theorem onlyLines_first {code? : Option Nat} (ready : Ready cs s)
    (first : FirstLine cs body line rest)
    (answered : (sh.answer (String.ofList line)).start (advanced sh rest s) = some (.ok code?, s'))
    (unread : held s' = Text.encode rest) (later : code? = none → OnlyLines sh s') :
    OnlyLines sh s := by
  have nothing {turn : Turn} {code?' : Option Nat} {s₁ : Session} (taken : Takes sh s turn code?' s₁) :
      code?' = code? ∧ s₁ = s' ∧ turn.consumed = [] := by
    obtain ⟨answered', used⟩ := takes_first ready first taken
    cases answered.symm.trans answered'
    rw [← unread] at used
    exact ⟨rfl, rfl, List.append_left_eq_self.mp used⟩
  intro turns code?' s₁ taken turn member
  cases taken with
  | none => cases member
  | asks taken =>
    rw [List.mem_singleton.mp member]
    exact (nothing taken).2.2
  | goesOn taken rest =>
    obtain ⟨same, rfl, none⟩ := nothing taken
    rcases List.mem_cons.mp member with rfl | member
    · exact none
    · exact later same.symm _ _ _ rest turn member

/-- The loop on a text goes as evaluating its lines does, where no line reads what
comes after it. -/
theorem rounds_line_by_line (n : Nat) (ready : Ready cs s) (enough : (Text.encode cs).length < n)
    (beside : Beside s t) (only : OnlyLines sh s) :
    EndAlike ((sh.rounds n).start s) ((lineByLine sh (lines cs)).start t) := by
  induction n generalizing cs s t with
  | zero => omega
  | succ n ih =>
    have shown := start_prompt_beside sh ready beside
    by_cases nothing : cs = []
    · subst nothing
      rw [start_rounds_closes n (ready.closes sh), lines_nil, lineByLine, start_bind, shown]
      obtain ⟨journal, input, rfl⟩ := beside
      have ended : input = .stream [] none := ready.input
      subst ended
      exact .some ⟨rfl, _, rfl⟩
    · obtain ⟨body, line, rest, first⟩ := exists_firstLine nothing
      obtain ⟨reads, after⟩ := ready.reads sh first
      have shorter := length_encode_rest first
      have text := withoutEnding_first first
      have beside₁ : Beside (advanced sh rest s) (prompted sh t) := by
        obtain ⟨journal, input, rfl⟩ := beside
        exact ⟨journal, _, rfl⟩
      -- After a turn that goes on come the lines after its own.
      have continues {s₂ t₂ : Session} (answered : (sh.answer (String.ofList line)).start
          (advanced sh rest s) = some (.ok none, s₂)) (left : Ready rest s₂ ∨ Ready [] s₂)
          (beside₂ : Beside s₂ t₂) :
          EndAlike ((sh.rounds n).start s₂) ((lineByLine sh (lines rest)).start t₂) := by
        obtain ⟨turn, taken, ready'⟩ := only.leaves reads after answered left
        exact ih ready' (by omega) beside₂ (only.later taken)
      rw [start_rounds_reads n reads, lines_first first, lineByLine, start_bind, shown, ← text]
      dsimp only
      by_cases blank : Text.allBlank (Shell.withoutEnding (String.ofList line)).toList = true
      · have answered := start_answer_blank sh blank (advanced sh rest s)
        rw [if_pos blank, answered]
        exact continues answered (.inl after) beside₁
      · have answered := start_answer sh (Bool.eq_false_iff.mpr blank) (advanced sh rest s)
        rw [if_neg blank, start_bind, start_attempt]
        rcases evaluate_beside sh after beside₁ (Shell.withoutEnding (String.ofList line)) with
          ⟨never, neither⟩ | ⟨result, s₂, t₂, ran, single, beside₂⟩
        · rw [answered, never, neither]
          exact .none
        · have left := (after.evaluated ran).imp (ready_noted result) (ready_noted result)
          rw [ran] at answered
          rw [answered, single]
          rcases result with e | _ | code
          · exact continues answered left (beside_noted e beside₂)
          · exact continues answered left beside₂
          · obtain ⟨-, -, ready'⟩ := only.leaves reads after answered left
            exact .some ⟨rfl, equal_of_beside code ⟨ready'.input, ready'.output⟩ beside₂⟩

/-- The session in which the loop has begun. -/
def begun (s : Session) : Session :=
  { s with journal := s.journal ++ [⟨.info, "repl started in " ++ s.cwd.text⟩] }

/-- An input with a failing line, one that asks for the end, and more. -/
def session : Session := { input := .stream (Text.encode "no\r\nexit\nx".toList) none }

/-- The session after its first line. -/
def afterFirst : Session where
  input := .stream (Text.bytes "exit\nx") none
  output := .outlet { taken := Text.bytes "> " }
  reports := [.commandNotFound "no"]
  journal := [⟨.info, "repl started in /"⟩, ⟨.debug, "parsed: no"⟩,
    ⟨.warn, "shell: no: command not found"⟩]

/-- A line that copies a file to its own end. -/
def feeding : Session where
  disk := { entries := [(["f"], .file 0)], contents := [Text.bytes "x"] }
  input := .stream (Text.encode "cat f >> f\n".toList) none

/-- The program with no line to read, and with settings that ask for a journal. -/
def journaling : Invocation where
  arguments := []
  input := .stream (Text.encode []) none
  disk :=
    { entries := [(["h"], .dir), (["h", ".config"], .dir), (["h", ".config", "tinysh"], .dir),
        (["h", ".config", "tinysh", "config.toml"], .file 0)]
      contents := [Text.bytes "[settings]\nlog_level='info'\n"] }
  home := some "/h"

end LineShell.LoopLines
