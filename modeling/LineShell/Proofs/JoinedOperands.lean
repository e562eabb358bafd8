import LineShell.Proofs.NumberedLines
import LineShell.Proofs.PipedStages
import LineShell.Proofs.QuotedWords
import LineShell.Proofs.SelectedPositions
import LineShell.Proofs.SortedLines

/-! Several operands and their concatenation. An application that takes the lines of all its
operands together cannot tell whether it reads these from the files one after the other, or
from its input, to which `cat` has written the files. So a call with the files for operands
does what the pipe does, on whatever output. -/
namespace LineShell.JoinedOperands
open CopiedInputs EchoLine JoinedLines LineRoundTrip NumberedLines PipeIntoCat PipedStages
open PositionLists QuotedWords ReadOperands RedirectedOutput SelectedPositions SortedLines
open StepAgreement Text

/-- Applications that take the lines of all their operands together, with arguments that name
these and with the same arguments without them. -/
inductive Filters : Application → List String → List String → List String → Prop where
  | sort {args alone names : List String} {o o' : Options}
      (parsed : Options.parse "nrf".toList args = .ok o)
      (parsedAlone : Options.parse "nrf".toList alone = .ok o')
      (flags : ∀ flag, o'.has flag = o.has flag)
      (operands : o.operands = names) (lone : o'.operands = []) : Filters .sort args alone names
  | cut {args alone names : List String} {characters : Bool} {list : String} {spans : List Cut.Span}
      (listed : Lists list spans) (asks : Asks args characters list names)
      (asksAlone : Asks alone characters list []) : Filters .cut args alone names
  | number {args alone names : List String} {o o' : Options}
      (parsed : Options.parse "n".toList args = .ok o)
      (parsedAlone : Options.parse "n".toList alone = .ok o')
      (numbers : o.has 'n' = true) (numbersAlone : o'.has 'n' = true)
      (operands : o.operands = names) (lone : o'.operands = []) : Filters .cat args alone names

variable {sh : Shell} {run : Substitution} {app : Application} {args alone names : List String}
  {inputs : List Bytes} {p : Outlet} {s t m : Session} {rest : Source} {ls : List String}
  {result : Except Complaint Outcome}

/-! What lines come to. -/

/-- What succeeds has been passed on. -/
theorem flush_of_passing {failure : IoError → IoError} {bs : Bytes} {outcome : Outcome}
    (succeeds : passing p failure bs = .ok outcome) : p.flush = none := by
  unfold passing at succeeds
  split at succeeds
  · cases flushes : p.flush with
    | none => rfl
    | some e =>
      rw [flushes] at succeeds
      cases succeeds
  · cases succeeds

theorem start_printed {act : Job Outcome} (prints : PrintsLines act s rest ls)
    (output : s.output = .outlet p) :
    act.start s = some (passing p id (unlines ls),
      { s with input := rest, output := .outlet (p.write (unlines ls)).1 }) := by
  have flushed := flush_write p (unlines ls)
  rw [prints, output, passing]
  simp only [Sink.write]
  generalize p.write (unlines ls) = written at flushed ⊢
  obtain ⟨p', _ | e⟩ := written
  · simp only [Sink.flush, flushed]
  · rfl

theorem skip_stream (d : Disk) (bs : Bytes) :
    (Source.stream bs none).skip ((Source.stream bs none).held d).length = .stream [] none :=
  congrArg (Source.stream · none) List.drop_length

theorem reads_stream (d : Disk) (cwd : Place) (bs : Bytes) :
    Reads d cwd (.stream bs none) ["-"] [bs] (.stream [] none) := by
  rw [← skip_stream d bs]
  exact .input rfl .done

/-- An application that comes to the same, and writes the same, for the same lines, whether
they come from files or from its input. -/
structure Alike (app : Application) (args alone names : List String) (p : Outlet)
    (ls : List String) (result : Except Complaint Outcome) (text : Bytes) : Prop where
  passed : ∀ outcome, result = .ok outcome → p.flush = none
  files : ∀ {s : Session} {inputs : List Bytes}, s.output = .outlet p →
    FilesHold s.disk s.cwd names inputs → inputs.flatMap lines = ls →
    (app.run args).start s = some (result, { s with output := .outlet (p.write text).1 })
  stream : ∀ {s : Session} {bs : Bytes}, s.output = .outlet p → s.input = .stream bs none →
    lines bs = ls → (app.run alone).start s =
      some (result, { s with input := .stream [] none, output := .outlet (p.write text).1 })

theorem alike_of_printed (text : List String)
    (files : ∀ {s : Session} {inputs : List Bytes} {rest : Source},
      Reads s.disk s.cwd s.input names inputs rest → inputs.flatMap lines = ls →
      PrintsLines (app.run args) s rest text)
    (stream : ∀ {s : Session} {inputs : List Bytes} {rest : Source},
      Reads s.disk s.cwd s.input ["-"] inputs rest → inputs.flatMap lines = ls →
      PrintsLines (app.run alone) s rest text) :
    Alike app args alone names p ls (passing p id (unlines text)) (unlines text) where
  passed _ succeeds := flush_of_passing succeeds
  files output hold same := start_printed (files (reads_files hold) same) output
  stream {s bs} output input same := by
    have reads := reads_stream s.disk s.cwd bs
    rw [← input] at reads
    exact start_printed (stream reads (by simpa using same)) output

theorem exists_alike (filters : Filters app args alone names) (nonempty : names ≠ []) (p : Outlet)
    (ls : List String) :
    ∃ result text, Alike app args alone names p ls result text ∧
      (app = .cat → text = unlines (Cat.numberLines 0 ls)) := by
  cases filters with
  | @sort _ _ _ o o' parsed parsedAlone flags operands lone =>
    have given := operandsOr_some operands nonempty "-"
    have givenAlone := operandsOr_none lone "-"
    obtain ⟨sorted, ordered⟩ :
        ∃ sorted, sorted = Sort.sortLines ⟨o.has 'n', o.has 'f'⟩ ls := ⟨_, rfl⟩
    refine ⟨_, _, alike_of_printed (if o.has 'r' then sorted.reverse else sorted)
      (fun reads same => ?_) (fun reads same => ?_), fun cat => absurd cat (by decide)⟩
    · rw [← given] at reads
      rw [ordered, ← same]
      exact prints_sorted parsed reads
    · rw [← givenAlone] at reads
      rw [ordered, ← same, ← flags, ← flags, ← flags]
      exact prints_sorted parsedAlone reads
  | @cut _ _ _ characters _ spans listed asks asksAlone =>
    have given : inputsOf names = names := if_neg (by simpa using nonempty)
    refine ⟨_, _, alike_of_printed (ls.map (keep characters spans)) (fun reads same => ?_)
      (fun reads same => ?_), fun cat => absurd cat (by decide)⟩
    · rw [← given] at reads
      rw [← same]
      exact prints_kept asks listed reads
    · rw [← same]
      exact prints_kept asksAlone listed reads
  | number parsed parsedAlone numbers numbersAlone operands lone =>
    refine ⟨numbering p ls, _, ⟨fun _ succeeds => flush_of_passing succeeds, ?_, ?_⟩, fun _ => rfl⟩
    · rintro s inputs output hold rfl
      exact start_number_files output parsed numbers operands nonempty hold
    · rintro s bs output input rfl
      have ran := start_number_input output parsedAlone numbersAlone lone (by rw [input]; rfl)
      rw [input, skip_stream] at ran
      exact ran

/-! Calls and pipes. -/

/-- A call of an application by its name passes it the words that are quoted. -/
theorem call_quoted (run : Substitution) (enabled : app ∈ sh.applications) (args : List String) :
    sh.call run ⟨app.name :: args.map quoted⟩ = (do
      Act.note .debug ("run: " ++ ShellWord.line (app.name :: args))
      Shell.launch app args) := by
  have name : Word.expand run Shell.glob app.name = pure [app.name] :=
    expand_ordinary run Shell.glob (by cases app <;> decide) (by cases app <;> decide)
  have signless : ∀ token ∈ app.name :: args.map quoted, Token.redirect? token = none := by
    refine List.forall_mem_cons.mpr ⟨by cases app <;> decide, fun token member => ?_⟩
    obtain ⟨word, -, rfl⟩ := List.mem_map.mp member
    exact Option.not_isSome_iff_eq_none.mp (Bool.eq_false_iff.mp (isRedirect_quoted word))
  have expanded : Word.expandAll run Shell.glob (app.name :: args.map quoted) =
      pure (app.name :: args) := by
    simp [Word.expandAll, name, expandAll_quoted]
  simp only [Shell.call, extract_signless signless, pure_bind, expanded, find?_name enabled,
    Redirection.within]

/-- A call with files for operands comes to what the pipe from `cat` comes to. -/
theorem call_and_pipe (run : Substitution) {catArgs : List String} {catO : Options} {text : Bytes}
    (alike : Alike app args alone names p (inputs.flatMap lines) result text)
    (catEnabled : .cat ∈ sh.applications) (enabled : app ∈ sh.applications)
    (catParsed : Options.parse "n".toList catArgs = .ok catO) (plain : catO.has 'n' = false)
    (operands : catO.operands = names) (nonempty : names ≠ [])
    (files : FilesHold s.disk s.cwd names inputs)
    (ended : ∀ bs ∈ inputs.dropLast, Ended bs) (output : s.output = .outlet p) :
    Ends (sh.call run ⟨app.name :: args.map quoted⟩) s (result.mapError (.application app.name))
        { s with output := .outlet (p.write text).1 } ∧
      Ends (sh.pipe run [⟨"cat" :: catArgs.map quoted⟩, ⟨app.name :: alone.map quoted⟩]) s
        (result.mapError (.application app.name))
        { s with output := .outlet (p.write text).1 } := by
  have flushes : ∀ outcome, result = .ok outcome →
      (Sink.outlet (p.write text).1).flush = none := fun outcome succeeds =>
    (flush_write p text).trans (alike.passed outcome succeeds)
  have flushes' : ∀ outcome, result.mapError (Failure.application app.name) = .ok outcome →
      (Sink.outlet (p.write text).1).flush = none := by
    intro outcome succeeds
    cases result with
    | error e => cases succeeds
    | ok outcome' => exact flushes outcome' rfl
  constructor
  · exact call_ends (call_quoted run enabled args)
      (fun journal => alike.files (s := noted s journal) output files rfl) flushes
  · -- `cat` writes the files, one after the other, to an output of its own.
    have unlimited : Unlimited {} := ⟨rfl, rfl⟩
    have copied (journal : List Record) : (Application.run .cat catArgs).start
        (noted { s with output := .unlimited } journal) =
        some (.ok .proceed, noted { s with output := .outlet (fed {} inputs.flatten) } journal) :=
      start_cat_files unlimited rfl catParsed plain operands nonempty files
    have first : Proceeds (sh.stage run ⟨"cat" :: catArgs.map quoted⟩)
        { s with output := .unlimited } { s with output := .outlet (fed {} inputs.flatten) } :=
      stage_ends (call_ends (call_quoted run catEnabled catArgs) copied fun _ _ => rfl)
        fun _ _ => rfl
    -- The lines of what it wrote are those of the files.
    have read (journal : List Record) : (app.run alone).start
        (noted { s with input := .stream inputs.flatten none } journal) =
        some (result, noted { s with
          input := .stream [] none
          output := .outlet (p.write text).1 } journal) :=
      alike.stream (s := noted { s with input := .stream inputs.flatten none } journal) output rfl
        (lines_flatten ended)
    have second := stage_ends (call_ends (call_quoted run enabled alone) read flushes) flushes'
    exact pipe_ends first rfl second

/-- `sort`, `cut` with a list, and `cat -n` do the same with files for operands, each but the
last of them empty or ended by a line feed, as without operands after `cat` of these files: they
come to the same and write the same, on every outlet. So `cat -n` numbers the lines of the
files joined, from 1 on and without gaps. -/
theorem operands_act_as_concatenation (sh : Shell) (app : Application)
    (args alone catArgs names : List String) (catO : Options) (inputs : List Bytes) (s : Session)
    (p : Outlet) (catEnabled : .cat ∈ sh.applications) (enabled : app ∈ sh.applications)
    (filters : Filters app args alone names)
    (catParsed : Options.parse "n".toList catArgs = .ok catO) (plain : catO.has 'n' = false)
    (operands : catO.operands = names) (nonempty : names ≠ [])
    (files : FilesHold s.disk s.cwd names inputs) (ended : ∀ bs ∈ inputs.dropLast, Ended bs)
    (output : s.output = .outlet p) :
    ∃ result p' journal journal',
      (sh.evaluateTop (.call ⟨app.name :: args.map quoted⟩)).start s =
        some (result, { s with output := .outlet p', journal }) ∧
      (sh.evaluateTop
          (.pipe [⟨"cat" :: catArgs.map quoted⟩, ⟨app.name :: alone.map quoted⟩])).start s =
        some (result, { s with output := .outlet p', journal := journal' }) ∧
      (app = .cat → p' = (p.write (unlines ((lines inputs.flatten).mapIdx fun i line =>
        Cat.numbered (i + 1) line))).1) := by
  obtain ⟨result, text, alike, numbers⟩ :=
    exists_alike filters nonempty p (inputs.flatMap lines)
  obtain ⟨called, piped⟩ := call_and_pipe (sh.substitute sh.levels) alike catEnabled enabled
    catParsed plain operands nonempty files ended output
  obtain ⟨journal, direct⟩ := called s.journal
  obtain ⟨journal', through⟩ := piped s.journal
  refine ⟨_, _, journal, journal', direct, through, fun cat => ?_⟩
  have counted (i : Nat) (line : String) :
      Cat.numbered (0 + 1 + i) line = Cat.numbered (i + 1) line := by
    rw [Nat.zero_add, Nat.add_comm]
  rw [numbers cat, lines_flatten ended, Cat.numberLines]
  simp only [counted]

/-- A session with files of one line, of nothing, and of a line without a line feed. -/
def sheets : Session where
  disk := { entries := [(["f"], .file 0), (["g"], .file 1), (["h"], .file 2)]
            contents := [Text.bytes "a\n", [], Text.bytes "b"] }

/-- The line of the last file is the second one. -/
theorem lines_numbered_across_files :
    (Filters .cat ["-n", "f", "g", "h"] ["-n"] ["f", "g", "h"] ∧
      Options.parse "n".toList ["f", "g", "h"] = .ok ⟨[], ["f", "g", "h"]⟩ ∧
      FilesHold sheets.disk sheets.cwd ["f", "g", "h"] [Text.bytes "a\n", [], Text.bytes "b"] ∧
      ∀ bs ∈ [Text.bytes "a\n", [], Text.bytes "b"].dropLast, Ended bs) ∧
    ∃ result s', (({} : Shell).evaluateTop (.pipe [⟨["cat", "'f'", "'g'", "'h'"]⟩,
        ⟨["cat", "'-n'"]⟩])).start sheets = some (result, s') ∧
      s'.output.taken = Text.bytes "     1\ta\n     2\tb\n" := by
  have parsed : Options.parse "n".toList ["-n", "f", "g", "h"] = .ok ⟨['n'], ["f", "g", "h"]⟩ := by
    decide +kernel
  have parsedAlone : Options.parse "n".toList ["-n"] = .ok ⟨['n'], []⟩ := by decide +kernel
  have catParsed : Options.parse "n".toList ["f", "g", "h"] = .ok ⟨[], ["f", "g", "h"]⟩ := by
    decide +kernel
  have filters : Filters .cat ["-n", "f", "g", "h"] ["-n"] ["f", "g", "h"] :=
    .number parsed parsedAlone rfl rfl rfl rfl
  have files : FilesHold sheets.disk sheets.cwd ["f", "g", "h"]
      [Text.bytes "a\n", [], Text.bytes "b"] := by
    repeat' constructor
    all_goals decide +kernel
  have ended : ∀ bs ∈ [Text.bytes "a\n", [], Text.bytes "b"].dropLast, Ended bs := by decide +kernel
  obtain ⟨result, p', -, journal', -, piped, numbers⟩ := operands_act_as_concatenation {} .cat
    ["-n", "f", "g", "h"] ["-n"] ["f", "g", "h"] _ _ _ sheets {} (by decide) (by decide) filters
    catParsed rfl rfl (by decide) files ended rfl
  have words : ["f", "g", "h"].map quoted = ["'f'", "'g'", "'h'"] ∧
      ["-n"].map quoted = ["'-n'"] := by
    decide +kernel
  rw [words.1, words.2] at piped
  refine ⟨⟨filters, catParsed, files, ended⟩, result, _, piped, ?_⟩
  have taken : (Sink.outlet p').taken = p'.taken := rfl
  rw [taken, numbers rfl]
  decide +kernel

end LineShell.JoinedOperands
