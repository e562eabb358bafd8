import LineShell.Proofs.CallDispatch
import LineShell.Proofs.CopyRounds
import LineShell.Proofs.OperandRefusals

/-! Calls of `cat` that end, and those that never do. Operands are copied in turn, each as it is when
its turn comes: the output may be one of the files that are read, and then what an operand holds
depends on those before it. A call ends unless some copy feeds itself, and a copy that ends writes
no more than its operand held. -/
namespace LineShell.EndlessCopies
open ApplicationAgreement CallDispatch CopiedInputs CopyRounds NumberedLines OpenedTargets
open OperandRefusals ReadOperands RedirectedOutput SessionBonds StepAgreement

/-- What an operand is read from, if it can be opened. -/
def source? (s : Session) (name : String) : Option Source :=
  if name = "-" then some s.input
  else
    match lead? s.disk (Path.resolve s.cwd name) with
    | some (.file id) => some (.file id 0)
    | _ => none

/-- What an operand held when its turn came, and what was written of it. -/
structure Turn where
  held : Bytes
  written : Bytes

/-- Operands that are copied in turn. One that cannot be opened is left out. Of any other all is
written that the output takes; if that is all it held, then it is read to its end. -/
inductive Copied : Session → List String → List Turn → Session → Prop where
  | done {s : Session} : Copied s [] [] s
  | refused {s t : Session} {name : String} {names : List String} {turns : List Turn}
      (unopened : source? s name = none) (later : Copied s names turns t) :
      Copied s (name :: names) turns t
  | copied {s t : Session} {name : String} {names : List String} {turns : List Turn}
      {source : Source} {n : Nat} (opens : source? s name = some source)
      (apart : ¬FeedsItself s.disk s.output source)
      (whole : (s.output.write s.disk (source.held s.disk)).2.2 = none →
        n = (source.held s.disk).length)
      (later : Copied { wrote s (accepted s.output (source.held s.disk)) with
        input := if name = "-" then source.skip n else s.input } names turns t) :
      Copied s (name :: names)
        (⟨source.held s.disk, accepted s.output (source.held s.disk)⟩ :: turns) t

/-- Some operand feeds itself when its turn comes. -/
def Fed (s : Session) (names : List String) : Prop :=
  ∃ before name later turns t source, names = before ++ name :: later ∧ Copied s before turns t ∧
    source? t name = some source ∧ FeedsItself t.disk t.output source

/-- Where a run leaves the session, if it ends. -/
def left {ε α : Type} (act : Act ε α) (s : Session) : Option Session := (act.start s).map Prod.snd

/-- The session in which the application of a call begins. -/
def begun (ready : Ready) (s : Session) : Session :=
  { s with
    input := ready.streams.input.getD s.input
    output := ready.streams.output.getD s.output
    journal := s.journal ++
      [⟨.debug, "run: " ++ Text.ShellWord.line (ready.app.name :: ready.args)⟩] }

variable {s t : Session} {name : String} {names args : List String} {turns : List Turn}
  {source : Source} {o : Options} {last : Nat}

/-! One operand. -/

theorem named_of_source? (unopened : source? s name = none) : name ≠ "-" := by
  rintro rfl
  cases unopened

theorem start_copyOperand_unopened (unopened : source? s name = none) :
    ∃ e, refusal? s name = some e ∧ (Cat.copyOperand name).start s = some (.error e, s) := by
  have named := named_of_source? unopened
  rcases start_openOperand_cases named s with ⟨id, leads, -, -⟩ | ⟨e, -, refused, failed⟩
  · rw [source?, if_neg named, leads] at unopened
    cases unopened
  · exact ⟨e, refused, by rw [Cat.copyOperand, if_neg named, start_bind, failed]⟩

/-- An operand that can be opened is copied from there. -/
theorem start_copyOperand_opened (opens : source? s name = some source) :
    (Cat.copyOperand name).start s =
      ((copying ((source.held s.disk).length + s.output.room?.getD 0 + 1)).start
        { s with input := source }).map
        fun ended => (ended.1.mapError .io,
          { ended.2 with input := if name = "-" then ended.2.input else s.input }) := by
  have copy (s : Session) : Cat.copy.start s =
      ((copying ((s.input.held s.disk).length + s.output.room?.getD 0 + 1)).start s).map
        fun ended => (ended.1.mapError .io, ended.2) := by
    rw [Cat.copy, Job.ofIo, start_mapError, start_pumpAll]
    rfl
  by_cases input : name = "-"
  · subst input
    cases opens
    rw [Cat.copyOperand, if_pos rfl, copy]
    rfl
  · rw [source?, if_neg input] at opens
    rcases start_openOperand_cases input s with ⟨id, leads, -, opened⟩ | ⟨-, nothing, -, -⟩
    · rw [leads] at opens
      cases opens
      rw [Cat.copyOperand, if_neg input, start_bind, opened]
      dsimp only
      rw [start_withInput, copy, Option.map_map]
      simp only [if_neg input]
      rfl
    · rw [contentAt?] at nothing
      split at opens
      · rename_i leads
        rw [leads] at nothing
        cases nothing
      · cases opens

/-! All operands. -/

/-- After an operand the rest is copied, unless nobody reads any more. -/
theorem left_emitAll_cons (last : Nat) (name : String) (names : List String) (s : Session) :
    left (Cat.emitAll copyNext last (name :: names)) s =
      match (Cat.copyOperand name).start s with
      | none => none
      | some (.error e, t) =>
        if e.isBrokenPipe then some t else left (Cat.emitAll copyNext last names) t
      | some (.ok (), t) => left (Cat.emitAll copyNext last names) t := by
  simp only [left, Cat.emitAll, copyNext, start_bind, start_attempt]
  rcases (Cat.copyOperand name).start s with _ | ⟨e | _, t⟩
  · rfl
  · simp only [Option.map]
    cases e.isBrokenPipe with
    | true => rfl
    | false =>
      simp only [Bool.false_eq_true, if_false, start_bind]
      rcases (Cat.emitAll copyNext last names).start t with _ | ⟨_ | _, _⟩ <;> rfl
  · rfl

theorem left_cons_refused (sound : s.input.fault = none) (unopened : source? s name = none)
    (names : List String) :
    left (Cat.emitAll copyNext last (name :: names)) s = left (Cat.emitAll copyNext last names) s := by
  obtain ⟨e, refused, failed⟩ := start_copyOperand_unopened unopened
  rw [left_emitAll_cons, failed]
  simp only [unbroken_of_refusal sound refused, Bool.false_eq_true, if_false]

theorem left_cons_fed (opens : source? s name = some source)
    (feeds : FeedsItself s.disk s.output source) (names : List String) :
    left (Cat.emitAll copyNext last (name :: names)) s = none := by
  have endless := start_copying_fed (s := { s with input := source }) feeds
  rw [left_emitAll_cons, start_copyOperand_opened opens, endless]
  rfl

theorem fault_of_source? (sound : s.input.fault = none) (opens : source? s name = some source) :
    source.fault = none := by
  unfold source? at opens
  split at opens
  · cases opens
    exact sound
  · split at opens <;> cases opens
    rfl

theorem fault_after (sound : s.input.fault = none) (opens : source? s name = some source) (n : Nat) :
    (if name = "-" then source.skip n else s.input).fault = none := by
  split
  · rw [fault_skip]
    exact fault_of_source? sound opens
  · exact sound

/-- An operand that does not feed itself is copied, and then the rest is, unless nobody reads. -/
theorem left_cons_copied (sound : s.input.fault = none) (opens : source? s name = some source)
    (apart : ¬FeedsItself s.disk s.output source) (last : Nat) (names : List String) :
    ∃ n t, ((s.output.write s.disk (source.held s.disk)).2.2 = none →
        n = (source.held s.disk).length) ∧
      t = { wrote s (accepted s.output (source.held s.disk)) with
        input := if name = "-" then source.skip n else s.input } ∧
      (left (Cat.emitAll copyNext last (name :: names)) s = left (Cat.emitAll copyNext last names) t ∨
        left (Cat.emitAll copyNext last (name :: names)) s = some t ∧
          ∃ p, t.output = .outlet p ∧ p.broken = true) := by
  obtain ⟨n, whole, copied⟩ :=
    start_copying_apart (s := { s with input := source }) apart
      (Nat.lt_succ_of_le (Nat.le_add_right _ (s.output.room?.getD 0)))
  refine ⟨n, _, whole, rfl, ?_⟩
  rw [left_emitAll_cons, start_copyOperand_opened opens, copied, wrote_input]
  simp only [failure?, fault_of_source? sound opens, Option.or_none]
  cases failed : (s.output.write s.disk (source.held s.disk)).2.2 with
  | none => exact .inl rfl
  | some e =>
    cases output : s.output with
    | file id next =>
      rw [output] at failed
      cases next <;> cases failed
    | outlet p =>
      rw [output] at failed
      obtain ⟨m, room, exceeds⟩ := (fits_or_over p (source.held s.disk)).resolve_left
        fun fits => by rw [Sink.write, write_of_fits fits] at failed; cases failed
      rw [Sink.write, write_of_over room exceeds] at failed
      cases failed
      cases broken : p.broken with
      | false => exact .inl rfl
      | true =>
        refine .inr ⟨rfl, (p.write (source.held s.disk)).1, ?_, ?_⟩
        · rw [wrote_outlet output, write_accepted]
        · rw [write_of_over room exceeds]
          exact broken

theorem Copied.isFile (copied : Copied s names turns t) (file : IsFile t.output) :
    IsFile s.output := by
  induction copied with
  | done => exact file
  | refused _ _ ih => exact ih file
  | @copied s _ _ _ _ source _ _ _ _ _ ih =>
    obtain ⟨id, next, output⟩ := ih file
    cases before : s.output with
    | outlet p =>
      rw [wrote_outlet before] at output
      cases output
    | file id next => exact ⟨id, next, rfl⟩

theorem isFile_of_feeds (feeds : FeedsItself t.disk t.output source) : IsFile t.output := by
  cases output : t.output with
  | outlet p =>
    rw [output] at feeds
    cases feeds
  | file id next => exact ⟨id, next, rfl⟩

/-- The operands end, or one of them feeds itself. -/
theorem left_emitAll (sound : s.input.fault = none) (last : Nat) (names : List String) :
    left (Cat.emitAll copyNext last names) s = none ∧ Fed s names ∨
      ∃ before later turns t, names = before ++ later ∧ Copied s before turns t ∧
        (later = [] ∨ ∃ p, t.output = .outlet p ∧ p.broken = true) ∧
        left (Cat.emitAll copyNext last names) s = some t := by
  induction names generalizing s with
  | nil => exact .inr ⟨[], [], [], s, rfl, .done, .inl rfl, rfl⟩
  | cons name names ih =>
    cases opens : source? s name with
    | none =>
      rw [left_cons_refused sound opens]
      rcases ih sound with ⟨never, fed⟩ | ⟨before, later, turns, t, rfl, copied, stops, ends⟩
      · obtain ⟨before, fed, later, turns, t, source, rfl, copied, opened, feeds⟩ := fed
        exact .inl ⟨never, name :: before, fed, later, turns, t, source, rfl, .refused opens copied,
          opened, feeds⟩
      · exact .inr ⟨name :: before, later, turns, t, rfl, .refused opens copied, stops, ends⟩
    | some source =>
      by_cases apart : FeedsItself s.disk s.output source
      · exact .inl ⟨left_cons_fed opens apart names, [], name, names, [], s, source, rfl, .done,
          opens, apart⟩
      · obtain ⟨n, t₁, whole, after, goes | ⟨stops, broken⟩⟩ :=
          left_cons_copied sound opens apart last names
        · have sound₁ : t₁.input.fault = none := by
            rw [after]
            exact fault_after sound opens n
          rw [goes]
          subst after
          rcases ih sound₁ with
            ⟨never, fed⟩ | ⟨before, later, turns, t, rfl, copied, stops, ends⟩
          · obtain ⟨before, fed, later, turns, t, source', rfl, copied, opened, feeds⟩ := fed
            exact .inl ⟨never, name :: before, fed, later, _, t, source', rfl,
              .copied opens apart whole copied, opened, feeds⟩
          · exact .inr ⟨name :: before, later, _, t, rfl, .copied opens apart whole copied, stops,
              ends⟩
        · subst after
          exact .inr ⟨[name], names, _, _, rfl, .copied opens apart whole .done, .inr broken, stops⟩

/-- Operands of which one feeds itself never end. -/
theorem left_of_copied (sound : s.input.fault = none) (copied : Copied s names turns t)
    (opens : source? t name = some source) (feeds : FeedsItself t.disk t.output source) (last : Nat)
    (later : List String) : left (Cat.emitAll copyNext last (names ++ name :: later)) s = none := by
  induction copied with
  | done => exact left_cons_fed opens feeds later
  | refused unopened _ ih =>
    rw [List.cons_append, left_cons_refused sound unopened]
    exact ih sound opens feeds
  | @copied s t first names turns source' n opened apart whole copied ih =>
    rw [List.cons_append]
    -- The output is a file, which takes everything: so all has been read, and nothing failed.
    have kept := copied.isFile (isFile_of_feeds feeds)
    obtain ⟨id, next, output⟩ := (Copied.copied opened apart whole copied).isFile
      (isFile_of_feeds feeds)
    have took : (s.output.write s.disk (source'.held s.disk)).2.2 = none := by
      rw [output]
      cases next <;> rfl
    obtain ⟨m, t₁, whole', after, goes | ⟨-, p, full, -⟩⟩ :=
      left_cons_copied sound opened apart last (names ++ name :: later)
    · rw [whole' took, ← whole took] at after
      rw [goes, after]
      exact ih (fault_after sound opened n) opens feeds
    · rw [after] at full
      obtain ⟨id, next, output⟩ := kept
      cases output.symm.trans full

/-! Calls. -/

theorem left_run (parsed : Options.parse "n".toList args = .ok o) (plain : o.has 'n' = false)
    (s : Session) :
    left (Cat.run args) s = left (Cat.emitAll copyNext 0 (o.operandsOr "-")) s := by
  have copies : (fun last name => (do Cat.copyOperand name; return last : Job Nat)) = copyNext := rfl
  simp only [left, Cat.run, start_bind, start_options parsed, plain, Bool.false_eq_true, if_false,
    copies]
  rcases (Cat.emitAll copyNext 0 (o.operandsOr "-")).start s with _ | ⟨_ | complaint, t⟩
  · rfl
  · rfl
  · simp only [Job.flush, Job.ofIo, start_mapError, EchoLine.start_flush, Option.map]
    cases t.output.flush with
    | none => cases complaint <;> rfl
    | some e => rfl

theorem left_launch (app : Application) (args : List String) (s : Session) :
    left (Shell.launch app args) s = left (app.run args) s := by
  simp only [left, Shell.launch, start_bind, start_attempt]
  rcases (app.run args).start s with _ | ⟨result, t⟩
  · rfl
  · simp only [Option.map, EchoLine.start_flush]
    cases result <;> cases t.output.flush <;> rfl

/-- A step on the streams of a redirection leaves those alone that these stand for. -/
theorem left_within {ε α : Type} (r : Redirection) (act : Act ε α) (s : Session) :
    left (r.within act) s =
      (left act { s with input := r.input.getD s.input, output := r.output.getD s.output }).map
        fun t => { t with
          input := if r.input.isSome then s.input else t.input
          output := if r.output.isSome then s.output else t.output } := by
  obtain ⟨rest, _ | input, _ | output⟩ := r
  · exact Option.map_id'.symm
  all_goals
    simp only [left, Redirection.within, start_withInput, start_withOutput, Option.map_map]
    rfl

theorem left_dispatch (ready : Ready) (s : Session) :
    left ready.dispatch s = (left (ready.app.run ready.args) (begun ready s)).map fun t => { t with
      input := if ready.streams.input.isSome then s.input else t.input
      output := if ready.streams.output.isSome then s.output else t.output } := by
  have noted : left ready.dispatch s = left (ready.streams.within (Shell.launch ready.app ready.args))
      { s with journal := s.journal ++
        [⟨.debug, "run: " ++ Text.ShellWord.line (ready.app.name :: ready.args)⟩] } := rfl
  rw [noted, left_within, left_launch]
  rfl

theorem left_call {sh : Shell} {run : Substitution} {c : Call} {ready : Ready} {s₁ : Session}
    (prepared : (prepare sh run c).start s = some (.ok ready, s₁)) :
    left (sh.call run c) s = left ready.dispatch s₁ := by
  rw [left, call_eq, start_bind, prepared]
  rfl

theorem accepted_begins (sink : Sink) (bs : Bytes) : accepted sink bs <+: bs := by
  unfold accepted
  split
  · rename_i p
    cases p.room with
    | none => exact List.prefix_refl bs
    | some n => exact List.take_prefix n bs
  · exact List.prefix_refl bs

theorem Copied.bounded (copied : Copied s names turns t) :
    ∀ turn ∈ turns, turn.written <+: turn.held := by
  induction copied with
  | done => simp
  | refused _ _ ih => exact ih
  | copied _ _ _ _ ih => exact List.forall_mem_cons.mpr ⟨accepted_begins _ _, ih⟩

/-- A copy that feeds itself does not end in any number of rounds. A call of `cat` without numbers
whose input does not fail never ends just if some operand feeds itself when its turn comes: it reads
the file that the output is, there is something to read, and writes go to the end or to a later
place. If it ends, then its operands were copied in turn, all of them unless the output has nobody
left that reads it, and of each at most what it held when its turn came was written. -/
theorem copies_end_unless_they_feed_themselves (sh : Shell) (run : Substitution) (c : Call)
    (s s₁ : Session) (ready : Ready) (o : Options)
    (prepared : (prepare sh run c).start s = some (.ok ready, s₁)) (cat : ready.app = .cat)
    (parsed : Options.parse "n".toList ready.args = .ok o) (plain : o.has 'n' = false)
    (sound : (begun ready s₁).input.fault = none) :
    (∀ t, FeedsItself t.disk t.output t.input → ∀ rounds, (copying rounds).start t = none) ∧
    ((sh.call run c).start s = none ↔ Fed (begun ready s₁) (o.operandsOr "-")) ∧
    ∀ result s', (sh.call run c).start s = some (result, s') →
      ∃ before later turns t, o.operandsOr "-" = before ++ later ∧
        (later = [] ∨ ∃ p, t.output = .outlet p ∧ p.broken = true) ∧
        Copied (begun ready s₁) before turns t ∧ (∀ turn ∈ turns, turn.written <+: turn.held) ∧
        s'.disk = t.disk ∧ (ready.streams.output = none → s'.output = t.output) := by
  have leaves : left (sh.call run c) s = _ :=
    (left_call prepared).trans (left_dispatch ready s₁)
  rw [cat, Application.run, left_run parsed plain] at leaves
  refine ⟨fun t feeds rounds => start_copying_fed feeds rounds, ?_, ?_⟩
  · rw [← Option.map_eq_none_iff (f := Prod.snd)]
    change left (sh.call run c) s = none ↔ _
    rw [leaves, Option.map_eq_none_iff]
    constructor
    · intro never
      rcases left_emitAll sound 0 (o.operandsOr "-") with ⟨-, fed⟩ | ⟨_, _, _, _, _, _, _, ends⟩
      · exact fed
      · rw [never] at ends
        cases ends
    · rintro ⟨before, name, later, turns, t, source, operands, copied, opens, feeds⟩
      rw [operands]
      exact left_of_copied sound copied opens feeds 0 later
  · intro result s' ran
    have ended : left (sh.call run c) s = some s' := by rw [left, ran]; rfl
    rcases left_emitAll sound 0 (o.operandsOr "-") with
      ⟨never, -⟩ | ⟨before, later, turns, t, operands, copied, stops, ends⟩
    · rw [leaves, never] at ended
      cases ended
    · rw [leaves, ends] at ended
      cases ended
      refine ⟨before, later, turns, t, operands, stops, copied, copied.bounded, rfl, fun ambient => ?_⟩
      simp only [ambient, Option.isSome_none, Bool.false_eq_true, if_false]

/-- A session with a file that holds one character. -/
def single : Session where
  disk := { entries := [(["f"], .file 0)], contents := [Text.bytes "x"] }

/-- A call that adds the file to its own end, ready to be dispatched. -/
def onItself : Ready where
  streams := { rest := ["cat", "f"], output := some (.file 0 none) }
  app := .cat
  args := ["f"]

/-- A call that writes the file to the output. -/
def onOutput : Ready where
  streams := { rest := ["cat", "f"] }
  app := .cat
  args := ["f"]

/-- The file that is added to its own end feeds itself at once; written to the output it is copied
as a whole. -/
theorem file_is_copied_unless_to_its_end :
    ((prepare {} (({} : Shell).substitute 8) ⟨["cat", "f", ">>", "f"]⟩).start single =
        some (.ok onItself, single) ∧
      (prepare {} (({} : Shell).substitute 8) ⟨["cat", "f"]⟩).start single =
        some (.ok onOutput, single) ∧
      Options.parse "n".toList ["f"] = .ok ⟨[], ["f"]⟩ ∧
      FeedsItself single.disk (.file 0 none) (.file 0 0)) ∧
    (({} : Shell).call (({} : Shell).substitute 8) ⟨["cat", "f", ">>", "f"]⟩).start single = none ∧
    (∀ rounds, (copying rounds).start
      { single with input := .file 0 0, output := .file 0 none } = none) ∧
    ∃ turns t, Copied (begun onOutput single) ["f"] turns t ∧
      (∀ turn ∈ turns, turn.written <+: turn.held) ∧ t.output.taken = Text.bytes "x" := by
  have looped : (prepare {} (({} : Shell).substitute 8) ⟨["cat", "f", ">>", "f"]⟩).start single =
      some (.ok onItself, single) := by decide +kernel
  have shown : (prepare {} (({} : Shell).substitute 8) ⟨["cat", "f"]⟩).start single =
      some (.ok onOutput, single) := by decide +kernel
  have parsed : Options.parse "n".toList ["f"] = .ok ⟨[], ["f"]⟩ := rfl
  have feeds : FeedsItself single.disk (.file 0 none) (.file 0 0) :=
    ⟨rfl, by decide +kernel, fun _ => nofun⟩
  obtain ⟨never, fed, -⟩ :=
    copies_end_unless_they_feed_themselves {} _ _ _ _ onItself _ looped rfl parsed rfl rfl
  obtain ⟨-, -, ends⟩ :=
    copies_end_unless_they_feed_themselves {} _ _ _ _ onOutput _ shown rfl parsed rfl rfl
  have ran : (({} : Shell).call (({} : Shell).substitute 8) ⟨["cat", "f"]⟩).start single =
      some (.ok .proceed, { single with
        output := .outlet { taken := Text.bytes "x" }
        journal := [⟨.debug, "run: cat f"⟩] }) := by decide +kernel
  obtain ⟨before, later, turns, t, operands, stops, copied, bounded, -, output⟩ := ends _ _ ran
  have taken := output rfl
  refine ⟨⟨looped, shown, parsed, feeds⟩, fed.mpr ?_, fun rounds => never _ feeds rounds, turns, t,
    ?_, bounded, ?_⟩
  · exact ⟨[], "f", [], [], _, .file 0 0, rfl, .done, by decide +kernel, feeds⟩
  · rcases stops with rfl | ⟨p, here, broken⟩
    · rw [List.append_nil] at operands
      rw [show ["f"] = before from operands]
      exact copied
    · rw [← taken] at here
      cases here
      cases broken
  · rw [← taken]
    rfl

/-- A session with an empty file. -/
def blank : Session where
  disk := { entries := [(["f"], .file 0)], contents := [[]] }

/-- A file is added to its own end without end. A file that is empty when it is opened and gets a
line before it is read gives that line. -/
theorem file_copied_to_its_end_never_ends :
    (({} : Shell).evaluateLine "cat f >> f").start single = none ∧
    contentAt? blank.disk ["f"] = some [] ∧
    ((({} : Shell).evaluateLine "cat < f `echo hello >> f`").start blank).map
        (fun ended => (ended.1, ended.2.output.taken)) =
      some (.ok .proceed, Text.bytes "hello\n") := by
  decide +kernel

end LineShell.EndlessCopies
