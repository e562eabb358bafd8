import LineShell.Application.Grep
import LineShell.Application.Wc
import LineShell.Proofs.NumberedLines
import LineShell.Proofs.OperandRefusals

/-! Applications that leave out the operands that they cannot read: `cat`, `grep` and `wc`. What
they write comes from the other operands alone, in order, as if only these had been given, and the
first complaint is what the run ends with. An operand is either read or refused, and neither changes
what the rest comes to, but for the input, which is read once. -/
namespace LineShell.SkippedOperands
open AmbientStreams CopiedInputs JoinedLines NumberedLines OpenedTargets OperandRefusals PipeIntoCat
open ReadOperands RedirectedOutput SessionBonds StepAgreement Text

/-- What can be read of operands, each with its name, if the input holds some bytes: a first `-`
gives these, and another one nothing. -/
def readable (d : Disk) (cwd : Place) : Bytes → List String → List (String × Bytes)
  | _, [] => []
  | held, name :: names =>
    if name = "-" then (name, held) :: readable d cwd [] names
    else
      match contentAt? d (Path.resolve cwd name) with
      | some bs => (name, bs) :: readable d cwd held names
      | none => readable d cwd held names

/-- What can be read of operands in a session. -/
def found (s : Session) (names : List String) : List (String × Bytes) :=
  readable s.disk s.cwd (s.input.held s.disk) names

/-- A run that writes a text, reads the input if it is an operand, and ends with the complaint about
the first operand that cannot be read, if there is one. -/
def Skims (act : Job Outcome) (s : Session) (p : Outlet) (names : List String) (text : Bytes) :
    Prop :=
  act.start s = some ((names.findSome? (refusal? s)).elim (.ok .proceed) .error,
    { s with input := leftOver s names, output := .outlet (fed p text) })

/-- What `cat` does with an operand: it writes a piece that depends on the last line number, and the
number goes on; or it complains. -/
structure Emits (step : Nat → String → Job Nat) (piece : Nat → Bytes → Bytes)
    (next : Nat → Bytes → Nat) : Prop where
  reads : ∀ {s p name bs rest} last, Unlimited p → s.output = .outlet p →
    Reads s.disk s.cwd s.input [name] [bs] rest →
    (step last name).start s =
      some (.ok (next last bs), { s with input := rest, output := .outlet (fed p (piece last bs)) })
  refuses : ∀ {s name e} last, name ≠ "-" → refusal? s name = some e →
    (step last name).start s = some (.error e, s)

/-- The pieces written for several operands. -/
def pieces (piece : Nat → Bytes → Bytes) (next : Nat → Bytes → Nat) : Nat → List Bytes → Bytes
  | _, [] => []
  | last, bs :: rest => piece last bs ++ pieces piece next (next last bs) rest

/-- What `grep` shows of an operand: the lines that pass a test, or how many there are. -/
def shown (isMatch : String → Bool) (count labels : Bool) (file : String × Bytes) : List String :=
  let passing := (lines file.2).filter isMatch
  (if count then [toString passing.length] else passing).map (Grep.labelled labels file.1)

/-- What several readings gave that could be made. -/
def made (readings : List Job.Reading) : List (String × Bytes) :=
  readings.filterMap fun r =>
    match r.result with
    | .ok bs => some (r.name, bs)
    | .error _ => none

/-- `grep` with any engine, which makes a test of lines from a pattern or refuses it. -/
def searching (engine : Bool → String → Option (String → Bool)) (args : List String) :
    Job Outcome := do
  let o ← Job.options "icH" args
  match o.operands with
  | [] => throw .tooFewArguments
  | text :: files =>
    let some isMatch := engine (o.has 'i') text | throw (.invalidPattern text)
    let inputs := if files.isEmpty then ["-"] else files
    let readings ← Job.tryOperands inputs
    Job.writeLines
      ((made readings).flatMap (shown isMatch (o.has 'c') (o.has 'H' || 1 < inputs.length)))
    Job.settle (Job.firstComplaint? (readings.map (·.result)))

/-- The counts of several inputs, summed up. -/
def total (files : List (String × Bytes)) : Wc.Counts where
  lines := (files.map fun file => (Wc.count file.2).lines).sum
  words := (files.map fun file => (Wc.count file.2).words).sum
  bytes := (files.map fun file => (Wc.count file.2).bytes).sum

variable {s : Session} {p : Outlet} {name : String} {names args : List String} {bs : Bytes}
  {rest : Source} {e : Complaint} {o : Options} {step : Nat → String → Job Nat}
  {piece : Nat → Bytes → Bytes} {next : Nat → Bytes → Nat} {readings : List Job.Reading}

/-! Operands. -/

/-- An operand is read, or it is refused and leaves the rest as it was. -/
theorem operand_cases (sound : s.input.fault = none) (name : String) :
    (∃ bs, Reads s.disk s.cwd s.input [name] [bs] (leftOver s [name]) ∧ refusal? s name = none ∧
      ∀ names, found s (name :: names) =
        (name, bs) :: found { s with input := leftOver s [name] } names) ∨
    ∃ e, name ≠ "-" ∧ refusal? s name = some e ∧
      ∀ names, found s (name :: names) = found s names := by
  by_cases input : name = "-"
  · subst input
    have listed : "-" ∈ ["-"] := List.mem_singleton_self _
    refine .inl ⟨s.input.held s.disk, ?_, by rw [refusal?_input, sound]; rfl, fun names => ?_⟩
    · rw [leftOver_some listed]
      exact .input sound .done
    · have emptied := held_leftOver (s := s) listed
      rw [found, found, readable, if_pos rfl]
      dsimp only
      rw [emptied]
  · rcases start_openOperand_cases input s with ⟨id, leads, fine, -⟩ | ⟨e, nothing, refused, -⟩
    · have held := contentAt?_of_lead leads
      refine .inl ⟨s.disk.content id, ?_, fine, fun names => ?_⟩
      · rw [leftOver_named input]
        exact .file input held .done
      · rw [found, readable, if_neg input, held, leftOver_named input]
        rfl
    · refine .inr ⟨e, input, refused, fun names => ?_⟩
      rw [found, readable, if_neg input, nothing]
      rfl

/-- The first complaint is the same after an operand has been read. -/
theorem findSome?_leftOver (s : Session) (before names : List String) :
    names.findSome? (refusal? { s with input := leftOver s before }) =
      names.findSome? (refusal? s) :=
  congrArg (names.findSome? ·) (funext (refusal?_leftOver s before))

/-- All operands are tried: those that can be read give what they hold. -/
theorem start_tryOperands_found (sound : s.input.fault = none) (names : List String) :
    ∃ readings,
      (Job.tryOperands names).start s = some (.ok readings, { s with input := leftOver s names }) ∧
      made readings = found s names ∧
      Job.firstComplaint? (readings.map (·.result)) = names.findSome? (refusal? s) := by
  induction names generalizing s with
  | nil => exact ⟨[], rfl, rfl, rfl⟩
  | cons name names ih =>
    rcases operand_cases sound name with ⟨bs, reads, fine, others⟩ | ⟨e, named, refused, others⟩
    · obtain ⟨readings, tried, gave, complains⟩ :=
        ih (s := { s with input := leftOver s [name] }) ((fault_leftOver s [name]).trans sound)
      rw [leftOver_append] at tried
      refine ⟨⟨name, .ok bs⟩ :: readings, ?_, ?_, ?_⟩
      · simp only [Job.tryOperands, start_bind, start_attempt, start_readOperand reads,
          Option.map, tried, start_pure]
        rfl
      · rw [others, ← gave]
        rfl
      · rw [List.findSome?_cons, fine, ← findSome?_leftOver s [name], ← complains]
        rfl
    · obtain ⟨readings, tried, gave, complains⟩ := ih sound
      have failed := start_readOperand_refused refused
      rw [leftOver_named named] at failed
      refine ⟨⟨name, .error e⟩ :: readings, ?_, ?_, ?_⟩
      · simp only [Job.tryOperands, start_bind, start_attempt, failed, Option.map, tried, start_pure,
          leftOver_cons_named named]
      · rw [others, ← gave]
        rfl
      · rw [List.findSome?_cons, refused]
        rfl

/-- The lines made of what can be read are written, and then the first complaint counts. -/
theorem skims_of_start {act : Job Outcome} {ls : List String} (unlimited : Unlimited p)
    (output : s.output = .outlet p)
    (same : act.start s = (do
      Job.writeLines ls
      Job.settle (names.findSome? (refusal? s)) : Job Outcome).start
        { s with input := leftOver s names }) :
    Skims act s p names (unlines ls) := by
  have wrote := start_write_unlimited unlimited (s := { s with input := leftOver s names }) output
    (unlines ls)
  have flushed := start_flush_unlimited (unlimited.fed (unlines ls))
    (s := { s with input := leftOver s names, output := .outlet (fed p (unlines ls)) }) rfl
  rw [Skims, same]
  simp only [Job.writeLines, Job.write, Job.flush, Job.ofIo, start_bind, start_mapError, wrote,
    flushed, Option.map, Except.mapError]
  cases names.findSome? (refusal? s) <;> rfl

/-! `cat`. -/

/-- A file or the input is copied to an output that takes everything. -/
theorem start_copyOperand_reads (unlimited : Unlimited p) (output : s.output = .outlet p)
    (reads : Reads s.disk s.cwd s.input [name] [bs] rest) :
    (Cat.copyOperand name).start s =
      some (.ok (), { s with input := rest, output := .outlet (fed p bs) }) := by
  cases reads with
  | input sound later =>
    cases later
    obtain ⟨_, s', copied, left, same⟩ := @Carries.pumpAll _ _ _ _ _ () [] s
      (carries_write unlimited s s.input) (by rw [fed_nil, ← output]) rfl
    rw [List.nil_append, left] at same
    rw [Cat.copyOperand, if_pos rfl, Cat.copy, Job.ofIo, start_mapError, copied, same, sound]
    rfl
  | file named held later =>
    cases later
    exact start_copyOperand unlimited output named held

theorem emits_copies : Emits copyNext (fun _ bs => bs) fun last _ => last where
  reads last unlimited output reads := by
    rw [copyNext, start_bind, start_copyOperand_reads unlimited output reads]
    rfl
  refuses {s name e} last named refused := by
    rw [copyNext, start_bind, Cat.copyOperand, if_neg named, start_bind,
      start_openOperand_refused named refused]

theorem emits_numbers : Emits Cat.numberOperand
    (fun last bs => unlines (Cat.numberLines last (lines bs)))
    fun last bs => last + (lines bs).length where
  reads {s p name bs rest} last unlimited output reads := by
    rw [start_numberOperand last output (start_readOperand reads) rfl]
    simp only [Outlet.write, unlimited.room, fed]
  refuses {s name e} last named refused := by
    have failed := start_readOperand_refused refused
    rw [leftOver_named named] at failed
    rw [Cat.numberOperand, start_bind, failed]

theorem pieces_copies (last : Nat) (inputs : List Bytes) :
    pieces (fun _ bs => bs) (fun last _ => last) last inputs = inputs.flatten := by
  induction inputs with
  | nil => rfl
  | cons bs inputs ih => rw [pieces, ih, List.flatten_cons]

theorem pieces_numbers (last : Nat) (inputs : List Bytes) :
    pieces (fun last bs => unlines (Cat.numberLines last (lines bs)))
      (fun last bs => last + (lines bs).length) last inputs =
        unlines (Cat.numberLines last (inputs.flatMap lines)) := by
  induction inputs generalizing last with
  | nil => rfl
  | cons bs inputs ih => rw [pieces, ih, List.flatMap_cons, numberLines_append, unlines_append]

theorem start_emitAll_found (emits : Emits step piece next) (unlimited : Unlimited p)
    (output : s.output = .outlet p) (sound : s.input.fault = none) (last : Nat)
    (names : List String) :
    (Cat.emitAll step last names).start s =
      some (.ok (names.findSome? (refusal? s)),
        { s with
          input := leftOver s names
          output := .outlet (fed p (pieces piece next last ((found s names).map Prod.snd))) }) := by
  induction names generalizing s p last with
  | nil =>
    have nothing : pieces piece next last ((found s []).map Prod.snd) = [] := rfl
    rw [nothing, fed_nil, ← output]
    rfl
  | cons name names ih =>
    rcases operand_cases sound name with ⟨bs, reads, fine, others⟩ | ⟨e, named, refused, others⟩
    · have rest := ih (unlimited.fed (piece last bs))
        (s := { s with
          input := leftOver s [name]
          output := .outlet (fed p (piece last bs)) }) rfl
        ((fault_leftOver s [name]).trans sound) (next last bs)
      have later : leftOver { s with input := leftOver s [name] } names =
          leftOver s (name :: names) := leftOver_append s [name] names
      have complains := findSome?_leftOver s [name] names
      rw [others, List.map_cons, pieces, ← fed_fed, List.findSome?_cons, fine, ← complains, ← later]
      simp only [Cat.emitAll, start_bind, start_attempt, emits.reads last unlimited output reads,
        Option.map, rest]
      rfl
    · have rest := ih unlimited output sound last
      simp only [Cat.emitAll, start_bind, start_attempt, emits.refuses last named refused,
        Option.map, unbroken_of_refusal sound refused, Bool.false_eq_true, if_false, rest, others,
        leftOver_cons_named named, List.findSome?_cons, refused, start_pure]

theorem skims_cat (emits : Emits step piece next) (unlimited : Unlimited p)
    (output : s.output = .outlet p) (sound : s.input.fault = none)
    (parsed : Options.parse "n".toList args = .ok o) (operands : o.operands = names)
    (nonempty : names ≠ []) (chosen : (if o.has 'n' then Cat.numberOperand else copyNext) = step) :
    Skims (Cat.run args) s p names (pieces piece next 0 ((found s names).map Prod.snd)) := by
  have emitted := start_emitAll_found emits unlimited output sound 0 names
  have given := operandsOr_some operands nonempty "-"
  have copies : (fun last name => (do Cat.copyOperand name; return last : Job Nat)) = copyNext := rfl
  rw [Skims, Cat.run]
  simp only [start_bind, start_options parsed, copies, chosen, given, emitted]
  generalize pieces piece next 0 ((found s names).map Prod.snd) = text
  have flushed := start_flush_unlimited (unlimited.fed text)
    (s := { s with input := leftOver s names, output := .outlet (fed p text) }) rfl
  simp only [Job.flush, Job.ofIo, start_mapError, flushed, Option.map, Except.mapError]
  cases names.findSome? (refusal? s) <;> rfl

/-! `grep`. -/

/-- The engine that `grep` has. -/
def regex (fold : Bool) (text : String) : Option (String → Bool) :=
  (Regex.Pattern.parse? fold text).map Regex.Pattern.isMatch

/-- `grep` writes what it shows of the readings that could be made. -/
theorem run_eq_searching (args : List String) : Grep.run args = searching regex args := by
  have reported (pattern : Regex.Pattern) (count labels : Bool) (readings : List Job.Reading) :
      Grep.reports pattern count labels readings =
        (made readings).flatMap (shown pattern.isMatch count labels) := by
    induction readings with
    | nil => rfl
    | cons r readings ih =>
      obtain ⟨name, e | bs⟩ := r
      · exact ih
      · exact congrArg (Grep.report pattern count labels name bs ++ ·) ih
  unfold Grep.run searching regex
  congr 1
  funext o
  rcases o.operands with _ | ⟨text, files⟩
  · rfl
  · dsimp only
    cases Regex.Pattern.parse? (o.has 'i') text with
    | none => rfl
    | some pattern => simp only [Option.map_some, reported]

theorem skims_searching {engine : Bool → String → Option (String → Bool)} {text : String}
    {isMatch : String → Bool} (unlimited : Unlimited p) (output : s.output = .outlet p)
    (sound : s.input.fault = none) (parsed : Options.parse "icH".toList args = .ok o)
    (operands : o.operands = text :: names) (nonempty : names ≠ [])
    (accepted : engine (o.has 'i') text = some isMatch) :
    Skims (searching engine args) s p names (unlines
      ((found s names).flatMap (shown isMatch (o.has 'c') (o.has 'H' || 1 < names.length)))) := by
  obtain ⟨readings, tried, gave, complains⟩ := start_tryOperands_found sound names
  have filled : names.isEmpty = false := by simpa using nonempty
  apply skims_of_start unlimited output
  simp only [searching, start_bind, start_options parsed, operands, accepted, filled,
    Bool.false_eq_true, if_false, tried, gave, complains]

/-! `wc`. -/

theorem counted_eq (readings : List Job.Reading) :
    Wc.counted readings = (made readings).map fun file => (file.1, Wc.count file.2) := by
  rw [made, List.map_filterMap, Wc.counted]
  congr 1
  funext r
  cases r.result <;> rfl

theorem foldl_counts (sum : Wc.Counts) (files : List (String × Bytes)) :
    files.foldl (fun sum file => sum.add (Wc.count file.2)) sum = sum.add (total files) := by
  induction files generalizing sum with
  | nil => rfl
  | cons file files ih =>
    rw [List.foldl_cons, ih]
    simp only [Wc.Counts.add, total, List.map_cons, List.sum_cons, Nat.add_assoc]

theorem skims_wc (unlimited : Unlimited p) (output : s.output = .outlet p)
    (sound : s.input.fault = none) (parsed : Options.parse "clw".toList args = .ok o)
    (operands : o.operands = names) (nonempty : names ≠ []) :
    Skims (Wc.run args) s p names (unlines
      ((found s names).map (fun file => (Wc.columns o).row (Wc.count file.2) (some file.1)) ++
        if 1 < names.length then [(Wc.columns o).row (total (found s names)) (some "total")]
        else [])) := by
  obtain ⟨readings, tried, gave, complains⟩ := start_tryOperands_found sound names
  have filled : names.isEmpty = false := by simpa using nonempty
  have sums := foldl_counts ⟨0, 0, 0⟩ (found s names)
  rw [show Wc.Counts.add ⟨0, 0, 0⟩ (total (found s names)) = total (found s names) by
    simp only [Wc.Counts.add, Nat.zero_add]] at sums
  apply skims_of_start unlimited output
  simp only [Wc.run, start_bind, start_options parsed, operands, filled, Bool.false_eq_true,
    if_false, tried, complains, counted_eq, gave, List.foldl_map, sums, List.map_map]
  rfl

/-- Operands that cannot be read are left out. What `cat`, `grep` and `wc` write to an output that
takes everything is what the other operands give, in order, where a second `-` gives nothing: their
bytes, or their lines numbered throughout; the lines that pass the test of any engine, or how many
they are, labelled if asked or if several operands were named; a row for each, and one for their
total if several were named. The run ends with the first complaint, if there is one. -/
theorem unreadable_operands_are_left_out (s : Session) (p : Outlet) (unlimited : Unlimited p)
    (output : s.output = .outlet p) (sound : s.input.fault = none) (names : List String)
    (nonempty : names ≠ []) :
    (∀ args o, Options.parse "n".toList args = .ok o → o.operands = names →
      Skims (Cat.run args) s p names
        (if o.has 'n' then
          unlines (Cat.numberLines 0 ((found s names).flatMap fun file => lines file.2))
        else (found s names).flatMap Prod.snd)) ∧
    (∀ args, Grep.run args = searching regex args) ∧
    (∀ engine args o text isMatch, Options.parse "icH".toList args = .ok o →
      o.operands = text :: names → engine (o.has 'i') text = some isMatch →
      Skims (searching engine args) s p names (unlines ((found s names).flatMap
        (shown isMatch (o.has 'c') (o.has 'H' || 1 < names.length))))) ∧
    ∀ args o, Options.parse "clw".toList args = .ok o → o.operands = names →
      Skims (Wc.run args) s p names (unlines
        ((found s names).map (fun file => (Wc.columns o).row (Wc.count file.2) (some file.1)) ++
          if 1 < names.length then [(Wc.columns o).row (total (found s names)) (some "total")]
          else [])) := by
  refine ⟨fun args o parsed operands => ?_, run_eq_searching, ?_, ?_⟩
  · cases numbered : o.has 'n' with
    | true =>
      have skims := skims_cat emits_numbers unlimited output sound parsed operands nonempty
        (by rw [numbered, if_pos rfl])
      rw [pieces_numbers, List.flatMap_map] at skims
      exact skims
    | false =>
      have skims := skims_cat emits_copies unlimited output sound parsed operands nonempty
        (by rw [numbered, if_neg Bool.false_ne_true])
      rw [pieces_copies, ← List.flatMap_def] at skims
      exact skims
  · intro engine args o text isMatch parsed operands accepted
    exact skims_searching unlimited output sound parsed operands nonempty accepted
  · intro args o parsed operands
    exact skims_wc unlimited output sound parsed operands nonempty

/-- A session with a file and a directory, and two lines to read. -/
def scattered : Session where
  disk := { entries := [(["f"], .file 0), (["d"], .dir)], contents := [Text.bytes "b\nab"] }
  input := .stream (Text.bytes "a\nc\n") none

/-- Among a missing file, a directory and the input named twice, all that can be read is numbered,
searched and counted, and what is missing is the complaint. -/
theorem scattered_operands_are_left_out :
    (Unlimited {} ∧ scattered.output = .outlet {} ∧ scattered.input.fault = none ∧
      Options.parse "n".toList ["-n", "f", "gone", "-", "d", "-"] =
        .ok ⟨['n'], ["f", "gone", "-", "d", "-"]⟩ ∧
      Options.parse "icH".toList ["-c", "a", "f", "gone", "-", "d", "-"] =
        .ok ⟨['c'], ["a", "f", "gone", "-", "d", "-"]⟩ ∧
      Options.parse "clw".toList ["-l", "f", "gone", "-", "d", "-"] =
        .ok ⟨['l'], ["f", "gone", "-", "d", "-"]⟩ ∧
      (regex false "a").isSome) ∧
    (Cat.run ["-n", "f", "gone", "-", "d", "-"]).start scattered =
      some (.error (.noSuchFile "gone"), { scattered with
        input := .empty
        output := .outlet
          { taken := Text.bytes "     1\tb\n     2\tab\n     3\ta\n     4\tc\n" } }) ∧
    (Grep.run ["-c", "a", "f", "gone", "-", "d", "-"]).start scattered =
      some (.error (.noSuchFile "gone"), { scattered with
        input := .empty
        output := .outlet
          { taken := Text.bytes "f: 1\n(standard input): 1\n(standard input): 0\n" } }) ∧
    (Wc.run ["-l", "f", "gone", "-", "d", "-"]).start scattered =
      some (.error (.noSuchFile "gone"), { scattered with
        input := .empty
        output := .outlet { taken := Text.bytes "\t1 f\n\t2 -\n\t0 -\n\t3 total\n" } }) := by
  have unlimited : Unlimited {} := ⟨rfl, rfl⟩
  have engine : (regex false "a").isSome := by decide +kernel
  obtain ⟨isMatch, accepted⟩ := Option.isSome_iff_exists.mp engine
  have first : ["f", "gone", "-", "d", "-"].findSome? (refusal? scattered) =
      some (.noSuchFile "gone") := by decide +kernel
  have left : leftOver scattered ["f", "gone", "-", "d", "-"] = .empty := by decide +kernel
  have read : found scattered ["f", "gone", "-", "d", "-"] =
      [("f", Text.bytes "b\nab"), ("-", Text.bytes "a\nc\n"), ("-", [])] := by decide +kernel
  have counts : (regex false "a").map (fun isMatch =>
      [("f", Text.bytes "b\nab"), ("-", Text.bytes "a\nc\n"), ("-", [])].flatMap
        (shown isMatch true true)) =
      some ["f: 1", "(standard input): 1", "(standard input): 0"] := by decide +kernel
  rw [accepted, Option.map_some, Option.some.injEq] at counts
  obtain ⟨cat, grep, search, wc⟩ := unreadable_operands_are_left_out scattered {} unlimited rfl rfl
    ["f", "gone", "-", "d", "-"] (by decide)
  have numbered := cat ["-n", "f", "gone", "-", "d", "-"]
    ⟨['n'], ["f", "gone", "-", "d", "-"]⟩ rfl rfl
  have searched : Skims (Grep.run ["-c", "a", "f", "gone", "-", "d", "-"]) scattered {}
      ["f", "gone", "-", "d", "-"] (unlines
        ((found scattered ["f", "gone", "-", "d", "-"]).flatMap (shown isMatch true true))) :=
    grep _ ▸ search regex _ ⟨['c'], ["a", "f", "gone", "-", "d", "-"]⟩ "a" isMatch rfl rfl accepted
  have counted := wc ["-l", "f", "gone", "-", "d", "-"]
    ⟨['l'], ["f", "gone", "-", "d", "-"]⟩ rfl rfl
  rw [Skims, first, left, read] at numbered searched counted
  rw [counts] at searched
  refine ⟨⟨unlimited, rfl, rfl, rfl, rfl, rfl, engine⟩, numbered.trans ?_, searched.trans ?_,
    counted.trans ?_⟩
  all_goals decide +kernel

end LineShell.SkippedOperands
