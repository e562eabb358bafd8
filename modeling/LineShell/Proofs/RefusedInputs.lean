import LineShell.Proofs.LineRuns
import LineShell.Proofs.OperandRefusals
import LineShell.Proofs.SelectedPositions
import LineShell.Proofs.SortedLines

/-! Applications that do nothing unless they can read all their operands: `sort`, `cut`, `paste`
and `uniq`. Their arguments are refused before an operand is read, and all operands are read
before something is written. So what they leave of a session after the first operand that cannot
be read is the session with the input read as far as it comes before, and nothing else. -/
namespace LineShell.RefusedInputs
open LineRuns OperandRefusals PositionLists SelectedPositions ReadOperands StepAgreement

/-- The applications, and the flags that they know. -/
inductive Gathers : Application → String → Prop where
  | sort : Gathers .sort "nrf"
  | cut : Gathers .cut "cb"
  | paste : Gathers .paste "s"
  | uniq : Gathers .uniq "cdD"

/-- Arguments with which an application reads these operands. -/
inductive Requests : Application → List String → List String → Prop where
  | sort {args : List String} {o : Options} (parsed : Options.parse "nrf".toList args = .ok o) :
      Requests .sort args (o.operandsOr "-")
  | paste {args : List String} {o : Options} (parsed : Options.parse "s".toList args = .ok o) :
      Requests .paste args (o.operandsOr "-")
  | cut {args files : List String} {characters : Bool} {list : String} {spans : List Cut.Span}
      (asks : Asks args characters list files) (listed : Lists list spans) :
      Requests .cut args (inputsOf files)
  | uniq {args : List String} {o : Options} (parsed : Options.parse "cdD".toList args = .ok o)
      (few : o.operands.length ≤ 2) (sensible : ¬(o.has 'c' = true ∧ o.has 'D' = true)) :
      Requests .uniq args [o.operands.headD "-"]

/-- Arguments that an application refuses: a flag that it does not know, no kind of list or both,
no list or one that cannot be read, operands beyond an output, or counts of all duplicates. -/
inductive Rejects : Application → List String → Complaint → Prop where
  | flag {app : Application} {known : String} {args : List String} {e : Complaint}
      (gathers : Gathers app known) (failed : Options.parse known.toList args = .error e) :
      Rejects app args e
  | bothKinds {args : List String} {o : Options} (parsed : Options.parse "cb".toList args = .ok o)
      (characters : o.has 'c' = true) (bytes : o.has 'b' = true) : Rejects .cut args .twoListKinds
  | noKind {args : List String} {o : Options} (parsed : Options.parse "cb".toList args = .ok o)
      (characters : o.has 'c' = false) (bytes : o.has 'b' = false) : Rejects .cut args .noListKind
  | noList {args : List String} {o : Options} (parsed : Options.parse "cb".toList args = .ok o)
      (kind : o.has 'b' = !o.has 'c') (none : o.operands = []) :
      Rejects .cut args .tooFewArguments
  | badList {args files : List String} {characters : Bool} {list : String}
      (asks : Asks args characters list files) (unlisted : ¬∃ spans, Lists list spans) :
      Rejects .cut args (.invalidList list)
  | many {args : List String} {o : Options} (parsed : Options.parse "cdD".toList args = .ok o)
      (many : 2 < o.operands.length) : Rejects .uniq args .tooManyArguments
  | countsOfAll {args : List String} {o : Options} (parsed : Options.parse "cdD".toList args = .ok o)
      (few : o.operands.length ≤ 2) (counts : o.has 'c' = true) (all : o.has 'D' = true) :
      Rejects .uniq args .countsOfAllDuplicates

variable {app : Application} {args names operands : List String} {s : Session} {e : Complaint}

/-! Arguments. -/

theorem streams?_few (few : operands.length ≤ 2) :
    ∃ output, Uniq.streams? operands = some (operands.headD "-", output) := by
  match operands, few with
  | [], _ => exact ⟨none, rfl⟩
  | [input], _ => exact ⟨none, rfl⟩
  | [input, output], _ => exact ⟨some output, rfl⟩

theorem streams?_many (many : 2 < operands.length) : Uniq.streams? operands = none := by
  match operands, many with
  | _ :: _ :: _ :: _, _ => rfl

/-- Arguments are refused, or operands are read. -/
theorem rejects_or_requests {known : String} (gathers : Gathers app known) (args : List String) :
    (∃ e, Rejects app args e) ∨ ∃ names, Requests app args names := by
  cases parsed : Options.parse known.toList args with
  | error e => exact .inl ⟨e, .flag gathers parsed⟩
  | ok o =>
    cases gathers with
    | sort => exact .inr ⟨_, .sort parsed⟩
    | paste => exact .inr ⟨_, .paste parsed⟩
    | cut =>
      cases characters : o.has 'c' <;> cases bytes : o.has 'b'
      · exact .inl ⟨_, .noKind parsed characters bytes⟩
      all_goals try exact .inl ⟨_, .bothKinds parsed characters bytes⟩
      all_goals
        cases operands : o.operands with
        | nil => exact .inl ⟨_, .noList parsed (by rw [characters, bytes]; rfl) operands⟩
        | cons list files =>
          have asks : Asks args _ list files := .intro parsed characters bytes operands
          by_cases listed : ∃ spans, Lists list spans
          · exact .inr ⟨_, .cut asks listed.choose_spec⟩
          · exact .inl ⟨_, .badList asks listed⟩
    | uniq =>
      rcases Nat.lt_or_ge 2 o.operands.length with many | few
      · exact .inl ⟨_, .many parsed many⟩
      · by_cases both : o.has 'c' = true ∧ o.has 'D' = true
        · exact .inl ⟨_, .countsOfAll parsed few both.1 both.2⟩
        · exact .inr ⟨_, .uniq parsed few both⟩

/-- Arguments are refused before anything is done. -/
theorem start_rejected (rejects : Rejects app args e) (s : Session) :
    (app.run args).start s = some (.error e, s) := by
  cases rejects with
  | flag gathers failed =>
    cases gathers <;>
      simp only [Application.run, Sort.run, Cut.run, Paste.run, Uniq.run, Job.options, failed,
        start_bind, start_ofExcept]
  | bothKinds parsed characters bytes =>
    simp only [Application.run, Cut.run, start_bind, start_options parsed, characters, bytes]
    rfl
  | noKind parsed characters bytes =>
    simp only [Application.run, Cut.run, start_bind, start_options parsed, characters, bytes]
    rfl
  | @noList _ o parsed kind none =>
    simp only [Application.run, Cut.run, start_bind, start_options parsed, kind, none]
    cases o.has 'c' <;> rfl
  | badList asks unlisted =>
    have refused : Cut.list? _ = none := Option.eq_none_iff_forall_not_mem.mpr
      fun spans read => unlisted ⟨spans, list?_eq_some_iff.mp read⟩
    rw [Application.run, start_run asks, printKept, refused]
    rfl
  | many parsed many =>
    simp only [Application.run, Uniq.run, start_bind, start_options parsed, streams?_many many]
    rfl
  | countsOfAll parsed few counts all =>
    obtain ⟨output, streams⟩ := streams?_few few
    simp only [Application.run, Uniq.run, start_bind, start_options parsed, streams, counts, all]
    rfl

/-! Operands. -/

/-- All operands are read before anything else is done. -/
theorem run_reads_first (requests : Requests app args names) :
    ∃ next : List Bytes → Job Outcome, ∀ s,
      (app.run args).start s = (Job.readAllOperands names >>= next).start s := by
  cases requests with
  | @sort _ o parsed =>
    refine ⟨fun inputs => do
      let sorted := Sort.sortLines ⟨o.has 'n', o.has 'f'⟩ (inputs.flatMap Text.lines)
      Job.writeLines (if o.has 'r' then sorted.reverse else sorted)
      return .proceed, fun s => ?_⟩
    rw [Application.run, Sort.run, start_bind, start_options parsed]
  | @paste _ o parsed =>
    refine ⟨fun inputs => do
      let columns := inputs.map Text.lines
      Job.writeLines (if o.has 's' then columns.map (Text.join "\t") else Paste.rows columns)
      return .proceed, fun s => ?_⟩
    rw [Application.run, Paste.run, start_bind, start_options parsed]
  | @cut _ _ characters _ spans asks listed =>
    refine ⟨fun inputs => do
      Job.writeLines ((inputs.flatMap Text.lines).map (keep characters spans))
      return .proceed, fun s => ?_⟩
    rw [Application.run, start_run asks, printKept, list?_eq_some_iff.mpr listed]
  | @uniq _ o parsed few sensible =>
    obtain ⟨output, streams⟩ := streams?_few few
    have fine : (o.has 'c' && o.has 'D') = false := by
      rw [Bool.eq_false_iff, ne_eq, Bool.and_eq_true]
      exact sensible
    have one : Job.readAllOperands [o.operands.headD "-"] =
        (fun bs => [bs]) <$> Job.readOperand (o.operands.headD "-") := by
      simp only [Job.readAllOperands, pure_bind, map_eq_pure_bind]
    cases output with
    | none =>
      refine ⟨fun inputs => do
        Job.writeLines (Uniq.collapse (modeOf o) (o.has 'c') (Text.lines (inputs.headD [])))
        return .proceed, fun s => ?_⟩
      simp only [Application.run, Uniq.run, start_bind, start_options parsed, streams, fine,
        Bool.false_eq_true, if_false, one, start_map]
      rcases (Job.readOperand (o.operands.headD "-")).start s with _ | ⟨_ | bs, s'⟩ <;> rfl
    | some name =>
      refine ⟨fun inputs => do
        Uniq.writeFile name (Uniq.collapse (modeOf o) (o.has 'c') (Text.lines (inputs.headD [])))
        return .proceed, fun s => ?_⟩
      simp only [Application.run, Uniq.run, start_bind, start_options parsed, streams, fine,
        Bool.false_eq_true, if_false, one, start_map]
      rcases (Job.readOperand (o.operands.headD "-")).start s with _ | ⟨_ | bs, s'⟩ <;> rfl

/-- `sort`, `cut`, `paste` and `uniq` refuse arguments and leave a session as it was, or they read
operands. If one of these cannot be read, because nothing is there, or a directory, or because the
input fails, they end with the complaint about the first such operand; nothing is written, to the
output or to a file, and nothing is read but the input, if that operand or one before it is `-`. -/
theorem nothing_is_done_unless_all_is_read (app : Application) (known : String)
    (gathers : Gathers app known) (args : List String) :
    ((∃ e, Rejects app args e) ∨ ∃ names, Requests app args names) ∧
    (∀ e, Rejects app args e → ∀ s, (app.run args).start s = some (.error e, s)) ∧
    ∀ before name later, Requests app args (before ++ name :: later) →
      ∀ s e, (∀ earlier ∈ before, refusal? s earlier = none) → refusal? s name = some e →
        (app.run args).start s =
          some (.error e, { s with input := leftOver s (before ++ [name]) }) := by
  refine ⟨rejects_or_requests gathers args, fun e rejects s => start_rejected rejects s,
    fun before name later requests s e fine refused => ?_⟩
  obtain ⟨next, run⟩ := run_reads_first requests
  rw [run, start_bind, start_readAllOperands_refused fine refused]

/-- A failure of an input. -/
def lost : IoError := .described "input lost" false

/-- A session with a file and a directory, whose input fails after some bytes. -/
def failing : Session where
  disk := { entries := [(["f"], .file 0), (["d"], .dir)], contents := [Text.bytes "b\na\n"] }
  input := .stream (Text.bytes "c\n") (some lost)

/-- A directory ends `sort` before the failing input is read; that input, read to where it fails,
ends `uniq` before it empties the file that it was to write. -/
theorem sort_and_uniq_stop_before_they_write :
    ((Gathers .sort "nrf" ∧ Requests .sort ["-r", "f", "d", "-"] ["f", "d", "-"] ∧
        refusal? failing "f" = none ∧ refusal? failing "d" = some (.isDirectory "d")) ∧
      Gathers .uniq "cdD" ∧ Requests .uniq ["-", "f"] ["-"] ∧
        refusal? failing "-" = some (.io lost)) ∧
    (Application.sort.run ["-r", "f", "d", "-"]).start failing =
      some (.error (.isDirectory "d"), failing) ∧
    (Application.uniq.run ["-", "f"]).start failing =
      some (.error (.io lost), { failing with input := .stream [] (some lost) }) := by
  have sorts : Requests .sort ["-r", "f", "d", "-"] ["f", "d", "-"] :=
    .sort (o := ⟨['r'], ["f", "d", "-"]⟩) rfl
  have file : refusal? failing "f" = none := by decide +kernel
  have directory : refusal? failing "d" = some (.isDirectory "d") := by decide +kernel
  have collapses : Requests .uniq ["-", "f"] ["-"] := .uniq (o := ⟨[], ["-", "f"]⟩) rfl (by decide)
    (by decide)
  have input : refusal? failing "-" = some (.io lost) := by decide +kernel
  obtain ⟨-, -, sorted⟩ := nothing_is_done_unless_all_is_read .sort "nrf" .sort
    ["-r", "f", "d", "-"]
  obtain ⟨-, -, collapsed⟩ := nothing_is_done_unless_all_is_read .uniq "cdD" .uniq ["-", "f"]
  exact ⟨⟨⟨.sort, sorts, file, directory⟩, .uniq, collapses, input⟩,
    sorted ["f"] "d" ["-"] sorts failing _ (by simpa using file) directory,
    collapsed [] "-" [] collapses failing _ (by simp) input⟩

end LineShell.RefusedInputs
