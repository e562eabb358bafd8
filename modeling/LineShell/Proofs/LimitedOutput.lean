import LineShell.Proofs.OutletRuns

/-! An application whose output has room for a limited number of bytes only. It
runs beside the same application with an unlimited output: as long as all was
taken, the two sessions differ in nothing but what their outputs have room for,
and from the first write that does not fit on the limited run can only fail. What
the limited output has taken is then settled, because the unlimited run goes on
to write behind it. -/
namespace LineShell.LimitedOutput
open StepAgreement SessionBonds ApplicationAgreement EchoLine OutletRuns

variable {ε ε' α β : Type} [Fault ε] [Fault ε'] {n : Nat} {broken : Bool}

/-- The trouble that the failures of an output tell of. -/
def told (broken : Bool) : Option Trouble := if broken then some .gone else none

/-- No failure of the source says that a reader has gone away. -/
def Sound (input : Source) : Prop := ∀ e, input.fault = some e → e.isBrokenPipe = false

/-- The session has an unlimited output, which has taken `w`. -/
structure Open (w : Bytes) (s : Session) : Prop where
  output : s.output = .outlet { taken := w }
  input : Sound s.input

/-- The output with room for `n` bytes, after `w` has been written to it. -/
def limited (n : Nat) (broken : Bool) (w : Bytes) : Sink :=
  .outlet { taken := w.take n, room := some (n - w.length), broken }

/-- The session has an output with room for `n` bytes, to which `w` was written. -/
structure Closing (n : Nat) (broken : Bool) (w : Bytes) (t : Session) : Prop where
  output : t.output = limited n broken w
  input : Sound t.input

/-- How the run on the limited output ends if the other run ends with `result` in
`s` and has written `w`: in the same way if all of `w` fits, and else with an
error that tells of the output. -/
structure Follows (n : Nat) (broken : Bool) (w : Bytes) (result : Except ε α) (s : Session)
    (cut : Except ε α) (t : Session) : Prop where
  closing : Closing n broken w t
  whole : w.length ≤ n → cut = result ∧ t = { s with output := limited n broken w }
  short : n < w.length → ∃ e, cut = .error e ∧ Fault.trouble? e = told broken

/-- A step that only adds to what its output has taken, and that a limited output
cuts short. -/
structure Cuts (n : Nat) (broken : Bool) (act : Act ε α) : Prop where
  grows : ∀ ⦃w s result s'⦄, Open w s → act.start s = some (result, s') →
    ∃ more, Open (w ++ more) s'
  follows : ∀ ⦃w w' s result s'⦄, Open w s → w.length ≤ n →
    act.start s = some (result, s') → Open w' s' →
    ∃ cut t, act.start { s with output := limited n broken w } = some (cut, t) ∧
      Follows n broken w' result s' cut t

/-- A step that can only fail once its output has been cut short. -/
def Lost (n : Nat) (broken : Bool) (act : Act ε α) : Prop :=
  ∀ ⦃w t⦄, n < w.length → Closing n broken w t →
    ∃ e t', act.start t = some (.error e, t') ∧ Fault.trouble? e = told broken ∧
      Closing n broken w t'

theorem Open.unique {w w' : Bytes} {s : Session} (first : Open w s) (second : Open w' s) :
    w = w' := by
  have same := first.output.symm.trans second.output
  injection same with same
  exact congrArg Outlet.taken same

theorem limited_nil : limited n broken [] = .outlet { room := some n, broken } := by
  simp [limited]

/-- Nothing is added to a limited output that is full. -/
theorem limited_append {w : Bytes} (more : Bytes) (full : n ≤ w.length) :
    limited n broken (w ++ more) = limited n broken w := by
  have none : n - (w.length + more.length) = n - w.length := by omega
  simp only [limited, List.take_append_of_le_length full, List.length_append, none]

theorem Closing.append {w : Bytes} {t : Session} (more : Bytes) (full : n ≤ w.length)
    (closing : Closing n broken w t) : Closing n broken (w ++ more) t := by
  refine ⟨?_, closing.input⟩
  rw [limited_append more full]
  exact closing.output

theorem told_eq {e : IoError} (same : e.isBrokenPipe = broken) : Fault.trouble? e = told broken := by
  simp only [Fault.trouble?, told, same]

theorem isBrokenPipe_of_told {c : Complaint} (same : Fault.trouble? c = told broken) :
    c.isBrokenPipe = broken := by
  cases broken with
  | false =>
    by_contra gone
    simp [Fault.trouble?, told, gone] at same
  | true =>
    by_contra fine
    simp [Fault.trouble?, told, fine] at same

/-! Steps that write nothing. They agree in the bond of the two sessions. -/

/-- The sessions of the two runs, as long as all of `w` was taken. -/
def aside (n : Nat) (broken : Bool) (w : Bytes) : Bond where
  Rel s t := Open w s ∧ t = { s with output := limited n broken w }
  May trouble := trouble ≠ .gone

theorem not_gone {K : Bond} {e : IoError} (never : ¬ K.May .gone) (borne : K.Bears e) :
    e.isBrokenPipe = false := by
  by_contra gone
  exact never (borne .gone (by simp [Fault.trouble?, gone]))

theorem aside_look (w : Bytes) : (aside n broken w).Look where
  disk := by rintro s _ ⟨-, rfl⟩; rfl
  cwd := by rintro s _ ⟨-, rfl⟩; rfl
  input := by rintro s _ ⟨-, rfl⟩; rfl
  fault := by
    rintro s _ ⟨opened, rfl⟩ e failed
    exact bears_io fun gone => absurd gone (by simp [opened.input e failed])
  setInput := by
    rintro s _ ⟨opened, rfl⟩ input borne
    exact ⟨⟨opened.output, fun e failed => not_gone (by simp [aside]) (borne e failed)⟩, rfl⟩

theorem aside_disks (w : Bytes) : DiskFree (aside n broken w).Rel := by
  rintro s _ ⟨opened, rfl⟩ disk
  exact ⟨⟨opened.output, opened.input⟩, rfl⟩

theorem aside_cwds (w : Bytes) : CwdFree (aside n broken w).Rel := by
  rintro s _ ⟨opened, rfl⟩ cwd
  exact ⟨⟨opened.output, opened.input⟩, rfl⟩

theorem aside_journal (w : Bytes) : JournalFree (aside n broken w).Rel := by
  rintro s _ ⟨opened, rfl⟩ record
  exact ⟨⟨opened.output, opened.input⟩, rfl⟩

namespace Cuts

variable {act : Act ε α} {next : α → Act ε β}

theorem of_agrees (agrees : ∀ w, (aside n broken w).Agrees act act) : Cuts n broken act := by
  have ended ⦃w s result s'⦄ (opened : Open w s) (ran : act.start s = some (result, s')) :
      act.start { s with output := limited n broken w } =
        some (result, { s' with output := limited n broken w }) ∧ Open w s' := by
    have ends := agrees w (s := s) ⟨opened, rfl⟩
    rw [ran] at ends
    generalize act.start { s with output := limited n broken w } = right at ends
    cases ends with
    | both _ rel =>
      obtain ⟨opened', rfl⟩ := rel
      exact ⟨rfl, opened'⟩
  constructor
  · intro w s result s' opened ran
    exact ⟨[], by simpa using (ended opened ran).2⟩
  · intro w w' s result s' opened fits ran opened'
    obtain ⟨other, still⟩ := ended opened ran
    obtain rfl := still.unique opened'
    exact ⟨result, _, other, ⟨rfl, still.input⟩, fun _ => ⟨rfl, rfl⟩, fun long => by omega⟩

theorem ofExcept (result : Except ε α) : Cuts n broken (Act.ofExcept result) := by
  constructor
  · rintro w s _ _ opened ⟨⟩
    exact ⟨[], by simpa using opened⟩
  · rintro w w' s _ _ opened fits ⟨⟩ opened'
    obtain rfl := opened.unique opened'
    exact ⟨_, _, rfl, ⟨rfl, opened.input⟩, fun _ => ⟨rfl, rfl⟩, fun long => by omega⟩

theorem pure (a : α) : Cuts n broken (Pure.pure a : Act ε α) := ofExcept (.ok a)

theorem throw (e : ε) : Cuts n broken (MonadExcept.throw e : Act ε α) := ofExcept (.error e)

/-- Once the first step was cut short, what comes next is not run, and the other
run only writes behind it. -/
theorem bind_given (first : Cuts n broken act)
    (rest : ∀ a, Gives act a → Cuts n broken (next a)) : Cuts n broken (act >>= next) := by
  constructor
  · intro w s result s' opened ran
    rcases start_bind_eq_some_iff.mp ran with ⟨e, failed, -⟩ | ⟨a, s₁, ran₁, ran₂⟩
    · exact first.grows opened failed
    · obtain ⟨more, opened₁⟩ := first.grows opened ran₁
      obtain ⟨later, opened₂⟩ := (rest a ⟨s, s₁, ran₁⟩).grows opened₁ ran₂
      exact ⟨more ++ later, by simpa using opened₂⟩
  · intro w w' s result s' opened fits ran opened'
    rcases start_bind_eq_some_iff.mp ran with ⟨e, failed, rfl⟩ | ⟨a, s₁, ran₁, ran₂⟩
    · obtain ⟨cut, t, ran', follows⟩ := first.follows opened fits failed opened'
      rw [start_bind, ran']
      by_cases long : n < w'.length
      · obtain ⟨e', rfl, same⟩ := follows.short long
        exact ⟨_, t, rfl, follows.closing, fun fits' => by omega, fun _ => ⟨e', rfl, same⟩⟩
      · obtain ⟨rfl, rfl⟩ := follows.whole (by omega)
        exact ⟨_, _, rfl, follows.closing, fun _ => ⟨rfl, rfl⟩, fun long' => absurd long' long⟩
    · obtain ⟨more, opened₁⟩ := first.grows opened ran₁
      obtain ⟨cut, t, ran', follows⟩ := first.follows opened fits ran₁ opened₁
      have next := rest a ⟨s, s₁, ran₁⟩
      rw [start_bind, ran']
      by_cases long : n < (w ++ more).length
      · obtain ⟨e, rfl, same⟩ := follows.short long
        obtain ⟨later, opened₂⟩ := next.grows opened₁ ran₂
        obtain rfl := opened₂.unique opened'
        refine ⟨_, t, rfl, follows.closing.append later (by omega), fun fits' => ?_,
          fun _ => ⟨e, rfl, same⟩⟩
        rw [List.length_append] at fits'
        omega
      · obtain ⟨rfl, rfl⟩ := follows.whole (by omega)
        exact next.follows opened₁ (by omega) ran₂ opened'

theorem bind (first : Cuts n broken act) (rest : ∀ a, Cuts n broken (next a)) :
    Cuts n broken (act >>= next) :=
  bind_given first fun a _ => rest a

theorem ite {c : Prop} [Decidable c] {other : Act ε α} (yes : Cuts n broken act)
    (no : Cuts n broken other) : Cuts n broken (if c then act else other) := by
  split
  · exact yes
  · exact no

/-- A step that may stop with an error before it goes on. -/
theorem guard {γ : Type} {c : Prop} [Decidable c] {e : ε} {k : γ → Act ε α}
    (goesOn : Cuts n broken act) :
    Cuts n broken (if c then (MonadExcept.throw e : Act ε γ) >>= k else act) :=
  ite (ofExcept (.error e)) goesOn

/-- A look at the whole session is allowed to a step that goes by the disk and
the directory alone. -/
theorem view_session {k : Session → Act ε β}
    (blind : ∀ s, k s = k { disk := s.disk, cwd := s.cwd }) (rest : ∀ s, Cuts n broken (k s)) :
    Cuts n broken (Act.view (fun s => s) >>= k) := by
  have same : Act.view (fun s => s) >>= k =
      Act.view (fun s => ({ disk := s.disk, cwd := s.cwd } : Session)) >>= k := by
    funext s
    change (k s).start s = (k { disk := s.disk, cwd := s.cwd }).start s
    rw [← blind s]
  rw [same]
  refine bind (of_agrees fun w => .view fun s t rel => ?_) rest
  rw [(aside_look w).disk rel, (aside_look w).cwd rel]

theorem mapError {f : ε → ε'} (sameTrouble : ∀ e, Fault.trouble? (f e) = Fault.trouble? e)
    (cuts : Cuts n broken act) : Cuts n broken (Act.mapError f act) := by
  constructor
  · intro w s result s' opened ran
    rw [start_mapError, Option.map_eq_some_iff] at ran
    obtain ⟨⟨result, s'⟩, ran, ended⟩ := ran
    cases ended
    exact cuts.grows opened ran
  · intro w w' s result s' opened fits ran opened'
    rw [start_mapError, Option.map_eq_some_iff] at ran
    obtain ⟨⟨result, s'⟩, ran, ended⟩ := ran
    cases ended
    obtain ⟨cut, t, ran', follows⟩ := cuts.follows opened fits ran opened'
    rw [start_mapError, ran']
    refine ⟨_, t, rfl, follows.closing, fun fits' => ?_, fun long => ?_⟩
    · obtain ⟨rfl, rfl⟩ := follows.whole fits'
      exact ⟨rfl, rfl⟩
    · obtain ⟨e, rfl, same⟩ := follows.short long
      exact ⟨f e, rfl, (sameTrouble e).trans same⟩

theorem withInput {input : Source} (sound : Sound input) (cuts : Cuts n broken act) :
    Cuts n broken (Act.withInput input act) := by
  have entered ⦃w s⦄ (opened : Open w s) : Open w { s with input } := ⟨opened.output, sound⟩
  constructor
  · intro w s result s' opened ran
    rw [start_withInput, Option.map_eq_some_iff] at ran
    obtain ⟨⟨result, s'⟩, ran, ended⟩ := ran
    cases ended
    obtain ⟨more, opened'⟩ := cuts.grows (entered opened) ran
    exact ⟨more, opened'.output, opened.input⟩
  · intro w w' s result s' opened fits ran opened'
    rw [start_withInput, Option.map_eq_some_iff] at ran
    obtain ⟨⟨result, s'⟩, ran, ended⟩ := ran
    cases ended
    obtain ⟨more, grown⟩ := cuts.grows (entered opened) ran
    obtain rfl : w ++ more = w' := Open.unique (s := { s' with input := s.input })
      ⟨grown.output, opened.input⟩ opened'
    obtain ⟨cut, t, ran', follows⟩ := cuts.follows (entered opened) fits ran grown
    rw [start_withInput]
    change ∃ cut' t', (act.start { s with input, output := limited n broken w }).map _ = _ ∧ _
    rw [ran']
    refine ⟨cut, _, rfl, ⟨follows.closing.output, opened.input⟩, fun fits' => ?_, follows.short⟩
    obtain ⟨rfl, rfl⟩ := follows.whole fits'
    exact ⟨rfl, rfl⟩

end Cuts

omit [Fault ε] [Fault ε'] in
theorem start_attempt_bind {act : Act ε α} {k : Except ε α → Act ε' β} (s : Session) :
    (Act.attempt act >>= k).start s = (act.start s).bind fun end' => (k end'.1).start end'.2 := by
  rw [start_bind, start_attempt]
  rcases act.start s with _ | ⟨_, _⟩ <;> rfl

/-- A step whose error is taken as a value: where it was cut short, what comes
next can only fail. -/
theorem Cuts.attempt_bind {act : Act ε α} {k : Except ε α → Act ε' β} (first : Cuts n broken act)
    (rest : ∀ result, Cuts n broken (k result))
    (lost : ∀ e, Fault.trouble? e = told broken → Lost n broken (k (.error e))) :
    Cuts n broken (Act.attempt act >>= k) := by
  constructor
  · intro w s result s' opened ran
    rw [start_attempt_bind, Option.bind_eq_some_iff] at ran
    obtain ⟨⟨result₁, s₁⟩, ran₁, ran₂⟩ := ran
    obtain ⟨more, opened₁⟩ := first.grows opened ran₁
    obtain ⟨later, opened₂⟩ := (rest result₁).grows opened₁ ran₂
    exact ⟨more ++ later, by simpa using opened₂⟩
  · intro w w' s result s' opened fits ran opened'
    rw [start_attempt_bind, Option.bind_eq_some_iff] at ran
    obtain ⟨⟨result₁, s₁⟩, ran₁, ran₂⟩ := ran
    obtain ⟨more, opened₁⟩ := first.grows opened ran₁
    obtain ⟨cut, t, ran', follows⟩ := first.follows opened fits ran₁ opened₁
    rw [start_attempt_bind, ran', Option.bind_some]
    by_cases long : n < (w ++ more).length
    · obtain ⟨e, rfl, same⟩ := follows.short long
      obtain ⟨later, opened₂⟩ := (rest result₁).grows opened₁ ran₂
      obtain rfl := opened₂.unique opened'
      obtain ⟨e', t', failed, same', closing⟩ := lost e same long follows.closing
      refine ⟨_, t', failed, closing.append later (by omega), fun fits' => ?_,
        fun _ => ⟨e', rfl, same'⟩⟩
      rw [List.length_append] at fits'
      omega
    · obtain ⟨rfl, rfl⟩ := follows.whole (by omega)
      exact (rest cut).follows opened₁ (by omega) ran₂ opened'

/-! What applications are built from. -/

/-- The first write that does not fit is the one that fails. -/
theorem write_cuts (bs : Bytes) : Cuts n broken (Act.write bs) := by
  constructor
  · intro w s result s' opened ran
    rw [start_write opened.output] at ran
    cases ran
    exact ⟨bs, rfl, opened.input⟩
  · intro w w' s result s' opened fits ran opened'
    rw [start_write opened.output] at ran
    cases ran
    obtain rfl : w ++ bs = w' := by
      have same := opened'.output
      injection same with same
      exact congrArg Outlet.taken same
    have taken : w.take n ++ bs.take (n - w.length) = (w ++ bs).take n := by
      rw [List.take_append]
    have room : n - w.length - (bs.take (n - w.length)).length = n - (w ++ bs).length := by
      simp only [List.length_take, List.length_append]
      omega
    rw [start_write (p := { taken := w.take n, room := some (n - w.length), broken }) rfl]
    simp only [Outlet.write, taken, room]
    refine ⟨_, _, rfl, ⟨rfl, opened.input⟩, fun fits' => ?_, fun long => ?_⟩
    · rw [List.length_append] at fits'
      rw [if_pos (by omega)]
      exact ⟨rfl, rfl⟩
    · rw [List.length_append] at long
      rw [if_neg (by omega)]
      exact ⟨_, rfl, told_eq rfl⟩

theorem flush_cuts : Cuts n broken Act.flush := by
  refine .of_agrees fun w => ?_
  rintro s _ ⟨opened, rfl⟩
  rw [start_flush, start_flush, opened.output]
  exact .both (admits_ok ()) ⟨opened, rfl⟩

theorem ofIo_cuts {act : Act IoError α} (cuts : Cuts n broken act) : Cuts n broken (Job.ofIo act) :=
  .mapError (fun _ => rfl) cuts

theorem options_cuts (legal : String) (args : List String) :
    Cuts n broken (Job.options legal args) := .ofExcept _

theorem readOperand_cuts (name : String) : Cuts n broken (Job.readOperand name) :=
  .of_agrees fun w => readOperand_agrees (look_offers (aside_look w)) fun _ => trivial

theorem readAllOperands_cuts (names : List String) : Cuts n broken (Job.readAllOperands names) :=
  .of_agrees fun w => readAllOperands_agrees (look_offers (aside_look w)) fun _ _ _ => trivial

theorem tryOperands_cuts (names : List String) : Cuts n broken (Job.tryOperands names) := by
  refine .of_agrees fun w => ?_
  have look : (aside n broken w).Look := aside_look w
  have agrees := tryOperands_agrees (look_offers look) (k := pure)
    (fun (name : String) (_ : name ∈ names) _ => trivial) fun readings _ => .pure readings
  rwa [bind_pure] at agrees

theorem write_lines_cuts (ls : List String) : Cuts n broken (Job.writeLines ls) :=
  .bind (ofIo_cuts (write_cuts _)) fun _ => ofIo_cuts flush_cuts

theorem settle_cuts (complaint : Option Complaint) : Cuts n broken (Job.settle complaint) := by
  cases complaint with
  | none => exact .pure _
  | some c => exact .throw c

section Pump

variable {step : α → Bytes → Act IoError α} (Fine : α → Prop)
  (each : ∀ state bs, Fine state → Cuts n broken (step state bs))
  (keeps : ∀ state bs state', Fine state → Gives (step state bs) state' → Fine state')

include each keeps

/-- A pump is cut short where its step is. -/
theorem pump_cuts (rounds : Nat) {state : α} (fine : Fine state) :
    Cuts n broken (Job.pump step rounds state) := by
  induction rounds generalizing state with
  | zero =>
    constructor
    · intro w s result s' _ ran
      cases ran
    · intro w w' s result s' _ _ ran
      cases ran
  | succ rounds ih =>
    refine .bind (.of_agrees fun w => .read (aside_look w).feeds _) fun bs => .ite (.pure _) ?_
    exact .bind_given (each state bs fine) fun state' given => ih (keeps state bs state' fine given)

theorem pumpAll_cuts {state : α} (fine : Fine state) : Cuts n broken (Job.pumpAll step state) where
  grows := by
    intro w s result s' opened ran
    exact (pump_cuts Fine each keeps _ fine).grows opened ran
  follows := by
    intro w w' s result s' opened fits ran opened'
    have enough : s.output.room?.getD 0 ≤ (limited n broken w).room?.getD 0 := by
      rw [opened.output]
      exact Nat.zero_le _
    obtain ⟨cut, t, ran', follows⟩ :=
      (pump_cuts Fine each keeps _ fine).follows opened fits ran opened'
    refine ⟨cut, t, ?_, follows⟩
    rw [start_pumpAll]
    exact pump_more (Nat.succ_le_succ (Nat.add_le_add_left enough _)) ran'

end Pump

/-! `cat` goes on with its other operands when one was cut short, unless nobody
reads any more. It then runs on a full output and keeps the first complaint. -/

/-- The session of a run on its own, whose output is full. -/
def full (n : Nat) (w : Bytes) : Bond where
  Rel s t := s = t ∧ Closing n false w s
  May _ := False

theorem full_like {w : Bytes} (long : n < w.length) : (full n w).Like where
  disk := by rintro s _ ⟨rfl, -⟩; rfl
  cwd := by rintro s _ ⟨rfl, -⟩; rfl
  input := by rintro s _ ⟨rfl, -⟩; rfl
  fault := by
    rintro s _ ⟨rfl, closing⟩ e failed
    exact bears_io fun gone => absurd gone (by simp [closing.input e failed])
  setInput := by
    rintro s _ ⟨rfl, closing⟩ input borne
    exact ⟨rfl, closing.output, fun e failed => not_gone (by simp [full]) (borne e failed)⟩
  write := by
    rintro bs s _ ⟨rfl, closing⟩
    have room : n - w.length = 0 := by omega
    have still : ({ s with output := limited n false w } : Session) = s := by
      rw [← closing.output]
    have output := closing.output
    rw [limited, room] at output
    rw [start_write output]
    simp only [Outlet.write, List.take_zero, List.append_nil, List.length_nil, Nat.sub_zero]
    rw [← room, ← limited, still]
    split
    · exact .both (admits_ok ()) ⟨rfl, closing⟩
    · exact .both (admits_error (bears_io fun gone => Bool.noConfusion gone)) ⟨rfl, closing⟩
  flush := by
    rintro s _ ⟨rfl, closing⟩
    rw [start_flush, closing.output]
    exact .both (admits_ok ()) ⟨rfl, closing⟩
  unfed := .inr fun s _ rel => ⟨_, rel.2.output⟩

theorem lost_of_agrees {act : Act ε α}
    (agrees : ∀ w, n < w.length → (full n w).Agrees act act) (never : ∀ a, ¬ Gives act a) :
    Lost n false act := by
  intro w t long closing
  have ends := agrees w long (s := t) ⟨rfl, closing⟩
  generalize ran : act.start t = ended at ends
  cases ends with
  | never may => exact may.elim
  | @both result t' _ admitted rel =>
    obtain ⟨-, closing'⟩ := rel
    cases result with
    | ok a => exact (never a ⟨t, t', ran⟩).elim
    | error e =>
      have calm : Fault.trouble? e = none := by
        by_contra trouble
        obtain ⟨trouble, met⟩ := Option.ne_none_iff_exists'.mp trouble
        exact admitted e rfl trouble met
      exact ⟨e, t', rfl, calm, closing'⟩

/-- The end of `cat`, for a complaint that follows from what the operands gave. -/
def ending (keep : Option Complaint → Option Complaint) (complaint : Option Complaint) :
    Job Outcome := do
  Job.flush
  Job.settle (keep complaint)

theorem ending_lost {names : List String} {step : Nat → String → Job Nat} {c : Complaint}
    (each : ∀ w, n < w.length → ∀ last name, (full n w).Agrees (step last name) (step last name))
    (calm : Fault.trouble? c = none) (last : Nat) :
    Lost n false (Cat.emitAll step last names >>= ending fun _ => some c) := by
  refine lost_of_agrees (fun w long => ?_) fun outcome given => ?_
  · refine emitAll_agrees (fun last name _ => each w long last name) last fun _ _ =>
      .bind (flush_agrees (like_serves (full_like long))) fun _ => settle_agrees ?_
    rintro _ ⟨⟩
    exact bears_of_calm calm
  · obtain ⟨_, -, given⟩ := gives_bind given
    obtain ⟨_, -, given⟩ := gives_bind given
    exact not_gives_throw given

/-- Going through the operands: whichever of them is cut short, the run ends with
the first complaint, or at once if nobody reads any more. -/
theorem emitAll_cuts {step : Nat → String → Job Nat}
    (each : ∀ last name, Cuts n broken (step last name))
    (onFull : ∀ w, n < w.length → ∀ last name,
      (full n w).Agrees (step last name) (step last name))
    (last : Nat) (names : List String) (keep : Option Complaint → Option Complaint)
    (keeps : ∀ c, Fault.trouble? c = none →
      ∃ c', keep (some c) = some c' ∧ Fault.trouble? c' = none) :
    Cuts n broken (Cat.emitAll step last names >>= ending keep) := by
  induction names generalizing last keep with
  | nil => exact .bind (.pure _) fun _ => .bind (ofIo_cuts flush_cuts) fun _ => settle_cuts _
  | cons name names ih =>
    have calm {c : Complaint} (fine : ¬ c.isBrokenPipe = true) : Fault.trouble? c = none := by
      simp [Fault.trouble?, fine]
    simp only [Cat.emitAll, bind_assoc]
    refine .attempt_bind (each last name) (fun result => ?_) fun c same => ?_
    · cases result with
      | ok last => exact ih last keep keeps
      | error c =>
        dsimp only
        split
        · exact .ofExcept (.error c)
        · rename_i fine
          simp only [bind_assoc, pure_bind]
          exact ih last (fun _ => keep (some c)) fun _ _ => keeps c (calm fine)
    · dsimp only
      cases broken with
      | true =>
        rw [if_pos (isBrokenPipe_of_told same)]
        intro w t _ closing
        exact ⟨c, t, rfl, same, closing⟩
      | false =>
        have fine : ¬ c.isBrokenPipe = true := by simp [isBrokenPipe_of_told same]
        obtain ⟨c', kept, calm'⟩ := keeps c (calm fine)
        rw [if_neg fine]
        simp only [bind_assoc, pure_bind, ending, kept]
        exact ending_lost onFull calm' last

theorem copyOperand_cuts (name : String) : Cuts n broken (Cat.copyOperand name) := by
  have copy : Cuts n broken Cat.copy := ofIo_cuts
    (pumpAll_cuts (fun _ => True) (fun _ bs _ => write_cuts bs) (fun _ _ _ _ _ => trivial) trivial)
  refine .ite copy (.bind (.of_agrees fun w => openOperand_agrees (aside_look w) name) fun id => ?_)
  exact .withInput nofun copy

theorem cat_cuts (args : List String) : Cuts n broken (Cat.run args) := by
  refine .bind (options_cuts _ _) fun o => emitAll_cuts (fun last name => ?_)
    (fun w long last name => ?_) 0 _ id fun c calm => ⟨c, rfl, calm⟩
  · split
    · exact .bind (readOperand_cuts name) fun _ => .bind (ofIo_cuts (write_cuts _)) fun _ => .pure _
    · exact .bind (copyOperand_cuts name) fun _ => .pure last
  · split
    · exact numberOperand_agrees (like_serves (full_like long)) last fun _ => trivial
    · exact .bind (copyOperand_agrees (like_serves (full_like long)) fun _ => trivial) fun _ =>
        .pure last

theorem spread_cuts {sinks : List Sink} (bs : Bytes) (files : ∀ sink ∈ sinks, IsFile sink) :
    Cuts n broken (Tee.spread sinks bs) :=
  .bind (write_cuts bs) fun _ =>
    .of_agrees fun w => writeEach_agrees (aside_look w) (aside_disks w) bs sinks files

theorem tee_cuts (args : List String) : Cuts n broken (Tee.run args) := by
  have targets (keep : Bool) (names : List String) :
      Cuts n broken (Job.forEach (Tee.openTarget keep) names) := by
    refine .of_agrees fun w => ?_
    have agrees := forEach_agrees (k := pure) (openTarget_agrees (aside_look w) (aside_disks w) keep)
      names fun results _ _ => .pure (K := aside n broken w) results
    rwa [bind_pure] at agrees
  refine .bind (options_cuts _ _) fun o => .bind_given (targets _ _) fun results given =>
    .bind (ofIo_cuts ?_) fun _ => .bind (ofIo_cuts flush_cuts) fun _ => settle_cuts _
  exact pumpAll_cuts (fun sinks => ∀ sink ∈ sinks, IsFile sink)
    (fun sinks bs files => spread_cuts bs files) (fun _ _ _ => spread_isFile)
    (opened_isFile (forEach_given given))

/-- A limited output cuts what an application writes, whichever it is. -/
theorem run_cuts (app : Application) (args : List String) : Cuts n broken (app.run args) := by
  have lines (ls : List String) :
      Cuts n broken (do Job.writeLines ls; return Outcome.proceed : Job Outcome) :=
    .bind (write_lines_cuts ls) fun _ => .pure _
  cases app with
  | cat => exact cat_cuts args
  | cd => exact .of_agrees fun w => cd_agrees (aside_look w) (aside_journal w) (aside_cwds w) args
  | cp => exact .of_agrees fun w => cp_agrees (aside_look w) (aside_disks w) args
  | cut =>
    refine .bind (options_cuts _ _) fun o => .guard (.guard ?_)
    split
    · exact .throw _
    · split
      · exact .throw _
      · exact .bind (readAllOperands_cuts _) fun _ => lines _
  | echo => exact lines _
  | exit => exact .pure _
  | grep =>
    refine .bind (options_cuts _ _) fun o => ?_
    split
    · exact .throw _
    · split
      · exact .bind (tryOperands_cuts _) fun _ => .bind (write_lines_cuts _) fun _ => settle_cuts _
      · exact .throw _
  | ls =>
    refine .bind (options_cuts _ _) fun o => .view_session (fun _ => rfl) fun s => ?_
    dsimp only
    split
    · exact .throw _
    · exact .bind (ofIo_cuts (write_cuts _)) fun _ => .pure _
  | mv => exact .of_agrees fun w => mv_agrees (aside_look w) (aside_disks w) args
  | paste | sort =>
    exact .bind (options_cuts _ _) fun o => .bind (readAllOperands_cuts _) fun _ => lines _
  | rm => exact .of_agrees fun w => rm_agrees (aside_look w) (aside_disks w) args
  | tee => exact tee_cuts args
  | uniq =>
    refine .bind (options_cuts _ _) fun o => ?_
    split
    · exact .throw _
    · rename_i input output _
      refine .guard (.bind (readOperand_cuts input) fun bs => ?_)
      cases output with
      | none => exact lines _
      | some name =>
        exact .bind (.of_agrees fun w => writeFile_agrees (aside_look w) (aside_disks w) name _)
          fun _ => .pure _
  | wc =>
    refine .bind (options_cuts _ _) fun o => .ite ?_ ?_
    · exact .bind (readOperand_cuts _) fun _ => lines _
    · exact .bind (tryOperands_cuts _) fun _ => .bind (write_lines_cuts _) fun _ => settle_cuts _

/-- An output with room for `n` bytes takes exactly the first `n` bytes of what an
application writes to an unlimited one. If that is all, nothing else is
different; if not, the application fails, and it tells of a reader that has gone
away exactly when the output does. -/
theorem limited_output_cuts_and_is_reported (app : Application) (args : List String) (s : Session)
    (n : Nat) (broken : Bool) (sound : ∀ e, s.input.fault = some e → e.isBrokenPipe = false) :
    ((app = .tee → ∃ rest fault, s.input = .stream rest fault) →
        ((app.run args).start { s with output := .unlimited }).isSome) ∧
      ∀ result s', (app.run args).start { s with output := .unlimited } = some (result, s') →
        ∃ cut t, (app.run args).start { s with output := .outlet { room := some n, broken } } =
            some (cut, t) ∧
          t.output.taken = s'.output.taken.take n ∧
          (s'.output.taken.length ≤ n → cut = result ∧ t = { s' with output := t.output }) ∧
          (n < s'.output.taken.length → ∃ c, cut = .error c ∧ c.isBrokenPipe = broken) := by
  constructor
  · intro apart
    obtain ⟨result, s', ran⟩ := run_ends (s := { s with output := .unlimited }) args ⟨_, rfl⟩ apart
    rw [ran]
    rfl
  · intro result s' ran
    have opened : Open [] { s with output := .unlimited } := ⟨rfl, sound⟩
    have cuts : Cuts n broken (app.run args) := run_cuts app args
    obtain ⟨w, opened'⟩ := cuts.grows opened ran
    obtain ⟨cut, t, ran', follows⟩ := cuts.follows opened (Nat.zero_le n) ran opened'
    rw [limited_nil] at ran'
    have taken : s'.output.taken = w := by rw [opened'.output]; rfl
    have output := follows.closing.output
    refine ⟨cut, t, ran', ?_, fun fits => ?_, fun long => ?_⟩
    · rw [taken, output]
      rfl
    · obtain ⟨same, rfl⟩ := follows.whole (by simpa [taken] using fits)
      exact ⟨same, rfl⟩
    · obtain ⟨c, failed, same⟩ := follows.short (by simpa [taken] using long)
      exact ⟨c, failed, isBrokenPipe_of_told same⟩

/-- `cat missing -` complains of the missing file after it has copied its input.
On an output with room for three bytes whose reader goes away it copies three
bytes and tells of the reader instead. -/
theorem cat_cut_after_missing_file :
    ∃ s' c t,
      (Application.run .cat ["missing", "-"]).start { input := .stream [97, 98, 99, 100] none } =
        some (.error (.noSuchFile "missing"), s') ∧
      s'.output.taken = [97, 98, 99, 100] ∧
      (Application.run .cat ["missing", "-"]).start
          { input := .stream [97, 98, 99, 100] none,
            output := .outlet { room := some 3, broken := true } } = some (.error c, t) ∧
      t.output.taken = [97, 98, 99] ∧ c.isBrokenPipe = true := by
  let s : Session := { input := .stream [97, 98, 99, 100] none }
  have ran : (Application.run .cat ["missing", "-"]).start { s with output := .unlimited } =
      some (.error (.noSuchFile "missing"),
        { s with input := .empty, output := .outlet { taken := [97, 98, 99, 100] } }) := by rfl
  obtain ⟨cut, t, ran', taken, -, short⟩ :=
    (limited_output_cuts_and_is_reported .cat ["missing", "-"] s 3 true nofun).2 _ _ ran
  obtain ⟨c, rfl, gone⟩ := short (by decide)
  exact ⟨_, c, t, ran, rfl, ran', taken, gone⟩

end LineShell.LimitedOutput
