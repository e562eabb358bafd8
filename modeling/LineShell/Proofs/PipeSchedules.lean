import LineShell.Proofs.ExitOutcome
import LineShell.Proofs.PipeHistory
import LineShell.Proofs.PipeIntoCat

/-! What the stages of a pipe write does not depend on how they are scheduled. After
every run to completion the session's output is what it is after the stages have run
one after the other, each on all that the one before has written. A stage that stops
early may cost the one before it some writes, but nobody would have read them. If every
stage reads its input to the end no write is refused, and all stages come to the same
as well. -/
namespace LineShell.PipeSchedules
open PipeMachine SoloRuns PipeHistory ExitOutcome PipeIntoCat
open StepAgreement SessionBonds ApplicationAgreement

variable {σ : Type} {next : σ → Move σ} {d : Disk} {capacity : Nat → Nat}
variable {starts : List σ} {source : Source} {outlet : Outlet} {m : Machine σ} {past : Nat → Past σ}

/-- A stage that was never refused has come to stop in its past. -/
theorem stops_of_unrefused {i : Nat} {start : σ} {stage : Stage σ} (finished : m.Finished)
    (found : m.stages[i]? = some stage)
    (chapter : Chapter next d source outlet starts.length m past i start stage)
    (unrefused : (past i).refused = false) :
    ∃ result, stage.result = some result ∧ next (past i).state = .stop result := by
  cases came : stage.result with
  | none => exact absurd ⟨stage, found, came⟩ (finished i)
  | some result => exact ⟨result, rfl, chapter.tells.result result came unrefused⟩

/-- What a stage has read is the beginning of what the one before has written. -/
theorem begins_written {i : Nat} {start : σ} {stage : Stage σ}
    (after : Chapter next d source outlet starts.length m past (i + 1) start stage) :
    Begins d (past (i + 1)) (faultAt source (i + 1)) (.stream (past i).outlet.taken none) := by
  have written : (past i).outlet.taken = (past (i + 1)).seen ++ m.held i := by rw [after.drawn]
  refine ⟨(past (i + 1)).lost ++ m.held i, ?_, fun saw => ⟨?_, rfl⟩⟩
  · rw [Source.held, written, Past.seen, List.append_assoc]
  · obtain ⟨saw', lost⟩ := after.tells.ended saw
    obtain ⟨-, -, empty⟩ := after.drained saw'
    rw [lost, empty]
    rfl

/-- It is also the beginning of all that the one before writes alone. -/
theorem begins_after {i : Nat} {start start' : σ} {stage stage' : Stage σ} {source' : Source} {result}
    {passed : Outlet} (steady : Steady next d start) (finished : m.Finished)
    (found : m.stages[i]? = some stage) (within : i + 1 < starts.length)
    (chapter : Chapter next d source outlet starts.length m past i start stage)
    (after : Chapter next d source outlet starts.length m past (i + 1) start' stage')
    (began : Begins d (past i) (faultAt source i) source')
    (ends : Ends next d { state := start, source := source', outlet := {} } result passed) :
    Begins d (past (i + 1)) (faultAt source (i + 1)) (.stream passed.taken none) := by
  have relived := chapter.inner within
  obtain ⟨unread, passed_eq⟩ := relived.taken steady began ends
  obtain ⟨more, written, ended⟩ := begins_written after
  refine ⟨more ++ unread, ?_, fun saw => ⟨?_, rfl⟩⟩
  · rw [Source.held] at written ⊢
    rw [← passed_eq, written, List.append_assoc]
  · -- the end was seen, so the stage before had stopped without being refused
    have unrefused := (after.drained (after.tells.ended saw).1).2.1
    obtain ⟨_, -, stops⟩ := stops_of_unrefused finished found chapter unrefused
    obtain ⟨-, same⟩ := relived.ended steady began stops ends
    rw [same] at passed_eq
    have read_all : unread = [] := by simpa using passed_eq
    rw [(ended saw).1, read_all]
    rfl

/-- The stage at a place, and the stages after it. -/
theorem stage_at {i : Nat} {start : σ} {rest : List σ} (story : Story next d starts source outlet m past)
    (place : starts.drop i = start :: rest) :
    ∃ stage, starts[i]? = some start ∧ starts.drop (i + 1) = rest ∧
      i + 1 + rest.length = starts.length ∧ m.stages[i]? = some stage ∧
      m.stages.drop i = stage :: m.stages.drop (i + 1) := by
  have begins : starts[i]? = some start := by rw [← List.head?_drop, place, List.head?_cons]
  have within : i < starts.length := (List.getElem?_eq_some_iff.mp begins).1
  have size : i + 1 + rest.length = starts.length := by
    have lengths := congrArg List.length place
    rw [List.length_drop, List.length_cons] at lengths
    omega
  have there : i < m.stages.length := by rw [story.wired.length]; exact within
  refine ⟨m.stages.get ⟨i, there⟩, begins, ?_, size, List.getElem?_eq_getElem there,
    List.drop_eq_getElem_cons there⟩
  rw [← List.tail_drop, place, List.tail_cons]

/-- Where stages from some place on can run one after the other, on an input that begins
with what the first of them has read, they have written the same. Those that were never
refused have come to the same, too. -/
theorem output_of_sequence {rest : List σ} {source' : Source} {results} {out : Outlet}
    (steady : ∀ start ∈ starts, Steady next d start)
    (story : Story next d starts source outlet m past) (finished : m.Finished)
    (sequence : OneAfterAnother next d rest source' outlet results out) (some : rest ≠ []) (i : Nat)
    (place : starts.drop i = rest) (began : Begins d (past i) (faultAt source i) source') :
    m.outlet = out ∧ ((∀ j < starts.length, (past j).refused = false) →
      (m.stages.drop i).filterMap (·.result) = results) := by
  induction sequence generalizing i with
  | none => exact absurd rfl some
  | @last start source' outlet result out ends =>
    obtain ⟨stage, begins, -, size, found, stages⟩ := stage_at story place
    have chapter := story.chapter i start stage begins found
    have last : ¬ i + 1 < starts.length := by
      rw [List.length_nil] at size
      omega
    obtain ⟨relived, sent, unrefused⟩ := chapter.last last
    obtain ⟨result', came, stops⟩ := stops_of_unrefused finished found chapter unrefused
    obtain ⟨rfl, same⟩ := relived.ended (steady start (List.mem_of_getElem? begins)) began stops ends
    refine ⟨by rw [same, sent], fun _ => ?_⟩
    have beyond : m.stages.drop (i + 1) = [] := by
      rw [List.drop_eq_nil_iff, story.wired.length]
      omega
    rw [stages, List.filterMap_cons, came, beyond]
    rfl
  | @cons start second rest source' outlet result passed results out ends later ih =>
    obtain ⟨stage, begins, place', size, found, stages⟩ := stage_at story place
    obtain ⟨stage', begins', -, -, found', -⟩ := stage_at story place'
    have within : i + 1 < starts.length := by
      rw [List.length_cons] at size
      omega
    have steady_here := steady start (List.mem_of_getElem? begins)
    have chapter := story.chapter i start stage begins found
    have after := story.chapter (i + 1) second stage' begins' found'
    have began' := begins_after steady_here finished found within chapter after began ends
    obtain ⟨same, later_results⟩ := ih story (by simp) (i + 1) place' began'
    refine ⟨same, fun unrefused => ?_⟩
    obtain ⟨result', came, stops⟩ :=
      stops_of_unrefused finished found chapter (unrefused i (by omega))
    obtain ⟨rfl, -⟩ := (chapter.inner within).ended steady_here began stops ends
    rw [stages, List.filterMap_cons, came, later_results unrefused]

/-- Stages that were never refused have run as they do one after the other. -/
theorem sequence_of_unrefused {start : σ} {rest : List σ} {source' : Source}
    (story : Story next d starts source outlet m past) (finished : m.Finished)
    (unrefused : ∀ j < starts.length, (past j).refused = false) (i : Nat)
    (place : starts.drop i = start :: rest) (began : Begins d (past i) (faultAt source i) source') :
    OneAfterAnother next d (start :: rest) source' outlet ((m.stages.drop i).filterMap (·.result))
      m.outlet := by
  induction rest generalizing i start source' with
  | nil =>
    obtain ⟨stage, begins, -, size, found, stages⟩ := stage_at story place
    have chapter := story.chapter i start stage begins found
    have last : ¬ i + 1 < starts.length := by
      rw [List.length_nil] at size
      omega
    obtain ⟨relived, sent, unrefused_here⟩ := chapter.last last
    obtain ⟨result, came, stops⟩ := stops_of_unrefused finished found chapter unrefused_here
    have beyond : m.stages.drop (i + 1) = [] := by
      rw [List.drop_eq_nil_iff, story.wired.length]
      omega
    rw [stages, List.filterMap_cons, came, beyond, ← sent]
    exact .last (relived.ends began stops)
  | cons second rest ih =>
    obtain ⟨stage, begins, place', size, found, stages⟩ := stage_at story place
    obtain ⟨stage', begins', -, -, found', -⟩ := stage_at story place'
    have chapter := story.chapter i start stage begins found
    obtain ⟨result, came, stops⟩ := stops_of_unrefused finished found chapter (unrefused i (by omega))
    have within : i + 1 < starts.length := by
      rw [List.length_cons] at size
      omega
    have later := ih (i + 1) place'
      (begins_written (story.chapter (i + 1) second stage' begins' found'))
    rw [stages, List.filterMap_cons, came]
    exact .cons ((chapter.inner within).ends began stops) later

/-- A stage whose successor has seen the end of its input was never refused. -/
theorem unrefused_of_sawEnd {i : Nat} (story : Story next d starts source outlet m past)
    (within : i < starts.length)
    (saw : ∀ stage, m.stages[i + 1]? = some stage → stage.sawEnd = true) :
    (past i).refused = false := by
  by_contra was
  obtain ⟨_, _, -, -, chapter⟩ := story.chapterAt within
  obtain ⟨_, stage', -, found', after⟩ := story.chapterAt (chapter.refused (by simpa using was)).1
  exact was (after.drained (saw stage' found')).2.1

/-- No stage is refused anything if all stages after the first are thorough. The last
one has seen the end of its input, so the one before was not refused and has seen the
end as well, and so on to the first. -/
theorem unrefused_of_thorough (story : Story next d starts source outlet m past) (finished : m.Finished)
    (thorough : ∀ start ∈ starts.tail, Thorough next d start) (after i : Nat)
    (bound : starts.length ≤ i + after) (within : i < starts.length) : (past i).refused = false := by
  induction after generalizing i with
  | zero => omega
  | succ after ih =>
    refine unrefused_of_sawEnd story within fun stage found => ?_
    have within' : i + 1 < starts.length := by
      rw [← story.wired.length]
      exact (List.getElem?_eq_some_iff.mp found).1
    have begins := List.getElem?_eq_getElem within'
    have chapter := story.chapter (i + 1) _ stage begins found
    have unrefused := ih (i + 1) (by omega) within'
    obtain ⟨result, -, stops⟩ := stops_of_unrefused finished found chapter unrefused
    have began : Begins d (past (i + 1)) (faultAt source (i + 1)) (.stream (past (i + 1)).read none) :=
      ⟨[], (List.append_nil _).symm, fun _ => ⟨rfl, rfl⟩⟩
    have member : starts.get ⟨i + 1, within'⟩ ∈ starts.tail := by
      refine List.mem_of_getElem? (i := i) ?_
      rw [List.getElem?_tail]
      exact begins
    have saw := thorough _ member _ _ _ _ (chapter.relived _ began) stops
    exact (chapter.tells.sawEnd unrefused).symm.trans saw

theorem begins_first {start : σ} {stage : Stage σ}
    (chapter : Chapter next d source outlet starts.length m past 0 start stage) :
    Begins d (past 0) (faultAt source 0) source := by
  obtain ⟨-, held⟩ := chapter.drawn
  refine ⟨(past 0).lost ++ m.source.held d, by rw [held, Past.seen, List.append_assoc], fun saw => ?_⟩
  obtain ⟨saw', lost⟩ := chapter.tells.ended saw
  have empty : m.source.held d = [] := chapter.drained saw'
  exact ⟨by rw [lost, empty]; rfl, rfl⟩

/-! The stages of the shell. -/

/-- A session in which a stage has bytes to read and all the room to write. -/
structure Plain (d : Disk) (cwd : Place) (bs : Bytes) (p : Outlet) (s : Session) : Prop where
  disk : s.disk = d
  cwd : s.cwd = cwd
  input : s.input = .stream bs none
  output : s.output = .outlet p
  unlimited : Unlimited p

/-- The process does what the call does as a stage of a pipe, which changes neither the
disk nor the directory. -/
def Performs (next : σ → Move σ) (sh : Shell) (run : Substitution) (d : Disk) (cwd : Place) (c : Call)
    (start : σ) : Prop :=
  ∀ s bs p result s', Plain d cwd bs p s → (sh.stage run c).start s = some (result, s') →
    ∃ out, Ends next d { state := start, source := .stream bs none, outlet := p } result out ∧
      s'.output = .outlet out ∧ s'.disk = d ∧ s'.cwd = cwd

/-- Stages of the shell run as their processes do one after the other. -/
theorem stages_oneAfterAnother {sh : Shell} {run : Substitution} {cwd : Place} {calls : List Call}
    (performs : List.Forall₂ (Performs next sh run d cwd) calls starts) {bs : Bytes} {p : Outlet}
    {s s' : Session} {results} (plain : Plain d cwd bs p s)
    (ran : (sh.stages run calls).start s = some (.ok results, s')) :
    ∃ out, OneAfterAnother next d starts (.stream bs none) p results out ∧ s'.output = .outlet out := by
  induction performs generalizing bs s s' results with
  | nil =>
    cases ran
    exact ⟨p, .none, plain.output⟩
  | @cons c start calls rest performs later ih =>
    cases later with
    | nil =>
      rcases start_bind_eq_some_iff.mp ran with ⟨e, -, failed⟩ | ⟨result, t, tried, gave⟩
      · cases failed
      · rw [start_attempt, Option.map_eq_some_iff] at tried
        obtain ⟨⟨_, _⟩, staged, same⟩ := tried
        cases same
        cases gave
        obtain ⟨out, ends, taken, -⟩ := performs _ _ _ _ _ plain staged
        exact ⟨out, .last ends, taken⟩
    | @cons next_call second calls rest performs_next later =>
      obtain ⟨result, t, results, u, staged, stages, output, rfl⟩ := stages_cons ran
      have own : Plain d cwd bs {} { s with output := .unlimited } :=
        ⟨plain.disk, plain.cwd, plain.input, rfl, ⟨rfl, rfl⟩⟩
      obtain ⟨passed, ends, taken, disk, dir⟩ := performs _ _ _ _ _ own staged
      have fed : Plain d cwd passed.taken p
          { t with input := .stream t.output.taken none, output := s.output } :=
        ⟨disk, dir, by rw [taken]; rfl, plain.output, plain.unlimited⟩
      obtain ⟨out, sequence, written⟩ := ih fed stages
      exact ⟨out, .cons ends sequence, output.trans written⟩

/-- A pipe of two or more stages settles what the stages came to. -/
theorem pipe_eq {sh : Shell} {run : Substitution} {calls : List Call} (many : 2 ≤ calls.length) :
    sh.pipe run calls = sh.stages run calls >>= Shell.settle := by
  match calls, many with
  | _ :: _ :: _, _ => rfl

/-! A process that copies. -/

/-- Writes bytes one by one, up to the first failure. -/
def deliver (p : Outlet) : Bytes → Outlet × Option IoError
  | [] => (p, none)
  | b :: bs =>
    match (p.write [b]).2 with
    | none => deliver (p.write [b]).1 bs
    | some e => ((p.write [b]).1, some e)

theorem deliver_unlimited {p : Outlet} (unlimited : Unlimited p) (bs : Bytes) :
    deliver p bs = (fed p bs, none) := by
  induction bs generalizing p with
  | nil => rw [deliver, fed_nil]
  | cons b bs ih =>
    have written : p.write [b] = (fed p [b], none) := by simp [Outlet.write, unlimited.room, fed]
    rw [deliver, written]
    dsimp only
    rw [ih (unlimited.fed [b]), fed_fed]
    rfl

/-- What a relay still has to write. -/
def Relay.ahead (d : Disk) (source : Source) (relays : Bool) (pending : Bytes) : Bytes :=
  if relays then pending ++ source.held d else pending

/-- What becomes of a relay that has written everything. -/
def Relay.ending (source : Source) (relays : Bool) : Except Failure Outcome :=
  match relays, source.fault with
  | true, some e => .error (.io e)
  | _, _ => .ok .proceed

/-- What a relay will come to. -/
def Relay.forecast (d : Disk) (p : Solo Relay) : Except Failure Outcome × Outlet :=
  match p.state with
  | .done result => (result, p.outlet)
  | .sending pending relays =>
    let sent := deliver p.outlet (Relay.ahead d p.source relays pending)
    (match sent.2 with
      | some e => .error (.io e)
      | none => Relay.ending p.source relays, sent.1)

/-- A bound for the moves that a relay has left. -/
def Relay.left (d : Disk) (p : Solo Relay) : Nat :=
  match p.state with
  | .done _ => 0
  | .sending pending relays => pending.length + 2 * (if relays then (p.source.held d).length else 0) + 1

theorem relay_stops (p : Solo Relay) {result} (stops : Relay.move p.state = .stop result) :
    Relay.forecast d p = (result, p.outlet) := by
  obtain ⟨state, source, outlet, sawEnd⟩ := p
  cases state with
  | done result' =>
    cases stops
    rfl
  | sending pending relays =>
    cases pending with
    | nil =>
      cases relays with
      | false =>
        cases stops
        rfl
      | true => cases stops
    | cons b bs => cases stops

/-- What a read gives a relay is what it has ahead. -/
theorem relay_read {source : Source} {n : Nat} (some_bytes : 0 < n) (outlet : Outlet)
    (sawEnd sawEnd' : Bool) :
    Relay.forecast d ⟨Relay.received (source.read d n).1, (source.read d n).2, outlet, sawEnd'⟩ =
      Relay.forecast d ⟨.sending [] true, source, outlet, sawEnd⟩ := by
  rcases read_cases source some_bytes (d := d) with ⟨empty, read⟩ | ⟨chunk, more, some, -, held, read⟩
  · rw [read]
    simp only [Relay.forecast, Relay.ahead, Relay.ending, empty, if_true, List.append_nil, deliver]
    cases source.fault <;> rfl
  · obtain ⟨b, bs, rfl⟩ := List.exists_cons_of_ne_nil some
    have left : (source.skip (b :: bs).length).held d = more := by
      rw [held_skip, held, List.drop_left]
    rw [read]
    simp only [Relay.received, Relay.forecast, Relay.ahead, Relay.ending, if_true, left, held,
      List.nil_append, fault_skip]

theorem relay_write {b : UInt8} {bs : Bytes} {relays : Bool} (source : Source) (outlet : Outlet)
    (sawEnd : Bool) :
    Relay.forecast d ⟨Relay.wrote bs relays (outlet.write [b]).2, source, (outlet.write [b]).1, sawEnd⟩ =
      Relay.forecast d ⟨.sending (b :: bs) relays, source, outlet, sawEnd⟩ := by
  have first : Relay.ahead d source relays (b :: bs) = b :: Relay.ahead d source relays bs := by
    cases relays <;> rfl
  simp only [Relay.forecast, first, deliver]
  cases (outlet.write [b]).2 <;> rfl

theorem relay_keeps {p q : Solo Relay} (goes : Goes Relay.move d p q) :
    Relay.forecast d q = Relay.forecast d p := by
  obtain ⟨state, source, outlet, sawEnd⟩ := p
  match state with
  | .done result | .sending [] false =>
    cases goes with
    | read asks | write asks | flush asks => cases asks
  | .sending [] true =>
    cases goes with
    | read asks some_bytes at_most =>
      cases asks
      exact relay_read some_bytes outlet sawEnd _
    | write asks | flush asks => cases asks
  | .sending (b :: bs) relays =>
    cases goes with
    | write asks =>
      cases asks
      exact relay_write source outlet sawEnd
    | read asks | flush asks => cases asks

/-- Every byte is read once and written once. -/
theorem relay_goes (d : Disk) (p : Solo Relay) :
    (∃ result, Relay.move p.state = .stop result) ∨
      ∃ q, Goes Relay.move d p q ∧ Relay.left d q < Relay.left d p := by
  obtain ⟨state, source, outlet, sawEnd⟩ := p
  match state with
  | .done result => exact .inl ⟨result, rfl⟩
  | .sending [] false => exact .inl ⟨.ok .proceed, rfl⟩
  | .sending [] true =>
    refine .inr ⟨_, .read rfl Nat.one_pos (by decide), ?_⟩
    rcases read_cases source Nat.one_pos (d := d) with ⟨empty, read⟩ | ⟨chunk, more, some, -, held, read⟩
    · rw [read]
      cases source.fault <;> simp [Relay.left, endAnswer, Relay.received]
    · obtain ⟨b, bs, rfl⟩ := List.exists_cons_of_ne_nil some
      have left : (source.skip (b :: bs).length).held d = more := by
        rw [held_skip, held, List.drop_left]
      rw [read]
      simp only [Relay.left, Relay.received, if_true, left, held]
      simp only [List.length_append, List.length_cons, List.length_nil]
      omega
  | .sending (b :: bs) relays =>
    refine .inr ⟨_, .write rfl, ?_⟩
    cases (outlet.write [b]).2 with
    | none =>
      simp only [Relay.left, Relay.wrote, List.length_cons]
      omega
    | some e => simp [Relay.left, Relay.wrote]

theorem relay_ends (d : Disk) (p : Solo Relay) :
    Ends Relay.move d p (Relay.forecast d p).1 (Relay.forecast d p).2 :=
  ends_of_forecast (fun p _ => relay_stops p) (fun _ _ => relay_keeps) (relay_goes d) p

theorem relay_steady (d : Disk) (start : Relay) : Steady Relay.move d start :=
  steady_of_forecast (fun p _ => relay_stops p) (fun _ _ => relay_keeps) (relay_goes d) start

/-- A relay that has nothing pending does what `cat` does. -/
theorem relay_performs_cat {sh : Shell} (run : Substitution) (enabled : .cat ∈ sh.applications)
    (d : Disk) (cwd : Place) : Performs Relay.move sh run d cwd catCall (.sending [] true) := by
  intro s bs p result s' plain ran
  obtain ⟨journal, staged⟩ := start_stage_cat run enabled plain.unlimited plain.output plain.input
  rw [staged] at ran
  cases ran
  have told : Relay.forecast d ⟨.sending [] true, .stream bs none, p, false⟩ =
      (.ok .proceed, fed p bs) := by
    simp only [Relay.forecast, Relay.ahead, Relay.ending, if_true, Source.held, Source.fault,
      List.nil_append, deliver_unlimited plain.unlimited]
  have ends := relay_ends d ⟨.sending [] true, .stream bs none, p, false⟩
  rw [told] at ends
  exact ⟨fed p bs, ends, rfl, plain.disk, plain.cwd⟩

/-- Every stage after the first has read its input to the end, or is one that always
does. -/
def AllRead (next : σ → Move σ) (d : Disk) (starts : List σ) (final : Machine σ) : Prop :=
  (∀ stage ∈ final.stages.tail, stage.sawEnd = true) ∨ ∀ start ∈ starts.tail, Thorough next d start

theorem unrefused_of_allRead (story : Story next d starts source outlet m past) (finished : m.Finished)
    (read : AllRead next d starts m) (i : Nat) (within : i < starts.length) :
    (past i).refused = false := by
  rcases read with saw | thorough
  · refine unrefused_of_sawEnd story within fun stage found => saw stage ?_
    refine List.mem_of_getElem? (i := i) ?_
    rw [List.getElem?_tail]
    exact found
  · exact unrefused_of_thorough story finished thorough starts.length i (by omega) within

/-- However the stages of a pipe are scheduled and however much its pipes hold, a run to
completion leaves in the session's output what the stages leave there when they run one
after the other, each on all that the one before has written; and if every stage after
the first reads its input to the end, the stages can run one after the other, and all of
them come to the same then. They can also if each can come to stop on every input. Stages
of the shell that processes perform do run one after the other: a pipe leaves the output
that every schedule leaves, and settles the results that every schedule gives. -/
theorem schedules_agree_with_stages_in_turn (next : σ → Move σ) (d : Disk) (capacity : Nat → Nat)
    (starts : List σ) (nonempty : starts ≠ []) (source : Source) (outlet : Outlet)
    (steady : ∀ start ∈ starts, Steady next d start) (schedule : List (Nat × Nat)) (final : Machine σ)
    (ran : run next d capacity (wire starts source outlet) schedule = some final)
    (finished : final.Finished) :
    (∀ results out, OneAfterAnother next d starts source outlet results out →
      final.outlet = out ∧ (AllRead next d starts final → final.results = results)) ∧
    (AllRead next d starts final →
      OneAfterAnother next d starts source outlet final.results final.outlet) ∧
    ((∀ start ∈ starts, Halts next d start) →
      ∃ results out, OneAfterAnother next d starts source outlet results out) ∧
    ∀ sh run cwd calls s s' bs results, source = .stream bs none → Plain d cwd bs outlet s →
      List.Forall₂ (Performs next sh run d cwd) calls starts →
      (sh.stages run calls).start s = some (.ok results, s') →
      s'.output = .outlet final.outlet ∧
        (2 ≤ calls.length → AllRead next d starts final →
          (sh.pipe run calls).start s = (Shell.settle final.results).start s') := by
  obtain ⟨past, story⟩ := run_story nonempty ran
  obtain ⟨first, rest, rfl⟩ := List.exists_cons_of_ne_nil nonempty
  obtain ⟨stage, begins, -, -, found, -⟩ := stage_at story (i := 0) List.drop_zero
  have began := begins_first (story.chapter 0 first stage begins found)
  have agrees : ∀ results out, OneAfterAnother next d (first :: rest) source outlet results out →
      final.outlet = out ∧ (AllRead next d (first :: rest) final → final.results = results) := by
    intro results out sequence
    obtain ⟨same, came⟩ :=
      output_of_sequence steady story finished sequence nonempty 0 List.drop_zero began
    exact ⟨same, fun read => came (unrefused_of_allRead story finished read)⟩
  refine ⟨agrees, fun read => ?_, fun halts => oneAfterAnother_of_halts halts source outlet, ?_⟩
  · have unrefused := unrefused_of_allRead story finished read
    exact sequence_of_unrefused story finished unrefused 0 List.drop_zero began
  · intro sh run cwd calls s s' bs results plain_source plain performs staged
    subst plain_source
    obtain ⟨out, sequence, written⟩ := stages_oneAfterAnother performs plain staged
    obtain ⟨same, came⟩ := agrees results out sequence
    refine ⟨by rw [written, same], fun many read => ?_⟩
    rw [pipe_eq many, start_bind, staged, came read]

/-- All stages have stopped where all have results. -/
theorem finished_of_results (all : m.stages.all (·.result.isSome) = true) : m.Finished := by
  rintro i ⟨stage, found, running⟩
  have stopped := List.all_eq_true.mp all stage (List.mem_of_getElem? found)
  rw [running] at stopped
  cases stopped

/-- Two relays that take turns at a pipe with room for one byte do what `cat | cat` does. -/
theorem relays_agree_with_cat_into_cat :
    ∃ final s', run Relay.move {} (fun _ => 1)
        (wire [.sending [] true, .sending [] true] (.stream [97, 98] none) {})
        [(0, 2), (0, 0), (1, 1), (0, 0), (1, 0), (0, 1), (0, 0), (1, 2), (1, 0), (1, 1), (1, 0)] =
          some final ∧
      s'.output = .outlet final.outlet ∧
      (({} : Shell).pipe (({} : Shell).substitute 1) [catCall, catCall]).start
        { input := .stream [97, 98] none } = (Shell.settle final.results).start s' := by
  have scheduled : (run Relay.move {} (fun _ => 1)
      (wire [.sending [] true, .sending [] true] (.stream [97, 98] none) {})
      [(0, 2), (0, 0), (1, 1), (0, 0), (1, 0), (0, 1), (0, 0), (1, 2), (1, 0), (1, 1), (1, 0)]).map
        (fun m => (m.stages.all (·.result.isSome), m.stages.tail.all (·.sawEnd))) =
      some (true, true) := by
    decide +kernel
  obtain ⟨final, ran, ended⟩ := Option.map_eq_some_iff.mp scheduled
  obtain ⟨all, saw⟩ := Prod.mk.inj ended
  have in_turn : ((({} : Shell).stages (({} : Shell).substitute 1) [catCall, catCall]).start
      { input := .stream [97, 98] none }).map (fun ended => ended.1.isOk) = some true := by
    decide +kernel
  obtain ⟨⟨results, s'⟩, staged, ok⟩ := Option.map_eq_some_iff.mp in_turn
  cases results with
  | error e => cases ok
  | ok results =>
    have performs : Performs Relay.move {} (({} : Shell).substitute 1) {} [] catCall (.sending [] true) :=
      relay_performs_cat _ (by decide) {} []
    have agrees := schedules_agree_with_stages_in_turn Relay.move {} (fun _ => 1) _ (by simp) _ {}
      (fun start _ => relay_steady {} start) _ final ran (finished_of_results all)
    obtain ⟨output, settled⟩ := agrees.2.2.2 {} _ [] _ _ s' [97, 98] results rfl
      ⟨rfl, rfl, rfl, rfl, rfl, rfl⟩ (.cons performs (.cons performs .nil)) staged
    exact ⟨final, s', ran, output, settled (by decide) (.inl (List.all_eq_true.mp saw))⟩

end LineShell.PipeSchedules
