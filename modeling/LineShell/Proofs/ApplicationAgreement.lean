import LineShell.Application.Basic
import LineShell.Proofs.DiskFaults

/-! No application tells related sessions apart, or meets more trouble than its
streams do. Applications that only read and write need a bond of sessions that
look alike; those that change the disk or the directory need one that allows for
it. -/
namespace LineShell.ApplicationAgreement
open StepAgreement SessionBonds DiskFaults

variable {K : Bond} {α β : Type}

/-! What applications share. -/

/-- An application complains of a stream's failure as such. -/
theorem ofIo_agrees {act act' : Act IoError α} (agrees : K.Agrees act act') :
    K.Agrees (Job.ofIo act) (Job.ofIo act') := .mapError (fun _ => rfl) agrees

theorem ofDisk_agrees {result : Except IoError α} (calm : Calm result) :
    K.Agrees (Act.ofExcept result) (Act.ofExcept result) :=
  .ofExcept fun e failed => bears_of_calm (calm e failed)

theorem view_disk {ε : Type} [Fault ε] (look : K.Look) :
    K.Agrees (Act.view (·.disk) : Act ε Disk) (Act.view (·.disk)) :=
  .view fun _ _ rel => look.disk rel

/-- Arguments that cannot be read have a flag that is not known. -/
theorem parse_calm (legal : List Char) (args : List String) (c : Complaint)
    (failed : Options.parse legal args = .error c) : Fault.trouble? c = none := by
  have passed {f : Options → Options} {result : Except Complaint Options}
      (failed : f <$> result = .error c) : result = .error c := by
    cases result <;> cases failed
    rfl
  fun_induction Options.parse legal args with
  | case1 => cases failed
  | case2 arg rest _ ih => exact ih (passed failed)
  | case3 => cases failed
  | case4 =>
    cases failed
    rfl
  | case5 arg rest _ _ _ _ ih => exact ih (passed failed)

theorem options_agrees (legal : String) (args : List String) :
    K.Agrees (Job.options legal args) (Job.options legal args) :=
  .ofExcept fun _ failed => bears_of_calm (parse_calm _ _ _ failed)

/-- The operands among arguments. They do not depend on the flags that are known. -/
def operands : List String → List String
  | [] => []
  | arg :: rest =>
    if Options.isOperand arg then arg :: operands rest
    else if arg = "--" then rest else operands rest

theorem operands_of_parse {legal : List Char} {args : List String} {o : Options}
    (read : Options.parse legal args = .ok o) : o.operands = operands args := by
  have passed {f : Options → Options} {result : Except Complaint Options} {o : Options}
      (read : f <$> result = .ok o) : ∃ o', result = .ok o' ∧ f o' = o := by
    cases result with
    | error e => cases read
    | ok o' => exact ⟨o', rfl, Except.ok.inj read⟩
  induction args generalizing o with
  | nil =>
    cases read
    rfl
  | cons arg rest ih =>
    unfold Options.parse at read
    unfold operands
    split at read
    · rename_i operand
      obtain ⟨o', read', rfl⟩ := passed read
      rw [if_pos operand]
      exact congrArg (arg :: ·) (ih read')
    · rename_i operand
      rw [if_neg operand]
      split at read
      · rename_i stop
        cases read
        rw [if_pos stop]
      · rename_i stop
        rw [if_neg stop]
        dsimp only at read
        split at read
        · cases read
        · obtain ⟨o', read', rfl⟩ := passed read
          change o'.operands = operands rest
          exact ih read'

/-- What comes after the arguments have been read is given their operands. -/
theorem options_bind_agrees {legal : String} {args : List String} {next next' : Options → Job β}
    (rest : ∀ o, o.operands = operands args → K.Agrees (next o) (next' o)) :
    K.Agrees (Job.options legal args >>= next) (Job.options legal args >>= next') := by
  refine .bind_given (options_agrees legal args) fun o given => rest o ?_
  obtain ⟨s, s', ran⟩ := given
  rw [Job.options, start_ofExcept] at ran
  exact operands_of_parse (Prod.mk.inj (Option.some.inj ran)).1

theorem openOperand_agrees (look : K.Look) (name : String) :
    K.Agrees (Job.openOperand name) (Job.openOperand name) := by
  refine .bind (.resolve look name) fun p => .bind (view_disk look) fun d => ?_
  exact .guard rfl (.guard rfl (ofIo_agrees (ofDisk_agrees (openFile_calm d p))))

/-- Related sessions offer the same operands, of the names that are fit: both open
them or complain alike, and what they open is safe to read. -/
structure Offers (K : Bond) (Safe : Source → Prop) (Fit : String → Prop) : Prop
    extends K.Feeds Safe where
  opens : ∀ name, Fit name → K.Agrees (Job.openOperand name) (Job.openOperand name)
  opened : ∀ name, Fit name → K.Yields (fun id => Safe (.file id 0)) (Job.openOperand name)

/-- Related sessions also stay related when both write or flush. -/
structure Serves (K : Bond) (Safe : Source → Prop) (Fit : String → Prop) : Prop
    extends Offers K Safe Fit where
  write : ∀ bs, K.Agrees (Act.write bs) (Act.write bs)
  flush : K.Agrees Act.flush Act.flush
  unfed : K.May .endless ∨ ∀ ⦃s t⦄, K.Rel s t → ∃ p, s.output = .outlet p

theorem look_offers (look : K.Look) : Offers K (fun _ => True) fun _ => True where
  toFeeds := look.feeds
  opens := fun name _ => openOperand_agrees look name
  opened := fun _ _ _ _ _ _ _ _ => trivial

theorem like_serves (like : K.Like) : Serves K (fun _ => True) fun _ => True where
  toOffers := look_offers like.toLook
  write := like.write
  flush := like.flush
  unfed := like.unfed

variable {Safe : Source → Prop} {Fit : String → Prop}

/-- What is opened holds the same in both sessions. -/
theorem content_of_safe (offers : Offers K Safe Fit) {id : FileId} (safe : Safe (.file id 0))
    {s t : Session} (rel : K.Rel s t) : s.disk.content id = t.disk.content id := by
  have held := offers.held (offers.setInput rel _ safe nofun)
  simpa [Source.held] using held

theorem readOperand_agrees (offers : Offers K Safe Fit) {name : String}
    (fit : name ≠ "-" → Fit name) :
    K.Agrees (Job.readOperand name) (Job.readOperand name) := by
  unfold Job.readOperand
  split
  · exact ofIo_agrees (.readAll offers.toFeeds)
  · rename_i file
    exact .bind_yields (offers.opens name (fit file)) (offers.opened name (fit file))
      fun id safe => .view fun _ _ rel => content_of_safe offers safe rel

theorem write_agrees (serves : Serves K Safe Fit) (bs : Bytes) :
    K.Agrees (Job.write bs) (Job.write bs) :=
  ofIo_agrees (serves.write bs)

theorem flush_agrees (serves : Serves K Safe Fit) : K.Agrees Job.flush Job.flush :=
  ofIo_agrees serves.flush

theorem writeLines_agrees (serves : Serves K Safe Fit) (ls : List String) :
    K.Agrees (Job.writeLines ls) (Job.writeLines ls) :=
  .bind (write_agrees serves _) fun _ => flush_agrees serves

theorem readAllOperands_agrees (offers : Offers K Safe Fit) {names : List String}
    (fits : ∀ name ∈ names, name ≠ "-" → Fit name) :
    K.Agrees (Job.readAllOperands names) (Job.readAllOperands names) := by
  induction names with
  | nil => exact .pure _
  | cons name rest ih =>
    obtain ⟨fit, later⟩ := List.forall_mem_cons.mp fits
    exact .bind (readOperand_agrees offers fit) fun _ => .bind (ih later) fun _ => .pure _

/-- The input stands in for operands that are missing. -/
theorem fits_or_input {o : Options} {args : List String} (read : o.operands = operands args)
    (fits : ∀ name ∈ operands args, name ≠ "-" → Fit name) :
    ∀ name ∈ o.operandsOr "-", name ≠ "-" → Fit name := by
  intro name member other
  unfold Options.operandsOr at member
  split at member
  · exact absurd (List.mem_singleton.mp member) other
  · exact fits name (read ▸ member) other

/-- The same for the operands after the first. -/
theorem fits_tail_or_input {first : String} {files args : List String}
    (read : first :: files = operands args) (fits : ∀ name ∈ operands args, name ≠ "-" → Fit name) :
    ∀ name ∈ (if files.isEmpty then ["-"] else files), name ≠ "-" → Fit name := by
  intro name member other
  split at member
  · exact absurd (List.mem_singleton.mp member) other
  · exact fits name (read ▸ List.mem_cons_of_mem _ member) other

/-! Steps that give complaints as values. What comes after them gets complaints
only that the bond allows. -/

theorem tryOperands_agrees (offers : Offers K Safe Fit) {k : List Job.Reading → Job β}
    {names : List String} (fits : ∀ name ∈ names, name ≠ "-" → Fit name)
    (rest : ∀ readings, (∀ r ∈ readings, K.Admits r.result) → K.Agrees (k readings) (k readings)) :
    K.Agrees (Job.tryOperands names >>= k) (Job.tryOperands names >>= k) := by
  induction names generalizing k with
  | nil => exact rest [] (by simp)
  | cons name names ih =>
    obtain ⟨fit, others⟩ := List.forall_mem_cons.mp fits
    simp only [Job.tryOperands, bind_assoc, pure_bind]
    refine .attempt_bind (readOperand_agrees offers fit) fun result admitted =>
      ih others fun readings later => ?_
    exact rest _ (List.forall_mem_cons.mpr ⟨admitted, later⟩)

theorem forEach_agrees {step : String → Job α} (each : ∀ name, K.Agrees (step name) (step name))
    {k : List (Except Complaint α) → Job β} (names : List String)
    (rest : ∀ results, (∀ result ∈ results, K.Admits result) →
      (∀ a, .ok a ∈ results → ∃ name, Gives (step name) a) → K.Agrees (k results) (k results)) :
    K.Agrees (Job.forEach step names >>= k) (Job.forEach step names >>= k) := by
  induction names generalizing k with
  | nil => exact rest [] (by simp) (by simp)
  | cons name names ih =>
    simp only [Job.forEach, bind_assoc, pure_bind]
    refine .attempt_bind_given (each name) fun result admitted given =>
      ih fun results later others => ?_
    refine rest _ (List.forall_mem_cons.mpr ⟨admitted, later⟩) fun a held => ?_
    rcases List.mem_cons.mp held with here | held
    · exact ⟨name, given a here.symm⟩
    · exact others a held

/-- A value among the results is one that the step gave. -/
theorem forEach_given {step : String → Job α} {names : List String}
    {results : List (Except Complaint α)} (given : Gives (Job.forEach step names) results) (a : α)
    (held : .ok a ∈ results) : ∃ name, Gives (step name) a := by
  induction names generalizing results with
  | nil =>
    rw [gives_pure given] at held
    cases held
  | cons name names ih =>
    obtain ⟨result, tried, given⟩ := gives_bind given
    obtain ⟨others, later, given⟩ := gives_bind given
    rw [gives_pure given] at held
    rcases List.mem_cons.mp held with rfl | held
    · exact ⟨name, attempt_given tried⟩
    · exact ih later held

theorem settle_agrees {complaint : Option Complaint} (borne : ∀ c, complaint = some c → K.Bears c) :
    K.Agrees (Job.settle complaint) (Job.settle complaint) := by
  cases complaint with
  | none => exact .pure _
  | some c => exact .throw_borne (borne c rfl)

/-- The first complaint is one of them. -/
theorem firstComplaint?_borne {results : List (Except Complaint α)}
    (admitted : ∀ result ∈ results, K.Admits result) (c : Complaint)
    (first : Job.firstComplaint? results = some c) : K.Bears c := by
  induction results with
  | nil => cases first
  | cons result results ih =>
    obtain ⟨here, later⟩ := List.forall_mem_cons.mp admitted
    cases result with
    | error e =>
      cases first
      exact here c rfl
    | ok a => exact ih later first

/-! Copies. -/

theorem held_skip (d : Disk) (n : Nat) (source : Source) :
    (source.skip n).held d = (source.held d).drop n := by
  cases source with
  | stream rest e => rfl
  | file id pos => simp [Source.skip, Source.held, List.drop_drop]

/-- What is read is no longer held. -/
theorem held_read {d : Disk} {n : Nat} {source rest : Source} {bs : Bytes}
    (read : source.read d n = (.ok bs, rest)) : bs ++ rest.held d = source.held d := by
  simp only [Source.read] at read
  split at read
  · split at read <;> cases read
    rfl
  · cases read
    rw [held_skip, List.length_take, List.take_eq_take_min, List.take_append_drop]

theorem held_after_read {n : Nat} {bs : Bytes} {s s' : Session}
    (ran : (Act.read n).start s = some (.ok bs, s')) :
    bs ++ s'.input.held s'.disk = s.input.held s.disk := by
  rw [start_read] at ran
  obtain ⟨chunk, rfl⟩ := Prod.mk.inj (Option.some.inj ran)
  exact held_read (Prod.ext chunk rfl)

theorem start_pumpAll (step : α → Bytes → Act IoError α) (state : α) (s : Session) :
    (Job.pumpAll step state).start s =
      (Job.pump step ((s.input.held s.disk).length + s.output.room?.getD 0 + 1) state).start s := rfl

/-- More rounds make no difference to a pump that ends. -/
theorem pump_more {step : α → Bytes → Act IoError α} {rounds more : Nat} {state : α} {s s' : Session}
    {result : Except IoError α} (enough : rounds ≤ more)
    (ran : (Job.pump step rounds state).start s = some (result, s')) :
    (Job.pump step more state).start s = some (result, s') := by
  induction rounds generalizing more state s with
  | zero => cases ran
  | succ rounds ih =>
    obtain ⟨more, rfl⟩ : ∃ later, more = later + 1 := Nat.exists_eq_succ_of_ne_zero (by omega)
    rw [Job.pump] at ran ⊢
    rcases start_bind_eq_some_iff.mp ran with ⟨e, failed, rfl⟩ | ⟨bs, s₁, read, rest⟩
    · exact start_bind_eq_some_iff.mpr (.inl ⟨e, failed, rfl⟩)
    · refine start_bind_eq_some_iff.mpr (.inr ⟨bs, s₁, read, ?_⟩)
      split at rest
      · rename_i ended
        rwa [if_pos ended]
      · rename_i some
        rw [if_neg some]
        rcases start_bind_eq_some_iff.mp rest with ⟨e, failed, rfl⟩ | ⟨state', s₂, stepped, later⟩
        · exact start_bind_eq_some_iff.mpr (.inl ⟨e, failed, rfl⟩)
        · exact start_bind_eq_some_iff.mpr
            (.inr ⟨state', s₂, stepped, ih (Nat.le_of_succ_le_succ enough) later⟩)

/-- A write fails if it is longer than there is room for. -/
theorem write_fails_iff {bs : Bytes} {s : Session} :
    (∃ e s', (Act.write bs).start s = some (.error e, s')) ↔
      ∃ n, s.output.room? = some n ∧ n < bs.length := by
  obtain ⟨_, _, _, ⟨taken, room, flushFails, broken⟩ | ⟨id, pos⟩, _, _⟩ := s
  · cases room with
    | none => simp [Act.start, Act.write, ExceptT.run, Sink.write, Outlet.write, Sink.room?]
    | some n =>
      by_cases fits : bs.length ≤ n
      · simp [Act.start, Act.write, ExceptT.run, Sink.write, Outlet.write, Sink.room?, fits]
      · simp [Act.start, Act.write, ExceptT.run, Sink.write, Outlet.write, Sink.room?, fits,
          Nat.lt_of_not_le fits]
  · cases pos <;> simp [Act.start, Act.write, ExceptT.run, Sink.write, Sink.room?]

/-- Where related sessions write the same, their outputs have the same room. -/
theorem room_of_writes (write : ∀ bs, K.Agrees (Act.write bs) (Act.write bs)) {s t : Session}
    (rel : K.Rel s t) : s.output.room? = t.output.room? := by
  have same (n : Nat) : (∃ m, s.output.room? = some m ∧ m < n) ↔
      ∃ m, t.output.room? = some m ∧ m < n := by
    have ends := write (List.replicate n 0) rel
    rw [← List.length_replicate (n := n) (a := (0 : UInt8)), ← write_fails_iff, ← write_fails_iff]
    generalize (Act.write (List.replicate n 0)).start s = left at ends
    generalize (Act.write (List.replicate n 0)).start t = right at ends
    cases ends with
    | never => rfl
    | both => simp
  cases left : s.output.room? with
  | none =>
    cases right : t.output.room? with
    | none => rfl
    | some m => simpa [left, right] using same (m + 1)
  | some n =>
    obtain ⟨m, right, under⟩ := (same (n + 1)).mp ⟨n, left, Nat.lt_succ_self n⟩
    obtain ⟨n', left', under'⟩ := (same (m + 1)).mpr ⟨m, right, Nat.lt_succ_self m⟩
    obtain rfl := Option.some.inj (left.symm.trans left')
    rw [right, show n = m by omega]

/-- A step that leaves what is still to be read alone, if every run has to
end. -/
def Feedless (K : Bond) (step : α → Bytes → Act IoError α) : Prop :=
  K.May .endless ∨ ∀ state bs ⦃s t⦄, K.Rel s t → ∀ state' s',
    (step state bs).start s = some (.ok state', s') → s'.disk = s.disk ∧ s'.input = s.input

section Pump

variable {step : α → Bytes → Act IoError α} (Fine : α → Prop) (feeds : K.Feeds Safe)
  (each : ∀ state bs, Fine state → K.Agrees (step state bs) (step state bs))
  (keeps : ∀ state bs state', Fine state → Gives (step state bs) state' → Fine state')
  (feedless : Feedless K step)

include feeds each keeps feedless

/-- A pump goes on while there is something left to read, and each round leaves
less. -/
theorem pump_ends (rounds : Nat) {state : α} (fine : Fine state) {s t : Session} (rel : K.Rel s t)
    (enough : K.May .endless ∨ (s.input.held s.disk).length < rounds) :
    K.Ends ((Job.pump step rounds state).start s) ((Job.pump step rounds state).start t) := by
  -- Where every run has to end, there are always more rounds left than bytes.
  induction rounds generalizing state s t with
  | zero => exact .never (enough.resolve_right (by omega))
  | succ rounds ih =>
    rw [Job.pump, start_bind, start_bind]
    have reads := Bond.Agrees.read feeds Job.chunk rel
    generalize read : (Act.read Job.chunk).start s = left at reads
    generalize (Act.read Job.chunk).start t = right at reads
    cases reads with
    | never may => exact .never may
    | @both result s₁ t₁ admitted rel₁ =>
      cases result with
      | error e => exact .both (admits_error (admitted e rfl)) rel₁
      | ok bs =>
        dsimp only
        split
        · exact .both (admits_ok state) rel₁
        · rename_i some
          rw [start_bind, start_bind]
          have steps := each state bs fine rel₁
          generalize stepped : (step state bs).start s₁ = left at steps
          generalize (step state bs).start t₁ = right at steps
          cases steps with
          | never may => exact .never may
          | @both result s₂ t₂ admitted rel₂ =>
            cases result with
            | error e => exact .both (admits_error (admitted e rfl)) rel₂
            | ok state' =>
              have less := congrArg List.length (held_after_read read)
              rw [List.length_append] at less
              refine ih (keeps state bs state' fine ⟨s₁, s₂, stepped⟩) rel₂ ?_
              rcases feedless with may | leaves
              · exact .inl may
              · refine enough.imp_right fun enough => ?_
                obtain ⟨disk, input⟩ := leaves state bs rel₁ state' s₂ stepped
                have progress : bs.length ≠ 0 := by simpa using some
                rw [disk, input]
                omega

theorem pumpAll_agrees (write : ∀ bs, K.Agrees (Act.write bs) (Act.write bs)) {state : α}
    (fine : Fine state) : K.Agrees (Job.pumpAll step state) (Job.pumpAll step state) := by
  intro s t rel
  rw [start_pumpAll, start_pumpAll, ← feeds.held rel, ← room_of_writes write rel]
  exact pump_ends Fine feeds each keeps feedless _ fine rel (.inr (by omega))

end Pump

/-- Writing to an outlet changes no file and reads nothing. -/
theorem write_feedless (serves : Serves K Safe Fit) : Feedless K fun () bs => Act.write bs := by
  refine serves.unfed.imp_right fun outlets _ bs s t rel _ s' wrote => ?_
  obtain ⟨p, output⟩ := outlets rel
  simp only [Act.start, Act.write, ExceptT.run, output, Sink.write] at wrote
  split at wrote
  · rename_i written
    cases wrote
    exact ⟨(congrArg Prod.fst written).symm, rfl⟩
  · cases wrote

/-! The applications, one by one. -/

theorem copy_agrees (serves : Serves K Safe Fit) : K.Agrees Cat.copy Cat.copy :=
  ofIo_agrees (pumpAll_agrees (fun _ => True) serves.toFeeds (fun _ bs _ => serves.write bs)
    (fun _ _ _ _ _ => trivial) (write_feedless serves) serves.write trivial)

theorem copyOperand_agrees (serves : Serves K Safe Fit) {name : String}
    (fit : name ≠ "-" → Fit name) : K.Agrees (Cat.copyOperand name) (Cat.copyOperand name) := by
  unfold Cat.copyOperand
  split
  · exact copy_agrees serves
  · rename_i file
    exact .bind_yields (serves.opens name (fit file)) (serves.opened name (fit file))
      fun id safe => .withInput_safe serves.toFeeds safe rfl (copy_agrees serves)

theorem numberOperand_agrees (serves : Serves K Safe Fit) (last : Nat) {name : String}
    (fit : name ≠ "-" → Fit name) :
    K.Agrees (Cat.numberOperand last name) (Cat.numberOperand last name) :=
  .bind (readOperand_agrees serves.toOffers fit) fun _ =>
    .bind (write_agrees serves _) fun _ => .pure _

theorem emitAll_agrees {step : Nat → String → Job Nat} {names : List String}
    (each : ∀ last, ∀ name ∈ names, K.Agrees (step last name) (step last name))
    {k : Option Complaint → Job β} (last : Nat)
    (rest : ∀ complaint, (∀ c, complaint = some c → K.Bears c) →
      K.Agrees (k complaint) (k complaint)) :
    K.Agrees (Cat.emitAll step last names >>= k) (Cat.emitAll step last names >>= k) := by
  induction names generalizing last k with
  | nil => exact rest none (by simp)
  | cons name names ih =>
    have later (last : Nat) (other : String) (member : other ∈ names) :=
      each last other (List.mem_cons_of_mem _ member)
    simp only [Cat.emitAll, bind_assoc]
    refine .attempt_bind (each last name List.mem_cons_self) fun result admitted => ?_
    cases result with
    | ok last => exact ih later last rest
    | error e =>
      have borne := admitted e rfl
      dsimp only
      split
      · exact .throw_bind borne
      · simp only [bind_assoc, pure_bind]
        refine ih later last fun _ _ => rest (some e) ?_
        rintro _ ⟨⟩
        exact borne

theorem cat_agrees (serves : Serves K Safe Fit) {args : List String}
    (fits : ∀ name ∈ operands args, name ≠ "-" → Fit name) :
    K.Agrees (Cat.run args) (Cat.run args) := by
  refine options_bind_agrees fun o read => emitAll_agrees (fun last name member => ?_) 0
    fun complaint borne => .bind (flush_agrees serves) fun _ => settle_agrees borne
  have fit := fits_or_input read fits name member
  split
  · exact numberOperand_agrees serves last fit
  · exact .bind (copyOperand_agrees serves fit) fun _ => .pure last

theorem cd_agrees (look : K.Look) (journal : JournalFree K.Rel) (cwds : CwdFree K.Rel)
    (args : List String) : K.Agrees (Cd.run args) (Cd.run args) := by
  unfold Cd.run
  split
  · exact .throw rfl
  · refine .guard rfl (.bind (.resolve look _) fun p => .bind (view_disk look) fun d => ?_)
    exact .guard rfl (.guard rfl
      (.bind (ofIo_agrees (.enterDir look journal cwds _)) fun _ => .pure _))
  · exact .throw rfl

theorem copyEntries_agrees (look : K.Look) (disks : DiskFree K.Rel)
    {deeper : Place → Place → Act IoError Unit}
    (each : ∀ source target, K.Agrees (deeper source target) (deeper source target))
    (source target : Place) (entries : List (String × Option Entry)) :
    K.Agrees (Cp.copyTree.copyEntries deeper source target entries)
      (Cp.copyTree.copyEntries deeper source target entries) := by
  induction entries with
  | nil => exact .pure _
  | cons entry rest ih =>
    unfold Cp.copyTree.copyEntries
    dsimp only
    split
    · exact .bind (each _ _) fun _ => ih
    · refine .bind (.onDisk look disks fun d e failed => ?_) fun _ => ih
      exact bears_of_calm (copyFile_calm _ _ _ e failed)

theorem copyTree_agrees (look : K.Look) (disks : DiskFree K.Rel) (fuel : Nat)
    (source target : Place) :
    K.Agrees (Cp.copyTree fuel source target) (Cp.copyTree fuel source target) := by
  induction fuel generalizing source target with
  | zero => exact .throw rfl
  | succ fuel ih =>
    refine .bind (view_disk look) fun d => ?_
    dsimp only
    generalize making : d.makeDirs target = made
    obtain ⟨d', failed⟩ := made
    refine .bind (.change fun _ _ rel => disks rel d') fun _ => ?_
    cases failed with
    | some e => exact .throw_bind (bears_of_calm (makeDirsUp_calm _ _ _ e making))
    | none =>
      refine .bind (ofDisk_agrees (find_calm d' source)) fun found => ?_
      exact .guard rfl (copyEntries_agrees look disks ih source target _)

theorem copyOne_agrees (look : K.Look) (disks : DiskFree K.Rel) (recursive : Bool) (dest : Place)
    (intoDir : Bool) (name : String) :
    K.Agrees (Cp.copyOne recursive dest intoDir name) (Cp.copyOne recursive dest intoDir name) := by
  refine .bind (.resolve look name) fun source => .bind (view_disk look) fun d => .guard rfl ?_
  cases Cp.target? source dest intoDir with
  | none => exact .throw rfl
  | some target =>
    refine .guard rfl ?_
    split
    · exact .guard rfl (.guard rfl (ofIo_agrees (copyTree_agrees look disks _ source target)))
    · exact .onDisk look disks fun d e failed => bears_of_calm (copyFile_calm _ _ _ e failed)

theorem cp_agrees (look : K.Look) (disks : DiskFree K.Rel) (args : List String) :
    K.Agrees (Cp.run args) (Cp.run args) := by
  refine .bind (options_agrees _ _) fun o => ?_
  split
  · exact .throw rfl
  · exact .throw rfl
  · refine .bind (.resolve look _) fun p =>
      .bind (.view fun _ _ rel => by rw [look.disk rel]) fun intoDir => ?_
    exact .guard rfl (forEach_agrees (copyOne_agrees look disks _ p intoDir) _
      fun results admitted _ =>
      settle_agrees (firstComplaint?_borne admitted))

theorem cut_agrees (serves : Serves K Safe Fit) {args : List String}
    (fits : ∀ name ∈ operands args, name ≠ "-" → Fit name) :
    K.Agrees (Cut.run args) (Cut.run args) := by
  refine options_bind_agrees fun o read => .guard rfl (.guard rfl ?_)
  split
  · exact .throw rfl
  · rename_i first files given
    split
    · exact .throw rfl
    · have fits := fits_tail_or_input (given.symm.trans read) fits
      exact .bind (readAllOperands_agrees serves.toOffers fits) fun _ =>
        .bind (writeLines_agrees serves _) fun _ => .pure _

theorem echo_agrees (serves : Serves K Safe Fit) (args : List String) :
    K.Agrees (Echo.run args) (Echo.run args) :=
  .bind (writeLines_agrees serves _) fun _ => .pure _

theorem exit_agrees (args : List String) : K.Agrees (Exit.run args) (Exit.run args) := .pure _

/-- The complaints of readings are those of their results. -/
theorem readings_borne {readings : List Job.Reading} (admitted : ∀ r ∈ readings, K.Admits r.result)
    (c : Complaint) (first : Job.firstComplaint? (readings.map (·.result)) = some c) : K.Bears c :=
  firstComplaint?_borne (List.forall_mem_map.mpr admitted) c first

theorem grep_agrees (serves : Serves K Safe Fit) {args : List String}
    (fits : ∀ name ∈ operands args, name ≠ "-" → Fit name) :
    K.Agrees (Grep.run args) (Grep.run args) := by
  refine options_bind_agrees fun o read => ?_
  split
  · exact .throw rfl
  · rename_i first files given
    have fits := fits_tail_or_input (given.symm.trans read) fits
    split
    · exact tryOperands_agrees serves.toOffers fits fun readings admitted =>
        .bind (writeLines_agrees serves _) fun _ => settle_agrees (readings_borne admitted)
    · exact .throw rfl

theorem ls_agrees (like : K.Like) (args : List String) :
    K.Agrees (Ls.run args) (Ls.run args) := by
  refine .bind (options_agrees _ _) fun o => .view_session like.toLook (fun _ => rfl) fun s => ?_
  dsimp only
  split
  · exact .throw rfl
  · exact .bind (write_agrees (like_serves like) _) fun _ => .pure _

theorem moveOne_agrees (look : K.Look) (disks : DiskFree K.Rel) (keepOld : Bool) (dest : Place)
    (intoDir : Bool) (name : String) :
    K.Agrees (Mv.moveOne keepOld dest intoDir name) (Mv.moveOne keepOld dest intoDir name) := by
  refine .bind (.resolve look name) fun source => .bind (view_disk look) fun d => .guard rfl ?_
  cases Cp.target? source dest intoDir with
  | none => exact .throw rfl
  | some target =>
    dsimp only
    split
    · exact .pure _
    · refine .guard rfl ?_
      split
      · exact .pure _
      · exact .onDisk look disks fun d e failed => bears_of_calm (rename_calm _ _ _ e failed)

theorem mv_agrees (look : K.Look) (disks : DiskFree K.Rel) (args : List String) :
    K.Agrees (Mv.run args) (Mv.run args) := by
  refine .bind (options_agrees _ _) fun o => ?_
  split
  · exact .throw rfl
  · exact .throw rfl
  · refine .bind (.resolve look _) fun p =>
      .bind (.view fun _ _ rel => by rw [look.disk rel]) fun intoDir => ?_
    exact .guard rfl (forEach_agrees (moveOne_agrees look disks _ p intoDir) _
      fun results admitted _ =>
      settle_agrees (firstComplaint?_borne admitted))

theorem paste_agrees (serves : Serves K Safe Fit) {args : List String}
    (fits : ∀ name ∈ operands args, name ≠ "-" → Fit name) :
    K.Agrees (Paste.run args) (Paste.run args) :=
  options_bind_agrees fun _ read =>
    .bind (readAllOperands_agrees serves.toOffers (fits_or_input read fits)) fun _ =>
      .bind (writeLines_agrees serves _) fun _ => .pure _

theorem removeOne_agrees (look : K.Look) (disks : DiskFree K.Rel) (recursive emptyDirs : Bool)
    (name : String) :
    K.Agrees (Rm.removeOne recursive emptyDirs name) (Rm.removeOne recursive emptyDirs name) := by
  refine .bind (.resolve look name) fun p => .view_session look (fun _ => rfl) fun s => ?_
  split
  · exact .throw rfl
  · refine .guard rfl ?_
    split
    · exact .onDisk look disks fun d e failed => bears_of_calm (removeTree_calm _ _ e failed)
    · split
      · refine .onDisk look disks fun d e failed => ?_
        split
        · exact bears_of_calm rfl
        · exact bears_of_calm (removeDir_calm _ _ e failed)
      · exact .throw rfl
  · exact .onDisk look disks fun d e failed => bears_of_calm (unlink_calm _ _ e failed)

theorem rm_agrees (look : K.Look) (disks : DiskFree K.Rel) (args : List String) :
    K.Agrees (Rm.run args) (Rm.run args) :=
  .bind (options_agrees _ _) fun _ => .guard rfl (forEach_agrees (removeOne_agrees look disks _ _) _
    fun _ admitted _ => settle_agrees (firstComplaint?_borne admitted))

theorem sort_agrees (serves : Serves K Safe Fit) {args : List String}
    (fits : ∀ name ∈ operands args, name ≠ "-" → Fit name) :
    K.Agrees (Sort.run args) (Sort.run args) :=
  options_bind_agrees fun _ read =>
    .bind (readAllOperands_agrees serves.toOffers (fits_or_input read fits)) fun _ =>
      .bind (writeLines_agrees serves _) fun _ => .pure _

theorem openTarget_agrees (look : K.Look) (disks : DiskFree K.Rel) (keep : Bool) (name : String) :
    K.Agrees (Tee.openTarget keep name) (Tee.openTarget keep name) := by
  refine .bind (.resolve look name) fun p => .bind (view_disk look) fun d => .guard rfl ?_
  cases opening : d.openForWriting p keep with
  | error e => exact .throw_borne (bears_of_calm (openForWriting_calm _ _ _ e opening))
  | ok opened => exact .bind (.change fun _ _ rel => disks rel _) fun _ => .pure _

/-- A sink that is an open file. -/
def IsFile (sink : Sink) : Prop := ∃ id pos, sink = .file id pos

/-- What tee opens are files. -/
theorem openTarget_isFile {keep : Bool} {name : String} {sink : Sink}
    (given : Gives (Tee.openTarget keep name) sink) : IsFile sink := by
  obtain ⟨s, s', ran⟩ := given
  simp only [Tee.openTarget, start_bind, start_resolve, start_view] at ran
  split at ran
  · cases ran
  · split at ran
    · cases ran
    · cases ran
      exact ⟨_, _, rfl⟩

/-- A write to a file never fails, and the sink is still the file. -/
theorem write_isFile {sink : Sink} (isFile : IsFile sink) (d : Disk) (bs : Bytes) :
    ∃ d' sink', sink.write d bs = (d', sink', none) ∧ IsFile sink' := by
  obtain ⟨id, pos, rfl⟩ := isFile
  cases pos with
  | none => exact ⟨_, _, rfl, id, none, rfl⟩
  | some pos => exact ⟨_, _, rfl, id, _, rfl⟩

theorem writeEach_agrees (look : K.Look) (disks : DiskFree K.Rel) (bs : Bytes) (sinks : List Sink)
    (files : ∀ sink ∈ sinks, IsFile sink) :
    K.Agrees (Tee.writeEach bs sinks) (Tee.writeEach bs sinks) := by
  induction sinks with
  | nil => exact .pure _
  | cons sink rest ih =>
    obtain ⟨first, others⟩ := List.forall_mem_cons.mp files
    refine .bind (view_disk look) fun d => ?_
    obtain ⟨d', sink', written, -⟩ := write_isFile first d bs
    simp only [written]
    exact .bind (.change fun _ _ rel => disks rel d') fun _ => .bind (ih others) fun _ => .pure _

theorem writeEach_isFile {bs : Bytes} {sinks sinks' : List Sink}
    (files : ∀ sink ∈ sinks, IsFile sink)
    (given : Gives (Tee.writeEach bs sinks) sinks') : ∀ sink ∈ sinks', IsFile sink := by
  obtain ⟨s, s', ran⟩ := given
  induction sinks generalizing sinks' s with
  | nil =>
    cases ran
    exact files
  | cons sink rest ih =>
    obtain ⟨first, others⟩ := List.forall_mem_cons.mp files
    obtain ⟨d', sink', written, isFile⟩ := write_isFile first s.disk bs
    simp only [Tee.writeEach, start_bind, start_view, written, start_change] at ran
    split at ran
    · cases ran
    · cases ran
    · rename_i later s₂ wrote
      cases ran
      exact List.forall_mem_cons.mpr ⟨isFile, ih others _ wrote⟩

theorem opened_isFile {keep : Bool} {targets : List (Except Complaint Sink)}
    (given : ∀ sink, .ok sink ∈ targets → ∃ name, Gives (Tee.openTarget keep name) sink) :
    ∀ sink ∈ Tee.opened targets, IsFile sink := by
  intro sink held
  obtain ⟨result, inTargets, opened⟩ := List.mem_filterMap.mp held
  cases result with
  | error e => cases opened
  | ok sink =>
    cases opened
    obtain ⟨name, gave⟩ := given sink inTargets
    exact openTarget_isFile gave

theorem spread_isFile {bs : Bytes} {sinks sinks' : List Sink} (files : ∀ sink ∈ sinks, IsFile sink)
    (given : Gives (Tee.spread sinks bs) sinks') : ∀ sink ∈ sinks', IsFile sink := by
  obtain ⟨_, -, wrote⟩ := gives_bind given
  exact writeEach_isFile files wrote

theorem tee_agrees (like : K.Like) (disks : DiskFree K.Rel) (may : K.May .endless)
    (args : List String) : K.Agrees (Tee.run args) (Tee.run args) := by
  refine .bind (options_agrees _ _) fun o => forEach_agrees (openTarget_agrees like.toLook disks _) _
    fun targets admitted given => .bind (ofIo_agrees ?_) fun _ =>
      .bind (flush_agrees (like_serves like)) fun _ =>
        settle_agrees (firstComplaint?_borne admitted)
  exact pumpAll_agrees (fun sinks => ∀ sink ∈ sinks, IsFile sink) like.toLook.feeds
    (fun sinks bs files => .bind (like.write bs) fun _ =>
      writeEach_agrees like.toLook disks bs sinks files)
    (fun _ _ _ => spread_isFile) (.inl may) like.write (opened_isFile given)

theorem writeFile_agrees (look : K.Look) (disks : DiskFree K.Rel) (name : String)
    (ls : List String) : K.Agrees (Uniq.writeFile name ls) (Uniq.writeFile name ls) := by
  refine .bind (.resolve look name) fun p => .bind (view_disk look) fun d => .guard rfl ?_
  cases opening : d.openForWriting p false with
  | error e => exact .throw_borne (bears_of_calm (openForWriting_calm _ _ _ e opening))
  | ok opened => exact .change fun _ _ rel => disks rel _

/-- The second operand of `uniq` is written. -/
theorem uniq_agrees_of_writes (serves : Serves K Safe Fit) {args : List String}
    (fits : ∀ name ∈ operands args, name ≠ "-" → Fit name)
    (writes : ∀ input output, operands args = [input, output] → ∀ ls,
      K.Agrees (Uniq.writeFile output ls) (Uniq.writeFile output ls)) :
    K.Agrees (Uniq.run args) (Uniq.run args) := by
  refine options_bind_agrees fun o read => ?_
  rw [read]
  match given : operands args with
  | [] =>
    refine .guard rfl (.bind (readOperand_agrees serves.toOffers fun other => absurd rfl other)
      fun bs => ?_)
    exact .bind (writeLines_agrees serves _) fun _ => .pure _
  | [input] =>
    refine .guard rfl (.bind (readOperand_agrees serves.toOffers ?_) fun bs => ?_)
    · exact fits input (given ▸ List.mem_cons_self)
    · exact .bind (writeLines_agrees serves _) fun _ => .pure _
  | [input, output] =>
    refine .guard rfl (.bind (readOperand_agrees serves.toOffers ?_) fun bs => ?_)
    · exact fits input (given ▸ List.mem_cons_self)
    · exact .bind (writes input output given _) fun _ => .pure _
  | _ :: _ :: _ :: _ => exact .throw rfl

theorem uniq_agrees (like : K.Like) (disks : DiskFree K.Rel) (args : List String) :
    K.Agrees (Uniq.run args) (Uniq.run args) :=
  uniq_agrees_of_writes (like_serves like) (fun _ _ _ => trivial) fun _ output _ ls =>
    writeFile_agrees like.toLook disks output ls

theorem wc_agrees (serves : Serves K Safe Fit) {args : List String}
    (fits : ∀ name ∈ operands args, name ≠ "-" → Fit name) :
    K.Agrees (Wc.run args) (Wc.run args) := by
  refine options_bind_agrees fun o read => ?_
  rw [← read] at fits
  dsimp only
  split
  · exact .bind (readOperand_agrees serves.toOffers fun other => absurd rfl other) fun _ =>
      .bind (writeLines_agrees serves _) fun _ => .pure _
  · exact tryOperands_agrees serves.toOffers fits fun _ admitted =>
      .bind (writeLines_agrees serves _) fun _ => settle_agrees (readings_borne admitted)

/-- The applications that pass on what their operands hold. -/
def filters : List Application := [.cat, .cut, .echo, .grep, .paste, .sort, .uniq, .wc]

/-- All that a filter does to a session is to read its input and its operands and
to write to its output, if `uniq` is given no output of its own. -/
theorem filter_agrees (serves : Serves K Safe Fit) {app : Application} (filters : app ∈ filters)
    {args : List String} (single : app = .uniq → (operands args).length ≤ 1)
    (fits : ∀ name ∈ operands args, name ≠ "-" → Fit name) :
    K.Agrees (app.run args) (app.run args) := by
  cases app with
  | cat => exact cat_agrees serves fits
  | cut => exact cut_agrees serves fits
  | echo => exact echo_agrees serves args
  | grep => exact grep_agrees serves fits
  | paste => exact paste_agrees serves fits
  | sort => exact sort_agrees serves fits
  | uniq =>
    refine uniq_agrees_of_writes serves fits fun input output given _ => ?_
    have few := single rfl
    rw [given] at few
    exact absurd few (by simp)
  | wc => exact wc_agrees serves fits
  | _ => exact absurd filters (by decide)

/-- The applications that only read files. -/
def readers : List Application := [.cat, .cut, .echo, .exit, .grep, .ls, .paste, .sort, .wc]

/-- What a reader may do to a session is to read its input and write to its
output. -/
theorem reader_agrees (like : K.Like) {app : Application} (reads : app ∈ readers)
    (args : List String) : K.Agrees (app.run args) (app.run args) := by
  have filtered (app : Application) (filters : app ∈ filters) (other : app ≠ .uniq) :
      K.Agrees (app.run args) (app.run args) :=
    filter_agrees (like_serves like) filters (fun same => absurd same other) fun _ _ _ => trivial
  cases app with
  | exit => exact exit_agrees args
  | ls => exact ls_agrees like args
  | cd | cp | mv | rm | tee | uniq => exact absurd reads (by decide)
  | _ => exact filtered _ (by decide) (by decide)

/-- From related sessions an application ends with the same result in related
sessions. -/
theorem run_agrees (like : K.Like) (disks : DiskFree K.Rel) (cwds : CwdFree K.Rel)
    (journal : JournalFree K.Rel) (may : K.May .endless) (app : Application) (args : List String) :
    K.Agrees (app.run args) (app.run args) := by
  cases app with
  | cd => exact cd_agrees like.toLook journal cwds args
  | cp => exact cp_agrees like.toLook disks args
  | mv => exact mv_agrees like.toLook disks args
  | rm => exact rm_agrees like.toLook disks args
  | tee => exact tee_agrees like disks may args
  | uniq => exact uniq_agrees like disks args
  | _ => exact reader_agrees like (by decide) args

end LineShell.ApplicationAgreement
