import LineShell.Proofs.AmbientStreams
import LineShell.Proofs.ApplicationAgreement
import LineShell.Proofs.PipeMachine
import Mathlib.Data.List.Infix
import Mathlib.Logic.Relation

/-! Processes that run alone, on an input that is complete from the start and an output
that never has to wait. How much each read gives is open: a process is steady if that
makes no difference to what it writes and what it comes to. Stages that run one after
the other, each on all that the one before has written, are the sequential meaning of
a pipe.

A stage that runs among others has a past, which says what it has read and written so
far. It is relived if the stage could have come as far alone, on any input that begins
with what it has read. -/
namespace LineShell.SoloRuns
open PipeMachine SessionBonds ApplicationAgreement AmbientStreams

variable {σ : Type}

/-- A process that runs alone. -/
structure Solo (σ : Type) where
  state : σ
  source : Source
  outlet : Outlet
  sawEnd : Bool := false

section Runs

variable (next : σ → Move σ) (d : Disk)

/-- One move of a process that runs alone. It never waits. -/
inductive Goes : Solo σ → Solo σ → Prop where
  | read {p most positive f n} (asks : next p.state = .read most positive f) (some_bytes : 0 < n)
      (at_most : n ≤ most) :
      Goes p { p with
        state := f (p.source.read d n).1
        source := (p.source.read d n).2
        sawEnd := p.sawEnd || isEnd (p.source.read d n).1 }
  | write {p b f} (asks : next p.state = .write b f) :
      Goes p { p with state := f (p.outlet.write [b]).2, outlet := (p.outlet.write [b]).1 }
  | flush {p f} (asks : next p.state = .flush f) :
      Goes p { p with state := f p.outlet.flush }

/-- Any number of moves. -/
def Leads : Solo σ → Solo σ → Prop := Relation.ReflTransGen (Goes next d)

/-- The process can come to stop with this result and this output. -/
def Ends (p : Solo σ) (result : Except Failure Outcome) (outlet : Outlet) : Prop :=
  ∃ q, Leads next d p q ∧ next q.state = .stop result ∧ q.outlet = outlet

/-- How reads are cut makes no difference: where a process can come to an end, it can
still come to the same end from wherever it has got to. -/
def Steady (start : σ) : Prop :=
  ∀ source outlet result out, Ends next d { state := start, source, outlet } result out →
    ∀ p, Leads next d { state := start, source, outlet } p → Ends next d p result out

/-- The process does not stop before it has seen the end of its input. -/
def Thorough (start : σ) : Prop :=
  ∀ source outlet p result, Leads next d { state := start, source, outlet } p →
    next p.state = .stop result → p.sawEnd = true

/-- The process can come to stop on every input. -/
def Halts (start : σ) : Prop :=
  ∀ source outlet, ∃ result out, Ends next d { state := start, source, outlet } result out

/-- Processes run one after the other, each but the first on all that the one before has
written; what each came to, and the output of the last one. -/
inductive OneAfterAnother :
    List σ → Source → Outlet → List (Except Failure Outcome) → Outlet → Prop where
  | none {source outlet} : OneAfterAnother [] source outlet [] outlet
  | last {start source outlet result out}
      (ends : Ends next d { state := start, source, outlet } result out) :
      OneAfterAnother [start] source outlet [result] out
  | cons {start second rest source outlet result passed results out}
      (ends : Ends next d { state := start, source, outlet := {} } result passed)
      (later : OneAfterAnother (second :: rest) (.stream passed.taken none) outlet results out) :
      OneAfterAnother (start :: second :: rest) source outlet (result :: results) out

end Runs

variable {next : σ → Move σ} {d : Disk}

theorem leads_of_stop {p q : Solo σ} {result} (stops : next p.state = .stop result)
    (leads : Leads next d p q) : q = p := by
  induction leads with
  | refl => rfl
  | tail _ goes ih =>
    subst ih
    cases goes with
    | read asks _ _ => rw [stops] at asks; cases asks
    | write asks => rw [stops] at asks; cases asks
    | flush asks => rw [stops] at asks; cases asks

/-- A process that has stopped has come to the end that it can come to. -/
theorem ends_of_stop {p : Solo σ} {result result'} {out : Outlet} (stops : next p.state = .stop result)
    (ends : Ends next d p result' out) : result' = result ∧ out = p.outlet := by
  obtain ⟨q, leads, stopped, rfl⟩ := ends
  obtain rfl := leads_of_stop stops leads
  rw [stops] at stopped
  cases stopped
  exact ⟨rfl, rfl⟩

theorem taken_write (p : Outlet) (bs : Bytes) : p.taken <+: (p.write bs).1.taken := by
  simp only [Outlet.write]
  split
  · exact List.prefix_append _ _
  · exact List.prefix_append _ _

/-- What has been written stays written. -/
theorem taken_of_leads {p q : Solo σ} (leads : Leads next d p q) :
    p.outlet.taken <+: q.outlet.taken := by
  induction leads with
  | refl => exact List.prefix_rfl
  | tail _ goes ih =>
    cases goes with
    | read | flush => exact ih
    | write => exact ih.trans (taken_write _ _)

/-- Processes that can each come to stop can do so one after the other. -/
theorem oneAfterAnother_of_halts {starts : List σ} (halts : ∀ start ∈ starts, Halts next d start)
    (source : Source) (outlet : Outlet) :
    ∃ results out, OneAfterAnother next d starts source outlet results out := by
  induction starts generalizing source with
  | nil => exact ⟨[], outlet, .none⟩
  | cons start rest ih =>
    obtain ⟨halts_here, halts_later⟩ := List.forall_mem_cons.mp halts
    cases rest with
    | nil =>
      obtain ⟨result, out, ends⟩ := halts_here source outlet
      exact ⟨[result], out, .last ends⟩
    | cons second rest =>
      obtain ⟨result, passed, ends⟩ := halts_here source {}
      obtain ⟨results, out, later⟩ := ih halts_later (.stream passed.taken none)
      exact ⟨result :: results, out, .cons ends later⟩

/-- A process comes to what can be told of it at any time, if no move changes that and
some move always brings it nearer to its end. -/
theorem ends_of_forecast {forecast : Solo σ → Except Failure Outcome × Outlet} {left : Solo σ → Nat}
    (stops : ∀ p result, next p.state = .stop result → forecast p = (result, p.outlet))
    (keeps : ∀ p q, Goes next d p q → forecast q = forecast p)
    (goes : ∀ p, (∃ result, next p.state = .stop result) ∨ ∃ q, Goes next d p q ∧ left q < left p)
    (p : Solo σ) : Ends next d p (forecast p).1 (forecast p).2 := by
  induction bound : left p using Nat.strong_induction_on generalizing p with
  | _ k ih =>
    rcases goes p with ⟨result, stopped⟩ | ⟨q, goes, less⟩
    · rw [stops p result stopped]
      exact ⟨p, .refl, stopped, rfl⟩
    · obtain ⟨r, leads, stopped, out⟩ := ih (left q) (bound ▸ less) q rfl
      rw [keeps p q goes] at stopped out
      exact ⟨r, .head goes leads, stopped, out⟩

theorem forecast_of_leads {forecast : Solo σ → Except Failure Outcome × Outlet}
    (keeps : ∀ p q, Goes next d p q → forecast q = forecast p) {p q : Solo σ}
    (leads : Leads next d p q) : forecast q = forecast p := by
  induction leads with
  | refl => rfl
  | tail _ goes ih => rw [keeps _ _ goes, ih]

theorem steady_of_forecast {forecast : Solo σ → Except Failure Outcome × Outlet} {left : Solo σ → Nat}
    (stops : ∀ p result, next p.state = .stop result → forecast p = (result, p.outlet))
    (keeps : ∀ p q, Goes next d p q → forecast q = forecast p)
    (goes : ∀ p, (∃ result, next p.state = .stop result) ∨ ∃ q, Goes next d p q ∧ left q < left p)
    (start : σ) : Steady next d start := by
  rintro source outlet result out ⟨a, leads, stopped, rfl⟩ p begun
  have ends := ends_of_forecast stops keeps goes p
  have same : forecast p = (result, a.outlet) := by
    rw [forecast_of_leads keeps begun, ← forecast_of_leads keeps leads, stops a result stopped]
  rwa [same] at ends

/-! Reads of a source. -/

/-- What a read says where a source ends. -/
def endAnswer (fault : Option IoError) : Except IoError Bytes := fault.elim (.ok []) .error

theorem isEnd_endAnswer (fault : Option IoError) : isEnd (endAnswer fault) = true := by
  cases fault <;> rfl

theorem isEnd_chunk {chunk : Bytes} (some : chunk ≠ []) : isEnd (.ok chunk) = false := by
  simpa [isEnd] using some

theorem read_end {source : Source} (empty : source.held d = []) (n : Nat) :
    source.read d n = (endAnswer source.fault, source) := by
  simp only [Source.read, empty, List.take_nil, List.isEmpty_nil, if_true, endAnswer]
  cases source.fault <;> rfl

theorem read_chunk {source : Source} {chunk more : Bytes} (some : chunk ≠ [])
    (held : source.held d = chunk ++ more) :
    source.read d chunk.length = (.ok chunk, source.skip chunk.length) := by
  have taken : (source.held d).take chunk.length = chunk := by simp [held]
  simp [Source.read, taken, some]

/-- A read gives some bytes, or finds the end. -/
theorem read_cases (source : Source) {n : Nat} (some_bytes : 0 < n) :
    source.held d = [] ∧ source.read d n = (endAnswer source.fault, source) ∨
    ∃ chunk more, chunk ≠ [] ∧ chunk.length ≤ n ∧ source.held d = chunk ++ more ∧
      source.read d n = (.ok chunk, source.skip chunk.length) := by
  by_cases empty : source.held d = []
  · exact .inl ⟨empty, read_end empty n⟩
  · have chunk_some : (source.held d).take n ≠ [] := by
      simp only [ne_eq, List.take_eq_nil_iff, not_or]
      exact ⟨by omega, empty⟩
    refine .inr ⟨(source.held d).take n, (source.held d).drop n, chunk_some, List.length_take_le _ _,
      (List.take_append_drop _ _).symm, ?_⟩
    simp [Source.read, chunk_some]

/-! Pasts. -/

/-- What a stage has done up to the first write that nobody was left to read, and what
it has read after that. -/
structure Past (σ : Type) where
  state : σ
  read : Bytes := []
  outlet : Outlet
  sawEnd : Bool := false
  refused : Bool := false
  lost : Bytes := []

/-- All that the stage has read. -/
def Past.seen (past : Past σ) : Bytes := past.read ++ past.lost

/-- The source gives first what the past has read. If the past has seen the end, the
source has no more and ends the same way. -/
def Begins (d : Disk) (past : Past σ) (fault : Option IoError) (source : Source) : Prop :=
  ∃ more, source.held d = past.read ++ more ∧
    (past.sawEnd = true → more = [] ∧ source.fault = fault)

/-- How far the past has come on a source that begins with what it has read. -/
def Past.alone (past : Past σ) (source : Source) : Solo σ :=
  { state := past.state, source := source.skip past.read.length, outlet := past.outlet,
    sawEnd := past.sawEnd }

/-- The stage could have come as far alone. -/
def Relived (next : σ → Move σ) (d : Disk) (start : σ) (outlet : Outlet) (fault : Option IoError)
    (past : Past σ) : Prop :=
  ∀ source, Begins d past fault source →
    Leads next d { state := start, source, outlet } (past.alone source)

variable {start : σ} {outlet : Outlet} {fault : Option IoError} {past : Past σ}

theorem relived_start (next : σ → Move σ) (d : Disk) (start : σ) (outlet : Outlet)
    (fault : Option IoError) : Relived next d start outlet fault { state := start, outlet } := by
  intro source _
  rw [Past.alone, List.length_nil, skip_zero]
  exact .refl

/-- Some bytes of the input have been read. -/
theorem Relived.chunk {most : Nat} {positive : 0 < most} {f} {chunk : Bytes}
    (relived : Relived next d start outlet fault past)
    (asks : next past.state = .read most positive f) (some : chunk ≠ []) (at_most : chunk.length ≤ most)
    (unended : past.sawEnd = false) :
    Relived next d start outlet fault
      { past with state := f (.ok chunk), read := past.read ++ chunk } := by
  rintro source ⟨more, held, -⟩
  have began : Begins d past fault source :=
    ⟨chunk ++ more, by rw [held, List.append_assoc], by simp [unended]⟩
  have ahead : (past.alone source).source.held d = chunk ++ more := by
    simp [Past.alone, held_skip, held]
  have goes : Goes next d (past.alone source) _ :=
    .read asks (List.length_pos_iff.mpr some) at_most
  rw [read_chunk some ahead] at goes
  refine (relived source began).tail ?_
  simpa [Past.alone, skip_skip, isEnd_chunk some] using goes

/-- The end of the input has been found. -/
theorem Relived.atEnd {most : Nat} {positive : 0 < most} {f}
    (relived : Relived next d start outlet fault past)
    (asks : next past.state = .read most positive f) :
    Relived next d start outlet fault
      { past with state := f (endAnswer fault), sawEnd := true } := by
  rintro source ⟨more, held, ended⟩
  obtain ⟨rfl, faulty⟩ := ended rfl
  have began : Begins d past fault source := ⟨[], held, fun _ => ⟨rfl, faulty⟩⟩
  have ahead : (past.alone source).source.held d = [] := by
    simp [Past.alone, held_skip, held]
  have goes : Goes next d (past.alone source) _ := .read asks positive le_rfl
  rw [read_end ahead] at goes
  refine (relived source began).tail ?_
  simpa [Past.alone, fault_skip, faulty, isEnd_endAnswer] using goes

theorem Relived.write {b : UInt8} {f} (relived : Relived next d start outlet fault past)
    (asks : next past.state = .write b f) :
    Relived next d start outlet fault
      { past with state := f (past.outlet.write [b]).2, outlet := (past.outlet.write [b]).1 } := by
  intro source began
  exact (relived source began).tail (.write asks)

theorem Relived.flush {f} (relived : Relived next d start outlet fault past)
    (asks : next past.state = .flush f) :
    Relived next d start outlet fault { past with state := f past.outlet.flush } := by
  intro source began
  exact (relived source began).tail (.flush asks)

/-- A stage whose past has come to stop has ended as it does alone. -/
theorem Relived.ends {source : Source} {result} (relived : Relived next d start outlet fault past)
    (began : Begins d past fault source) (stops : next past.state = .stop result) :
    Ends next d { state := start, source, outlet } result past.outlet :=
  ⟨past.alone source, relived source began, stops, rfl⟩

/-- What a steady process has written in its past is the beginning of all that it writes. -/
theorem Relived.taken {source : Source} {result} {out : Outlet} (steady : Steady next d start)
    (relived : Relived next d start outlet fault past) (began : Begins d past fault source)
    (ends : Ends next d { state := start, source, outlet } result out) :
    past.outlet.taken <+: out.taken := by
  obtain ⟨q, leads, -, rfl⟩ := steady source outlet result out ends _ (relived source began)
  exact taken_of_leads leads

/-- If the past has come to stop, that is all. -/
theorem Relived.ended {source : Source} {result result'} {out : Outlet} (steady : Steady next d start)
    (relived : Relived next d start outlet fault past) (began : Begins d past fault source)
    (stops : next past.state = .stop result)
    (ends : Ends next d { state := start, source, outlet } result' out) :
    result' = result ∧ out = past.outlet :=
  ends_of_stop (p := past.alone source) stops
    (steady source outlet result' out ends _ (relived source began))

end LineShell.SoloRuns
