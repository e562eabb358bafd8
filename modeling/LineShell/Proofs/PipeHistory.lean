import LineShell.Proofs.SoloRuns

/-! What the stages of a pipe have behind them, however they were scheduled. Each stage
has a past that it could have had alone. The pasts fit together: what a stage has read
is what the one before has written, less what the pipe between them holds; a stage has
seen the end of its input only after the one before has stopped and the pipe is empty;
and a write was refused only after the next stage has stopped. Every move of a stage
adds to its own past and leaves those of the others as they are. -/
namespace LineShell.PipeHistory
open PipeMachine SoloRuns SessionBonds ApplicationAgreement AmbientStreams

variable {σ : Type} {next : σ → Move σ} {d : Disk} {capacity : Nat → Nat}

/-! What has gone through the pipes. -/

section Links

variable (d) (source : Source) (size : Nat) (m : Machine σ) (past : Nat → Past σ)

/-- What a stage with this past has read came from its input: from the session's for the
first stage, and from what the stage before has written for the others. -/
def Drawn (p : Past σ) : Nat → Prop
  | 0 => m.source = source.skip p.seen.length ∧ source.held d = p.seen ++ m.source.held d
  | i + 1 => (past i).outlet = { taken := p.seen ++ m.held i }

/-- What a stage with this past has written was read by the next one or is still in
the pipe; what the last stage has written is in the session's output. -/
def Sent (p : Past σ) (i : Nat) : Prop :=
  if i + 1 < size then p.outlet = { taken := (past (i + 1)).seen ++ m.held i }
  else p.outlet = m.outlet

/-- The stage's input has ended for good. -/
def Drained : Nat → Prop
  | 0 => m.source.held d = []
  | i + 1 => ¬ m.Running i ∧ (past i).refused = false ∧ m.held i = []

end Links

/-- What a past says of the stage as it is now. -/
structure Tells (next : σ → Move σ) (past : Past σ) (stage : Stage σ) : Prop where
  state : past.refused = false → past.state = stage.state
  sawEnd : past.refused = false → past.sawEnd = stage.sawEnd
  lost : past.refused = false → past.lost = []
  ended : past.sawEnd = true → stage.sawEnd = true ∧ past.lost = []
  result : ∀ result, stage.result = some result → past.refused = false →
    next past.state = .stop result

/-- What a stage finds in its output before its first move. -/
def firstOutlet (outlet : Outlet) (size i : Nat) : Outlet := if i + 1 < size then {} else outlet

/-- The failure that stands for the end of a stage's input. -/
def faultAt (source : Source) : Nat → Option IoError
  | 0 => source.fault
  | _ + 1 => none

section Story

variable (next d) (source : Source) (outlet : Outlet) (size : Nat) (m : Machine σ) (past : Nat → Past σ)

/-- The past of one stage among those of the others. -/
structure Chapter (i : Nat) (start : σ) (stage : Stage σ) : Prop where
  relived : Relived next d start (firstOutlet outlet size i) (faultAt source i) (past i)
  tells : Tells next (past i) stage
  drawn : Drawn d source m past (past i) i
  sent : Sent size m past (past i) i
  drained : stage.sawEnd = true → Drained d m past i
  refused : (past i).refused = true → i + 1 < size ∧ ¬ m.Running (i + 1)

end Story

/-- The pasts of all stages fit together. -/
structure Story (next : σ → Move σ) (d : Disk) (starts : List σ) (source : Source) (outlet : Outlet)
    (m : Machine σ) (past : Nat → Past σ) : Prop where
  wired : Wired starts.length m
  chapter : ∀ i start stage, starts[i]? = some start → m.stages[i]? = some stage →
    Chapter next d source outlet starts.length m past i start stage

variable {starts : List σ} {source : Source} {outlet : Outlet} {m : Machine σ} {past : Nat → Past σ}

/-- The pasts before the first move. -/
def fresh (starts : List σ) (outlet : Outlet) (default : σ) (i : Nat) : Past σ :=
  { state := starts[i]?.getD default, outlet := firstOutlet outlet starts.length i }

theorem wire_story (next : σ → Move σ) (d : Disk) (starts : List σ) (source : Source) (outlet : Outlet)
    (default : σ) :
    Story next d starts source outlet (wire starts source outlet) (fresh starts outlet default) where
  wired := wire_wired starts source outlet
  chapter := by
    intro i start stage begins found
    have within : i < starts.length := (List.getElem?_eq_some_iff.mp begins).1
    rw [wire_getElem?, begins] at found
    cases found
    have state : (fresh starts outlet default i).state = start := by simp [fresh, begins]
    refine ⟨?_, ⟨fun _ => state, fun _ => rfl, fun _ => rfl, nofun, nofun⟩, ?_, ?_, nofun, nofun⟩
    · have relived := relived_start next d start (firstOutlet outlet starts.length i) (faultAt source i)
      rw [fresh, begins]
      exact relived
    · cases i with
      | zero => exact ⟨(skip_zero source).symm, rfl⟩
      | succ i =>
        rw [Drawn, fresh, firstOutlet, if_pos within]
        rfl
    · rw [Sent, fresh, firstOutlet]
      split
      · rfl
      · rfl

theorem Story.chapterAt (story : Story next d starts source outlet m past) {i : Nat}
    (within : i < starts.length) :
    ∃ start stage, starts[i]? = some start ∧ m.stages[i]? = some stage ∧
      Chapter next d source outlet starts.length m past i start stage := by
  have there : i < m.stages.length := by
    rw [story.wired.length]
    exact within
  have begins := List.getElem?_eq_getElem within
  have found := List.getElem?_eq_getElem there
  exact ⟨_, _, begins, found, story.chapter i _ _ begins found⟩

/-- A stage before the last one could have come as far on an output of its own. -/
theorem Chapter.inner {size i : Nat} {start : σ} {stage : Stage σ}
    (chapter : Chapter next d source outlet size m past i start stage) (within : i + 1 < size) :
    Relived next d start {} (faultAt source i) (past i) := by
  have relived := chapter.relived
  rwa [firstOutlet, if_pos within] at relived

/-- The last stage has come as far on the session's output, and was never refused. -/
theorem Chapter.last {size i : Nat} {start : σ} {stage : Stage σ}
    (chapter : Chapter next d source outlet size m past i start stage) (last : ¬ i + 1 < size) :
    Relived next d start outlet (faultAt source i) (past i) ∧ (past i).outlet = m.outlet ∧
      (past i).refused = false := by
  have relived := chapter.relived
  have sent := chapter.sent
  rw [firstOutlet, if_neg last] at relived
  rw [Sent, if_neg last] at sent
  refine ⟨relived, sent, ?_⟩
  by_contra was
  exact last (chapter.refused (by simpa using was)).1

/-- The rest of the machine, but for the streams of one stage. -/
structure Nearby (size i : Nat) (m m₁ : Machine σ) : Prop where
  stages : m₁.stages = m.stages
  source : i ≠ 0 → m₁.source = m.source
  held : ∀ j, j ≠ i → j + 1 ≠ i → m₁.held j = m.held j
  outlet : i + 1 < size → m₁.outlet = m.outlet

theorem Nearby.running {size i : Nat} {m₁ : Machine σ} (nearby : Nearby size i m m₁) (j : Nat) :
    m₁.Running j ↔ m.Running j := by
  rw [Machine.Running, Machine.Running, nearby.stages]

/-- No stage starts again. -/
theorem running_put {i j : Nat} {stage stage' : Stage σ} (found : m.stages[i]? = some stage)
    (running : stage.result = none) (later : (m.put i stage').Running j) : m.Running j := by
  obtain ⟨other, there, unfinished⟩ := later
  obtain ⟨rfl, -⟩ | ⟨-, there⟩ := put_cases there
  · exact ⟨stage, found, running⟩
  · exact ⟨other, there, unfinished⟩

/-- An input that has ended stays so while the stage before it and the pipe do not change. -/
theorem Drained.keep {i : Nat} {m' : Machine σ} {past' : Nat → Past σ} (drained : Drained d m past i)
    (source : i = 0 → m'.source = m.source)
    (before : ∀ j, j + 1 = i → (m'.Running j → m.Running j) ∧
      (past' j).refused = (past j).refused ∧ m'.held j = m.held j) : Drained d m' past' i := by
  cases i with
  | zero =>
    rw [Drained, source rfl]
    exact drained
  | succ i =>
    obtain ⟨stopped, unrefused, empty⟩ := drained
    obtain ⟨running, refused, held⟩ := before i rfl
    exact ⟨fun later => stopped (running later), refused.trans unrefused, held.trans empty⟩

/-- A stage's own past says nothing of its neighbours. -/
theorem drawn_update {i : Nat} {p q : Past σ} :
    Drawn d source m (Function.update past i p) q i ↔ Drawn d source m past q i := by
  cases i with
  | zero => exact Iff.rfl
  | succ i => simp [Drawn]

theorem sent_update {size i : Nat} {p q : Past σ} :
    Sent size m (Function.update past i p) q i ↔ Sent size m past q i := by
  simp [Sent]

/-- A move of one stage changes its own past; those of the others still fit. -/
theorem Story.put {i : Nat} {start : σ} {stage stage' : Stage σ} {p : Past σ} {m₁ : Machine σ}
    (story : Story next d starts source outlet m past) (begins : starts[i]? = some start)
    (found : m.stages[i]? = some stage) (running : stage.result = none)
    (nearby : Nearby starts.length i m m₁) (holds : Holds starts.length i stage')
    (relived : Relived next d start (firstOutlet outlet starts.length i) (faultAt source i) p)
    (tells : Tells next p stage') (drawn : Drawn d source m₁ past p i)
    (sent : Sent starts.length m₁ past p i) (drained : stage'.sawEnd = true → Drained d m₁ past i)
    (refused : p.refused = true → i + 1 < starts.length ∧ ¬ m.Running (i + 1)) :
    Story next d starts source outlet (m₁.put i stage') (Function.update past i p) where
  wired := (story.wired.of_stages nearby.stages).put holds
  chapter := by
    have found₁ : m₁.stages[i]? = some stage := by rw [nearby.stages, found]
    have shrinks (j : Nat) (later : (m₁.put i stage').Running j) : m.Running j :=
      (nearby.running j).mp (running_put found₁ running later)
    intro j start' other begins' found'
    have within : j < starts.length := (List.getElem?_eq_some_iff.mp begins').1
    obtain ⟨rfl, rfl⟩ | ⟨apart, found'⟩ := put_cases found'
    · -- the stage that has moved
      rw [begins] at begins'
      cases begins'
      rw [← Function.update_self j p past] at relived tells drawn sent refused
      refine ⟨relived, tells, drawn_update.mpr drawn, sent_update.mpr sent, fun saw => ?_,
        fun was => ⟨(refused was).1, fun later => (refused was).2 (shrinks _ later)⟩⟩
      refine (drained saw).keep (fun _ => rfl) fun k before => ⟨?_, ?_, rfl⟩
      · exact running_put found₁ running
      · rw [Function.update_of_ne (by omega)]
    · -- another one
      rw [nearby.stages] at found'
      have chapter := story.chapter j start' other begins' found'
      have same : Function.update past i p j = past j := Function.update_of_ne apart _ _
      refine ⟨by rw [same]; exact chapter.relived, by rw [same]; exact chapter.tells, ?_, ?_, ?_, ?_⟩
      · rw [same]
        have drawn' := chapter.drawn
        cases j with
        | zero =>
          rw [Drawn] at drawn' ⊢
          rw [← nearby.source (Ne.symm apart)] at drawn'
          exact drawn'
        | succ j =>
          by_cases next_to : j = i
          · subst next_to
            rw [Sent, if_pos within] at sent
            rw [Drawn, Function.update_self]
            exact sent
          · rw [Drawn, ← nearby.held j next_to apart] at drawn'
            rw [Drawn, Function.update_of_ne next_to]
            exact drawn'
      · rw [same]
        have sent' := chapter.sent
        rw [Sent] at sent' ⊢
        split
        · rename_i between
          rw [if_pos between] at sent'
          by_cases next_to : j + 1 = i
          · subst next_to
            rw [Function.update_self]
            exact drawn
          · rw [Function.update_of_ne next_to, sent']
            exact congrArg (fun held => ({ taken := _ ++ held } : Outlet))
              (nearby.held j apart next_to).symm
        · rename_i last
          rw [if_neg last] at sent'
          have inner : i + 1 < starts.length := by
            have := (List.getElem?_eq_some_iff.mp begins).1
            omega
          rw [sent']
          exact (nearby.outlet inner).symm
      · intro saw
        -- the stage before `j` has stopped, so it is not the one that has moved
        have gone := chapter.drained saw
        refine gone.keep (fun first => nearby.source (first ▸ Ne.symm apart)) fun k before => ?_
        subst before
        have other_than : k ≠ i := fun eq => gone.1 (eq ▸ ⟨stage, found, running⟩)
        refine ⟨shrinks k, ?_, nearby.held k other_than apart⟩
        rw [Function.update_of_ne other_than]
      · rw [same]
        intro was
        exact ⟨(chapter.refused was).1, fun later => (chapter.refused was).2 (shrinks _ later)⟩

/-- What a stage can find at its input: bytes that its past has not seen, or an end that
lasts. -/
inductive Reading (d : Disk) (source : Source) (size : Nat) (m : Machine σ) (past : Nat → Past σ)
    (i n : Nat) (stage : Stage σ) : Except IoError Bytes → Machine σ → Prop where
  | chunk {chunk : Bytes} {m₁ : Machine σ} (some : chunk ≠ []) (at_most : chunk.length ≤ n)
      (unended : stage.sawEnd = false) (nearby : Nearby size i m m₁) (held : m₁.held i = m.held i)
      (outlet : m₁.outlet = m.outlet)
      (drawn : ∀ p : Past σ, p.seen = (past i).seen ++ chunk → Drawn d source m₁ past p i) :
      Reading d source size m past i n stage (.ok chunk) m₁
  | atEnd (drained : Drained d m past i) :
      Reading d source size m past i n stage (endAnswer (faultAt source i)) m

variable {i n : Nat} {start : σ} {stage : Stage σ} {m₁ : Machine σ}

theorem read_first {answer} (found : Chapter next d source outlet starts.length m past 0 start stage)
    (some_bytes : 0 < n) (got : m.read d n .ambient = some (answer, m₁)) :
    Reading d source starts.length m past 0 n stage answer m₁ := by
  obtain ⟨skipped, held⟩ := found.drawn
  simp only [Machine.read, Option.some.injEq, Prod.mk.injEq] at got
  obtain ⟨rfl, rfl⟩ := got
  rcases read_cases m.source some_bytes (d := d) with
    ⟨empty, read⟩ | ⟨chunk, more, some, at_most, ahead, read⟩
  · have fault : m.source.fault = faultAt source 0 := by rw [skipped, fault_skip, faultAt]
    rw [read, fault]
    exact .atEnd empty
  · have unended : stage.sawEnd = false := by
      by_contra saw
      have empty : m.source.held d = [] := found.drained (by simpa using saw)
      rw [empty] at ahead
      exact some (List.append_eq_nil_iff.mp ahead.symm).1
    rw [read]
    have nearby : Nearby starts.length 0 m { m with source := m.source.skip chunk.length } :=
      ⟨rfl, fun apart => absurd rfl apart, fun _ _ _ => rfl, fun _ => rfl⟩
    refine .chunk some at_most unended nearby rfl rfl ?_
    intro p seen
    constructor
    · rw [seen, List.length_append, ← skip_skip, ← skipped]
    · rw [seen, held_skip, held, ahead, List.append_assoc, List.drop_left]

theorem read_pipe {answer} (story : Story next d starts source outlet m past)
    (found : Chapter next d source outlet starts.length m past (i + 1) start stage)
    (running : m.Running (i + 1)) (within : i + 1 < starts.length)
    (before : ∃ start' stage', Chapter next d source outlet starts.length m past i start' stage')
    (some_bytes : 0 < n) (got : m.read d n (.pipe i) = some (answer, m₁)) :
    Reading d source starts.length m past (i + 1) n stage answer m₁ := by
  have drawn := found.drawn
  simp only [Machine.read] at got
  split at got
  · rename_i empty
    split at got
    · cases got
    · rename_i gone
      cases got
      have stopped : ¬ m.Running i := fun writes => gone ((hasWriter_iff story.wired within).mpr writes)
      have unrefused : (past i).refused = false := by
        obtain ⟨start', stage', chapter⟩ := before
        by_contra was
        exact (chapter.refused (by simpa using was)).2 running
      exact .atEnd ⟨stopped, unrefused, empty⟩
  · rename_i some
    cases got
    have unended : stage.sawEnd = false := by
      by_contra saw
      exact some (found.drained (by simpa using saw)).2.2
    refine .chunk ?_ (List.length_take_le _ _) unended ⟨rfl, fun _ => rfl, ?_, fun _ => rfl⟩ ?_ rfl ?_
    · simp only [ne_eq, List.take_eq_nil_iff, not_or]
      exact ⟨by omega, some⟩
    · intro j _ apart
      exact Function.update_of_ne (by omega) _ _
    · exact Function.update_of_ne (by omega) _ _
    · intro p seen
      rw [Drawn] at drawn ⊢
      simp only [drawn, seen, Function.update_self, List.append_assoc, List.take_append_drop]

theorem read_found {answer} (story : Story next d starts source outlet m past)
    (begins : starts[i]? = some start) (found : m.stages[i]? = some stage)
    (running : stage.result = none) (some_bytes : 0 < n)
    (got : m.read d n stage.input = some (answer, m₁)) :
    Reading d source starts.length m past i n stage answer m₁ := by
  have chapter := story.chapter i start stage begins found
  have within : i < starts.length := (List.getElem?_eq_some_iff.mp begins).1
  rw [(story.wired.ends found running).1] at got
  cases i with
  | zero => exact read_first chapter some_bytes got
  | succ i =>
    obtain ⟨_, _, -, -, before⟩ := story.chapterAt (Nat.lt_of_succ_lt within)
    exact read_pipe story chapter ⟨stage, found, running⟩ within ⟨_, _, before⟩ some_bytes got

/-- What can become of a byte that a stage writes: its past takes it as an output would,
or nobody is left to read it. -/
inductive Writing (size : Nat) (m : Machine σ) (past : Nat → Past σ) (i : Nat) (b : UInt8) :
    Option IoError → Machine σ → Prop where
  | taken {m₁ : Machine σ} (unrefused : (past i).refused = false) (nearby : Nearby size i m m₁)
      (source : m₁.source = m.source) (held : ∀ j, j + 1 = i → m₁.held j = m.held j)
      (sent : ∀ p : Past σ, p.outlet = ((past i).outlet.write [b]).1 → Sent size m₁ past p i) :
      Writing size m past i b ((past i).outlet.write [b]).2 m₁
  | refused (between : i + 1 < size) (gone : ¬ m.Running (i + 1)) :
      Writing size m past i b (some brokenPipe) m

theorem write_found {b : UInt8} {answer} (story : Story next d starts source outlet m past)
    (begins : starts[i]? = some start) (found : m.stages[i]? = some stage)
    (running : stage.result = none) (got : m.write capacity b stage.output = some (answer, m₁)) :
    Writing starts.length m past i b answer m₁ := by
  have chapter := story.chapter i start stage begins found
  rw [(story.wired.ends found running).2, outputEnd] at got
  split at got
  · rename_i between
    have sent := chapter.sent
    rw [Sent, if_pos between] at sent
    simp only [Machine.write] at got
    split at got
    · rename_i gone
      cases got
      refine .refused between fun reads => ?_
      rw [(hasReader_iff story.wired i).mpr reads] at gone
      cases gone
    · rename_i reader
      have reads : m.Running (i + 1) := (hasReader_iff story.wired i).mp (by simpa using reader)
      have unrefused : (past i).refused = false := by
        by_contra was
        exact (chapter.refused (by simpa using was)).2 reads
      split at got
      · cases got
        have passed : (past i).outlet.write [b] =
            ({ taken := (past (i + 1)).seen ++ (m.held i ++ [b]) }, none) := by
          rw [sent]
          simp [Outlet.write]
        have nearby : Nearby starts.length i m
            { m with held := Function.update m.held i (m.held i ++ [b]) } :=
          ⟨rfl, fun _ => rfl, fun j apart _ => Function.update_of_ne apart _ _, fun _ => rfl⟩
        have written : Writing starts.length m past i b ((past i).outlet.write [b]).2
            { m with held := Function.update m.held i (m.held i ++ [b]) } := by
          refine .taken unrefused nearby rfl (fun j before => Function.update_of_ne (by omega) _ _) ?_
          intro p out
          rw [Sent, if_pos between, out, passed]
          simp
        rw [passed] at written
        exact written
      · cases got
  · rename_i last
    obtain ⟨-, sent, unrefused⟩ := chapter.last last
    simp only [Machine.write, Option.some.injEq, Prod.mk.injEq] at got
    obtain ⟨rfl, rfl⟩ := got
    rw [← sent]
    refine .taken unrefused ⟨rfl, fun _ => rfl, fun _ _ _ => rfl, fun inner => absurd inner last⟩ rfl
      (fun _ _ => rfl) ?_
    intro p out
    rw [Sent, if_neg last, out]

/-! Every move adds to the pasts. -/

theorem Nearby.refl (size i : Nat) (m : Machine σ) : Nearby size i m m :=
  ⟨rfl, fun _ => rfl, fun _ _ _ => rfl, fun _ => rfl⟩

theorem Drawn.congr {p q : Past σ} (drawn : Drawn d source m past p i) (same : m₁.source = m.source)
    (held : ∀ j, j + 1 = i → m₁.held j = m.held j) (seen : q.seen = p.seen) :
    Drawn d source m₁ past q i := by
  cases i with
  | zero =>
    rw [Drawn, same, seen]
    exact drawn
  | succ i =>
    rw [Drawn, held i rfl, seen]
    exact drawn

theorem Sent.congr {size : Nat} {p q : Past σ} (sent : Sent size m past p i)
    (held : m₁.held i = m.held i) (same : m₁.outlet = m.outlet) (out : q.outlet = p.outlet) :
    Sent size m₁ past q i := by
  rw [Sent, held, same, out]
  exact sent

theorem Drained.congr (drained : Drained d m past i) (nearby : Nearby starts.length i m m₁)
    (same : m₁.source = m.source) (held : ∀ j, j + 1 = i → m₁.held j = m.held j) :
    Drained d m₁ past i :=
  drained.keep (fun _ => same) fun j before => ⟨(nearby.running j).mp, rfl, held j before⟩

/-- Of a stage that was refused a past only tells what it has missed. -/
theorem Tells.of_refused {p : Past σ} (was : p.refused = true)
    (ended : p.sawEnd = true → stage.sawEnd = true ∧ p.lost = []) : Tells next p stage :=
  ⟨by simp [was], by simp [was], by simp [was], ended, by simp [was]⟩

/-- A stage that still follows its past. -/
theorem Tells.of_state {p : Past σ} {state : σ} (tells : Tells next (past i) stage)
    (unrefused : (past i).refused = false) (running : stage.result = none)
    (same : p.state = state) (sawEnd : p.sawEnd = (past i).sawEnd) (lost : p.lost = (past i).lost) :
    Tells next p { stage with state } where
  state := fun _ => same
  sawEnd := fun _ => sawEnd.trans (tells.sawEnd unrefused)
  lost := fun _ => lost.trans (tells.lost unrefused)
  ended := by
    intro saw
    rw [sawEnd] at saw
    exact ⟨(tells.ended saw).1, lost.trans (tells.ended saw).2⟩
  result := by simp [running]

theorem step_read {most : Nat} {positive : 0 < most} {f answer}
    (story : Story next d starts source outlet m past) (begins : starts[i]? = some start)
    (found : m.stages[i]? = some stage) (running : stage.result = none)
    (asks : next stage.state = .read most positive f) (at_most : n ≤ most)
    (reading : Reading d source starts.length m past i n stage answer m₁) :
    ∃ past', Story next d starts source outlet
      (m₁.put i { stage with state := f answer, sawEnd := stage.sawEnd || isEnd answer }) past' := by
  have chapter := story.chapter i start stage begins found
  obtain ⟨input, output⟩ := story.wired.ends found running
  have holds (state : σ) (sawEnd : Bool) : Holds starts.length i { stage with state, sawEnd } :=
    holds_of_ends running input output
  have tells := chapter.tells
  by_cases was : (past i).refused = true
  · -- what it reads now it does not need for anything that anybody sees
    cases reading with
    | @chunk chunk _ some fits unended nearby held out drawn =>
      have unseen : (past i).sawEnd = false := by
        by_contra saw
        rw [(tells.ended (by simpa using saw)).1] at unended
        cases unended
      let p : Past σ := { past i with lost := (past i).lost ++ chunk }
      have tells' (state : σ) (sawEnd : Bool) : Tells next p { stage with state, sawEnd } :=
        .of_refused was fun saw => by rw [unseen] at saw; cases saw
      have drawn' : Drawn d source m₁ past p i := drawn p (by simp [p, Past.seen])
      have unended' : (stage.sawEnd || isEnd (.ok chunk)) = false := by
        simp [unended, isEnd_chunk some]
      refine ⟨_, story.put begins found running nearby (holds _ _) (p := p) chapter.relived
        (tells' _ _) drawn' (chapter.sent.congr held out rfl) (fun saw => ?_) chapter.refused⟩
      rw [unended'] at saw
      cases saw
    | atEnd drained =>
      have tells' : Tells next (past i) { stage with
          state := f (endAnswer (faultAt source i))
          sawEnd := stage.sawEnd || isEnd (endAnswer (faultAt source i)) } :=
        .of_refused was fun saw => ⟨by simp [isEnd_endAnswer], (tells.ended saw).2⟩
      exact ⟨_, story.put begins found running (.refl _ _ _) (holds _ _) chapter.relived tells'
        chapter.drawn chapter.sent (fun _ => drained) chapter.refused⟩
  · have unrefused : (past i).refused = false := by simpa using was
    have asks' : next (past i).state = .read most positive f := by rw [tells.state unrefused, asks]
    have lost := tells.lost unrefused
    cases reading with
    | @chunk chunk _ some fits unended nearby held out drawn =>
      have unseen : (past i).sawEnd = false := (tells.sawEnd unrefused).trans unended
      have unended' : (stage.sawEnd || isEnd (.ok chunk)) = false := by
        simp [unended, isEnd_chunk some]
      let p : Past σ := { past i with state := f (.ok chunk), read := (past i).read ++ chunk }
      have relived' := chapter.relived.chunk asks' some (fits.trans at_most) unseen
      have tells' : Tells next p { stage with
          state := f (.ok chunk), sawEnd := stage.sawEnd || isEnd (.ok chunk) } :=
        { state := fun _ => rfl
          sawEnd := fun _ => unseen.trans unended'.symm
          lost := fun _ => lost
          ended := fun saw => by rw [unseen] at saw; cases saw
          result := by simp [running] }
      have drawn' : Drawn d source m₁ past p i := drawn p (by simp [p, Past.seen, lost])
      refine ⟨_, story.put begins found running nearby (holds _ _) (p := p) relived' tells' drawn'
        (chapter.sent.congr held out rfl) (fun saw => ?_) chapter.refused⟩
      rw [unended'] at saw
      cases saw
    | atEnd drained =>
      let p : Past σ := { past i with state := f (endAnswer (faultAt source i)), sawEnd := true }
      have ended' : (stage.sawEnd || isEnd (endAnswer (faultAt source i))) = true := by
        simp [isEnd_endAnswer]
      have tells' : Tells next p { stage with
          state := f (endAnswer (faultAt source i))
          sawEnd := stage.sawEnd || isEnd (endAnswer (faultAt source i)) } :=
        { state := fun _ => rfl
          sawEnd := fun _ => ended'.symm
          lost := fun _ => lost
          ended := fun _ => ⟨ended', lost⟩
          result := by simp [running] }
      exact ⟨_, story.put begins found running (.refl _ _ _) (holds _ _)
        (chapter.relived.atEnd asks') tells' (chapter.drawn.congr rfl (fun _ _ => rfl) rfl)
        (chapter.sent.congr rfl rfl rfl) (fun _ => drained) chapter.refused⟩

theorem step_write {b : UInt8} {f answer} (story : Story next d starts source outlet m past)
    (begins : starts[i]? = some start) (found : m.stages[i]? = some stage)
    (running : stage.result = none) (asks : next stage.state = .write b f)
    (writing : Writing starts.length m past i b answer m₁) :
    ∃ past', Story next d starts source outlet (m₁.put i { stage with state := f answer }) past' := by
  have chapter := story.chapter i start stage begins found
  obtain ⟨input, output⟩ := story.wired.ends found running
  have holds (state : σ) : Holds starts.length i { stage with state } :=
    holds_of_ends running input output
  have tells := chapter.tells
  cases writing with
  | taken unrefused nearby same held sent =>
    have asks' : next (past i).state = .write b f := by rw [tells.state unrefused, asks]
    exact ⟨_, story.put begins found running nearby (holds _)
      (p := { past i with
        state := f ((past i).outlet.write [b]).2, outlet := ((past i).outlet.write [b]).1 })
      (chapter.relived.write asks') (tells.of_state unrefused running rfl rfl rfl)
      (chapter.drawn.congr same held rfl) (sent _ rfl)
      (fun saw => (chapter.drained saw).congr nearby same held) chapter.refused⟩
  | refused between gone =>
    exact ⟨_, story.put begins found running (.refl _ _ _) (holds _)
      (p := { past i with refused := true }) chapter.relived (.of_refused rfl tells.ended)
      (chapter.drawn.congr rfl (fun _ _ => rfl) rfl) (chapter.sent.congr rfl rfl rfl) chapter.drained
      fun _ => ⟨between, gone⟩⟩

/-- A flush comes to what it comes to for the output of the past. -/
theorem flush_found (story : Story next d starts source outlet m past)
    (begins : starts[i]? = some start) (found : m.stages[i]? = some stage)
    (running : stage.result = none) : m.flush stage.output = (past i).outlet.flush := by
  have sent := (story.chapter i start stage begins found).sent
  rw [(story.wired.ends found running).2, outputEnd]
  rw [Sent] at sent
  split
  · rename_i between
    rw [if_pos between] at sent
    rw [sent]
    rfl
  · rename_i last
    rw [if_neg last] at sent
    rw [sent, Machine.flush]

theorem step_flush {f} (story : Story next d starts source outlet m past)
    (begins : starts[i]? = some start) (found : m.stages[i]? = some stage)
    (running : stage.result = none) (asks : next stage.state = .flush f) :
    ∃ past', Story next d starts source outlet
      (m.put i { stage with state := f (m.flush stage.output) }) past' := by
  have chapter := story.chapter i start stage begins found
  obtain ⟨input, output⟩ := story.wired.ends found running
  have holds (state : σ) : Holds starts.length i { stage with state } :=
    holds_of_ends running input output
  have tells := chapter.tells
  rw [flush_found story begins found running]
  by_cases was : (past i).refused = true
  · exact ⟨_, story.put begins found running (.refl _ _ _) (holds _) (p := past i) chapter.relived
      (.of_refused was tells.ended) chapter.drawn chapter.sent chapter.drained chapter.refused⟩
  · have unrefused : (past i).refused = false := by simpa using was
    have asks' : next (past i).state = .flush f := by rw [tells.state unrefused, asks]
    exact ⟨_, story.put begins found running (.refl _ _ _) (holds _)
      (p := { past i with state := f (past i).outlet.flush }) (chapter.relived.flush asks')
      (tells.of_state unrefused running rfl rfl rfl) (chapter.drawn.congr rfl (fun _ _ => rfl) rfl)
      (chapter.sent.congr rfl rfl rfl) chapter.drained chapter.refused⟩

theorem step_stop {result} (story : Story next d starts source outlet m past)
    (begins : starts[i]? = some start) (found : m.stages[i]? = some stage)
    (running : stage.result = none) (asks : next stage.state = .stop result) :
    ∃ past', Story next d starts source outlet
      (m.put i { stage with input := .closed, output := .closed, result := some result }) past' := by
  have chapter := story.chapter i start stage begins found
  have tells := chapter.tells
  refine ⟨_, story.put begins found running (.refl _ _ _) ⟨rfl, rfl⟩ (p := past i) chapter.relived
    ⟨tells.state, tells.sawEnd, tells.lost, tells.ended, ?_⟩ chapter.drawn chapter.sent chapter.drained
    chapter.refused⟩
  intro result' same unrefused
  cases same
  rw [tells.state unrefused, asks]

/-- After every move the stages have pasts that fit together. -/
theorem step_story {m' : Machine σ} (stepped : step next d capacity m i n = some m')
    (story : Story next d starts source outlet m past) :
    ∃ past', Story next d starts source outlet m' past' := by
  obtain ⟨stage, found, running, moved⟩ := step_cases stepped
  have within : i < starts.length := by
    rw [← story.wired.length]
    exact (List.getElem?_eq_some_iff.mp found).1
  have begins : starts[i]? = some (starts.get ⟨i, within⟩) := List.getElem?_eq_getElem within
  cases moved with
  | read asks some_bytes at_most got =>
    exact step_read story begins found running asks at_most
      (read_found story begins found running some_bytes got)
  | write asks got =>
    exact step_write story begins found running asks (write_found story begins found running got)
  | flush asks => exact step_flush story begins found running asks
  | stop asks => exact step_stop story begins found running asks

theorem run_story {schedule : List (Nat × Nat)} {final : Machine σ} (nonempty : starts ≠ [])
    (ran : run next d capacity (wire starts source outlet) schedule = some final) :
    ∃ past, Story next d starts source outlet final past := by
  refine run_invariant (P := fun m => ∃ past, Story next d starts source outlet m past) ?_ ?_ ran
  · rintro m i n m' stepped ⟨past, story⟩
    exact step_story stepped story
  · exact ⟨_, wire_story next d starts source outlet (starts.head nonempty)⟩

end LineShell.PipeHistory
