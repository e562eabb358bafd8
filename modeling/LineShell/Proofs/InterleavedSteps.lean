import Mathlib.Data.List.Basic
import LineShell.Session.Run

/-! Accesses of several parts in one order. What is true of an access for the accesses
that its own part made before stays true among those of others, if more accesses before
it do no harm. -/
namespace LineShell.InterleavedSteps

variable {w w' : World} {steps later one other both past : List Step} {step : Step}

/-! Chains. -/

theorem chain_append : Chain w (steps ++ later) w' ↔ ∃ m, Chain w steps m ∧ Chain m later w' := by
  induction steps generalizing w with
  | nil =>
    constructor
    · exact fun chain => ⟨w, rfl, chain⟩
    · rintro ⟨_, rfl, chain⟩
      exact chain
  | cons step steps ih =>
    simp only [List.cons_append, Chain, ih]
    constructor
    · rintro ⟨begins, m, chain, rest⟩
      exact ⟨m, ⟨begins, chain⟩, rest⟩
    · rintro ⟨m, ⟨begins, chain⟩, rest⟩
      exact ⟨begins, m, chain, rest⟩

/-- What no access changes is the same after all of them. -/
theorem eq_of_chain {β : Type} {f : World → β} (keep : ∀ step ∈ steps, f step.after = f step.before)
    (chain : Chain w steps w') : f w' = f w := by
  induction steps generalizing w with
  | nil => exact congrArg f chain
  | cons step steps ih =>
    obtain ⟨rfl, rest⟩ := chain
    obtain ⟨first, others⟩ := List.forall_mem_cons.mp keep
    exact (ih others rest).trans first

/-- The same from any of them on. -/
theorem eq_since {β : Type} {f : World → β} (keep : ∀ step ∈ steps, f step.after = f step.before)
    (chain : Chain w steps w') {met : World} (member : met ∈ steps.map Step.before) : f w' = f met := by
  obtain ⟨step, made, rfl⟩ := List.mem_map.mp member
  obtain ⟨past, rest, rfl⟩ := List.append_of_mem made
  obtain ⟨m, -, rfl, after⟩ := chain_append.mp chain
  have from_step : Chain step.before (step :: rest) w' := ⟨rfl, after⟩
  exact eq_of_chain (fun step made => keep step (List.mem_append_right _ made)) from_step

/-! Orders. -/

theorem interleaved_nil (steps : List Step) : Interleaved [] steps steps := by
  induction steps with
  | nil => exact .nil
  | cons step steps ih => exact .right step ih

/-- One part after the other is one of the orders. -/
theorem interleaved_append (one other : List Step) : Interleaved one other (one ++ other) := by
  induction one with
  | nil => exact interleaved_nil other
  | cons step one ih => exact .left step ih

theorem interleaved_symm (order : Interleaved one other both) : Interleaved other one both := by
  induction order with
  | nil => exact .nil
  | left step _ ih => exact .right step ih
  | right step _ ih => exact .left step ih

/-- The other part may begin first. -/
theorem interleaved_within (begun : List Step) (order : Interleaved one other both) :
    Interleaved one (begun ++ other) (begun ++ both) := by
  induction begun with
  | nil => exact order
  | cons step begun ih => exact .right step ih

theorem perm_of_interleaved (order : Interleaved one other both) : both.Perm (one ++ other) := by
  induction order with
  | nil => exact .refl _
  | left step _ ih => exact ih.cons step
  | right step _ ih => exact (ih.cons step).trans List.perm_middle.symm

theorem mem_of_interleaved (order : Interleaved one other both) :
    step ∈ both ↔ step ∈ one ∨ step ∈ other :=
  (perm_of_interleaved order).mem_iff.trans List.mem_append

/-- An access among others comes from one of the parts, where it has a part of the past. -/
theorem part_of_interleaved (order : Interleaved one other both) (at_ : both = past ++ step :: later) :
    ∃ past' later', past'.Sublist past ∧
      (one = past' ++ step :: later' ∨ other = past' ++ step :: later') := by
  induction order generalizing past with
  | nil => simp at at_
  | left first _ ih =>
    cases past with
    | nil =>
      obtain ⟨rfl, -⟩ := List.cons.inj at_
      exact ⟨[], _, .slnil, .inl rfl⟩
    | cons begins past =>
      obtain ⟨rfl, rest⟩ := List.cons.inj at_
      obtain ⟨past', later', sub, rfl | rfl⟩ := ih rest
      · exact ⟨first :: past', later', sub.cons_cons _, .inl rfl⟩
      · exact ⟨past', later', sub.cons _, .inr rfl⟩
  | right first _ ih =>
    cases past with
    | nil =>
      obtain ⟨rfl, -⟩ := List.cons.inj at_
      exact ⟨[], _, .slnil, .inr rfl⟩
    | cons begins past =>
      obtain ⟨rfl, rest⟩ := List.cons.inj at_
      obtain ⟨past', later', sub, rfl | rfl⟩ := ih rest
      · exact ⟨past', later', sub.cons _, .inl rfl⟩
      · exact ⟨first :: past', later', sub.cons_cons _, .inr rfl⟩

/-! What is true of every access, as seen from those before it. -/

/-- Each access fits those that were made before it. -/
def Throughout (Fits : List Step → Step → Prop) (steps : List Step) : Prop :=
  ∀ past step later, steps = past ++ step :: later → Fits past step

variable {Fits : List Step → Step → Prop}

theorem throughout_nil : Throughout Fits [] := by
  intro past step later empty
  simp at empty

/-- One access more. -/
theorem throughout_concat (all : Throughout Fits steps) (fits : Fits steps step) :
    Throughout Fits (steps ++ [step]) := by
  intro past other later at_
  rcases List.eq_nil_or_concat later with rfl | ⟨later, last, rfl⟩
  · obtain ⟨rfl, same⟩ := List.append_inj' at_ rfl
    cases same
    exact fits
  · rw [List.concat_eq_append, ← List.cons_append, ← List.append_assoc] at at_
    exact all past other later (List.append_inj' at_ rfl).1

theorem Throughout.first (all : Throughout Fits (steps ++ later)) : Throughout Fits steps :=
  fun past step rest at_ => all past step (rest ++ later) (by rw [at_]; simp)

theorem Throughout.interleaved (more : ∀ {past past' step}, past.Sublist past' → Fits past step →
      Fits past' step) (order : Interleaved one other both) (first : Throughout Fits one)
    (second : Throughout Fits other) : Throughout Fits both := by
  intro past step later at_
  obtain ⟨past', later', sub, from_ | from_⟩ := part_of_interleaved order at_
  · exact more sub (first past' step later' from_)
  · exact more sub (second past' step later' from_)

theorem Throughout.append (more : ∀ {past past' step}, past.Sublist past' → Fits past step →
      Fits past' step) (first : Throughout Fits steps) (second : Throughout Fits later) :
    Throughout Fits (steps ++ later) :=
  .interleaved more (interleaved_append steps later) first second

/-! What a run does, by how it is put together. -/

section Runs

variable {ε ε' α β γ : Type} {p p' p₁ : Streams} {a : α} {s₁ : Session}

/-! Runs in a row. -/

theorem andThen_pure (run : Run ε α) : run.andThen (fun a => .ofExcept (.ok a)) = run := by
  funext p steps result p'
  apply propext
  constructor
  · rintro (⟨e, failed, rfl⟩ | ⟨a, p₁, begun, later, done, ⟨rfl, rfl, rfl⟩, rfl⟩)
    · exact failed
    · rwa [List.append_nil]
  · intro does
    cases result with
    | error e => exact .inl ⟨e, does, rfl⟩
    | ok a => exact .inr ⟨a, p', steps, [], does, ⟨rfl, rfl, rfl⟩, (List.append_nil steps).symm⟩

theorem pure_andThen (a : α) (next : α → Run ε β) : (Run.ofExcept (.ok a)).andThen next = next a := by
  funext p steps result p'
  apply propext
  constructor
  · rintro (⟨e, ⟨-, failed, -⟩, -⟩ | ⟨_, p₁, begun, later, ⟨rfl, same, rfl⟩, does, rfl⟩)
    · cases failed
    · cases same
      exact does
  · exact fun does => .inr ⟨a, p, [], steps, ⟨rfl, rfl, rfl⟩, does, rfl⟩

theorem andThen_assoc (run : Run ε α) (next : α → Run ε β) (last : β → Run ε γ) :
    (run.andThen next).andThen last = run.andThen fun a => (next a).andThen last := by
  funext p steps result p'
  apply propext
  constructor
  · rintro (⟨e, ⟨e', failed, same⟩ | ⟨a, p₁, begun, later, done, failed, rfl⟩, rfl⟩ |
      ⟨b, p₂, _, later, ⟨e', failed, same⟩ | ⟨a, p₁, begun, between, done, does, rfl⟩, ends, rfl⟩)
    · cases same
      exact .inl ⟨e, failed, rfl⟩
    · exact .inr ⟨a, p₁, begun, later, done, .inl ⟨e, failed, rfl⟩, rfl⟩
    · cases same
    · exact .inr ⟨a, p₁, begun, between ++ later, done, .inr ⟨b, p₂, between, later, does, ends, rfl⟩,
        List.append_assoc ..⟩
  · rintro (⟨e, failed, rfl⟩ |
      ⟨a, p₁, begun, _, done, ⟨e, failed, rfl⟩ | ⟨b, p₂, between, later, does, ends, rfl⟩, rfl⟩)
    · exact .inl ⟨e, .inl ⟨e, failed, rfl⟩, rfl⟩
    · exact .inl ⟨e, .inr ⟨a, p₁, begun, _, done, failed, rfl⟩, rfl⟩
    · exact .inr ⟨b, p₂, begun ++ between, later, .inr ⟨a, p₁, begun, between, done, does, rfl⟩, ends,
        (List.append_assoc ..).symm⟩

instance : LawfulMonad (Run ε) := .mk' (Run ε) andThen_pure pure_andThen andThen_assoc

/-! Single accesses. -/

theorem does_pure (a : α) (p : Streams) : (pure a : Run ε α).Does p [] (.ok a) p := ⟨rfl, rfl, rfl⟩

theorem does_throw (e : ε) (p : Streams) : (throw e : Run ε α).Does p [] (.error e) p :=
  ⟨rfl, rfl, rfl⟩

theorem does_bind {first : Run ε α} {next : α → Run ε β} {result : Except ε β}
    (done : first.Does p steps (.ok a) p₁) (rest : (next a).Does p₁ later result p') :
    (first >>= next).Does p (steps ++ later) result p' :=
  .inr ⟨a, p₁, steps, later, done, rest, rfl⟩

theorem does_attempt {inner : Run ε α} {next : Except ε α → Run ε' β} {result : Except ε α}
    {result' : Except ε' β} (does : inner.Does p steps result p₁)
    (rest : (next result).Does p₁ later result' p') :
    (Run.attempt inner >>= next).Does p (steps ++ later) result' p' := by
  have attempts : (Run.attempt inner : Run ε' (Except ε α)).Does p steps (.ok result) p₁ :=
    ⟨result, does, rfl⟩
  exact does_bind attempts rest

/-- An access and what comes after it. -/
theorem does_access {act : Act ε α} {next : α → Run ε β} {result : Except ε β}
    (ran : act.start (p.over w) = some (.ok a, s₁))
    (rest : (next a).Does s₁.streams later result p') :
    (Run.access act >>= next).Does p ({ before := w, after := s₁.world } :: later) result p' := by
  have done : (Run.access act).Does p [{ before := w, after := s₁.world }] (.ok a) s₁.streams :=
    ⟨w, s₁, ran, rfl, rfl⟩
  exact does_bind done rest

/-- A look at the world and what comes after it. -/
theorem does_view {f : Session → α} {next : α → Run ε β} {result : Except ε β} (w : World)
    (rest : (next (f (p.over w))).Does p later result p') :
    (Run.access (Act.view f) >>= next).Does p ({ before := w, after := w } :: later) result p' := by
  have looks : (Act.view f : Act ε α).start (p.over w) = some (.ok (f (p.over w)), p.over w) := rfl
  exact does_access looks rest

/-! Runs taken apart. -/

theorem does_bind_ok {first : Run ε α} {next : α → Run ε β} {b : β}
    (does : (first >>= next).Does p steps (.ok b) p') :
    ∃ a p₁ begun later, first.Does p begun (.ok a) p₁ ∧ (next a).Does p₁ later (.ok b) p' := by
  rcases does with ⟨e, -, failed⟩ | ⟨a, p₁, begun, later, done, does, -⟩
  · cases failed
  · exact ⟨a, p₁, begun, later, done, does⟩

theorem does_of_discard {run : Run ε α} {result : Except ε Unit}
    (does : (do let _ ← run : Run ε Unit).Does p steps result p') :
    ∃ result', run.Does p steps result' p' := by
  rcases does with ⟨e, failed, -⟩ | ⟨a, p₁, begun, later, done, ⟨rfl, -, rfl⟩, rfl⟩
  · exact ⟨_, failed⟩
  · rw [List.append_nil]
    exact ⟨_, done⟩

/-- A run of a look at the world and what comes after it. -/
theorem view_cases {f : Session → α} {next : α → Run ε β} {result : Except ε β}
    (does : (Run.access (Act.view f) >>= next).Does p steps result p') :
    ∃ w later, steps = { before := w, after := w } :: later ∧
      (next (f (p.over w))).Does p later result p' := by
  rcases does with ⟨e, ⟨w, s', ran, -, -⟩, -⟩ | ⟨a, p₁, begun, later, ⟨w, s', ran, rfl, rfl⟩, rest, rfl⟩
  · cases ran
  · cases ran
    exact ⟨w, later, rfl, rest⟩

end Runs

end LineShell.InterleavedSteps
