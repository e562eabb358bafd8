import LineShell.Line.Parse

/-! Cutting a line at plain characters does not disturb its quotes. One scan of
the whole line says which characters are plain; each piece, scanned again by
itself, starts and ends outside every quote and marks its characters as the
whole line did. -/
namespace LineShell.QuoteRegions
open Text

/-- Whether a marked character stands outside every quote and is one of `p`. -/
def atPlain (p : Char → Bool) (m : Quote × Char) : Bool := m.1.isPlain && p m.2

/-- Characters of which none opens a quote. -/
def Neutral (p : Char → Bool) : Prop := ∀ c, p c = true → Quote.plain.step c = .plain

/-- The pieces of a line between its plain characters of `p`. The quotes are
those of one scan of the whole line. -/
def pieces (p : Char → Bool) (cs : List Char) : List (List Char) :=
  (splitWhere (atPlain p) (Quote.plain.mark cs)).map (·.map Prod.snd)

/-- Nothing in the text is a plain character of `p`. -/
def Uncut (p : Char → Bool) (cs : List Char) : Prop :=
  ∀ m ∈ Quote.plain.mark cs, atPlain p m = false

/-- The text closes all quotes that it opens and has no plain character of `p`. -/
structure Seamless (p : Char → Bool) (cs : List Char) : Prop where
  closed : Quote.plain.after cs = .plain
  uncut : Uncut p cs

variable {p r : Char → Bool} {cs xs ys : List Char} {c : Char}

instance : Decidable (Uncut p cs) :=
  inferInstanceAs (Decidable (∀ m ∈ Quote.plain.mark cs, atPlain p m = false))

instance : Decidable (Seamless p cs) :=
  decidable_of_iff (Quote.plain.after cs = .plain ∧ Uncut p cs)
    ⟨fun ⟨closed, uncut⟩ => ⟨closed, uncut⟩, fun ⟨closed, uncut⟩ => ⟨closed, uncut⟩⟩

theorem isPlain_iff {q : Quote} : q.isPlain = true ↔ q = .plain := by simp [Quote.isPlain]

theorem cutPlain_eq (sep : Char) (cs : List Char) :
    cutPlain sep cs =
      if Quote.plain.after cs = .plain then .ok (pieces (· = sep) cs)
      else .error (.unterminated (Quote.plain.after cs)) := by
  simp only [cutPlain, isPlain_iff]
  rfl

theorem uncut_append (ends : Quote.plain.after xs = .plain) :
    Uncut p (xs ++ ys) ↔ Uncut p xs ∧ Uncut p ys := by
  simp [Uncut, Quote.mark_append, ends, or_imp, forall_and]

theorem uncut_mono (fewer : ∀ c, r c = true → p c = true) (uncut : Uncut p cs) : Uncut r cs := by
  intro m member
  have clean := uncut m member
  simp only [atPlain, Bool.and_eq_false_iff] at clean ⊢
  exact clean.imp_right fun no => by
    cases yes : r m.2 with
    | false => rfl
    | true => rw [fewer _ yes] at no; cases no

theorem uncut_or (first : Uncut p cs) (second : Uncut r cs) : Uncut (fun c => p c || r c) cs := by
  intro m member
  have noFirst := first m member
  have noSecond := second m member
  simp only [atPlain, Bool.and_eq_false_iff, Bool.or_eq_false_iff] at noFirst noSecond ⊢
  rcases noFirst with quoted | noFirst
  · exact .inl quoted
  · exact noSecond.imp_right fun noSecond => ⟨noFirst, noSecond⟩

theorem uncut_cons (still : Quote.plain.step c = .plain) (whole : Uncut p (c :: cs)) : Uncut p cs :=
  ((uncut_append (show Quote.plain.after [c] = .plain from still)).mp whole).2

/-- Text of which no character is in `p` has no plain one either. -/
theorem uncut_of_not_mem (absent : ∀ c ∈ cs, p c = false) : Uncut p cs := by
  intro m member
  have inside : m.2 ∈ (Quote.plain.mark cs).map Prod.snd := List.mem_map_of_mem member
  rw [Quote.map_snd_mark] at inside
  simp [atPlain, absent _ inside]

theorem Seamless.append (first : Seamless p xs) (second : Seamless p ys) : Seamless p (xs ++ ys) where
  closed := by rw [Quote.after_append, first.closed, second.closed]
  uncut := (uncut_append first.closed).mpr ⟨first.uncut, second.uncut⟩

theorem Seamless.mono (fewer : ∀ c, r c = true → p c = true) (whole : Seamless p cs) :
    Seamless r cs :=
  ⟨whole.closed, uncut_mono fewer whole.uncut⟩

theorem seamless_nil : Seamless p [] := ⟨rfl, by simp [Uncut, Quote.mark]⟩

/-- A character that opens no quote and is not in `p` can be added. -/
theorem Seamless.cons (still : Quote.plain.step c = .plain) (other : p c = false)
    (rest : Seamless p cs) : Seamless p (c :: cs) where
  closed := by rw [Quote.after_cons, still, rest.closed]
  uncut := by
    intro m member
    rw [Quote.mark, still] at member
    rcases List.mem_cons.mp member with rfl | member
    · simp [atPlain, other]
    · exact rest.uncut m member

theorem pieces_of_uncut (uncut : Uncut p cs) : pieces p cs = [cs] := by
  rw [pieces, splitWhere_clean uncut, List.map_singleton, Quote.map_snd_mark]

/-- A plain character of `p` cuts the line into two that are cut apart from
each other. -/
theorem pieces_append_cons (ends : Quote.plain.after xs = .plain) (cut : p c = true)
    (still : Quote.plain.step c = .plain) :
    pieces p (xs ++ c :: ys) = pieces p xs ++ pieces p ys := by
  have here : atPlain p (.plain, c) = true := by simp [atPlain, Quote.isPlain, cut]
  simp only [pieces, Quote.mark_append, ends, Quote.mark, still, splitWhere_append_sep _ _ here,
    List.map_append]

theorem pieces_congr (same : ∀ m ∈ Quote.plain.mark cs, atPlain p m = atPlain r m) :
    pieces p cs = pieces r cs := by
  rw [pieces, pieces, splitWhere_congr same]

/-- The first cut, if there is one. The scan stands in region `q`. -/
private theorem uncut_or_first_cut (p : Char → Bool) (q : Quote) (cs : List Char) :
    (∀ m ∈ q.mark cs, atPlain p m = false) ∨
      ∃ xs c ys, cs = xs ++ c :: ys ∧ p c = true ∧ q.after xs = .plain ∧
        ∀ m ∈ q.mark xs, atPlain p m = false := by
  induction cs generalizing q with
  | nil => exact .inl (by simp [Quote.mark])
  | cons d ds ih =>
    cases here : atPlain p (q, d) with
    | true =>
      simp only [atPlain, Bool.and_eq_true, isPlain_iff] at here
      exact .inr ⟨[], d, ds, rfl, here.2, here.1, by simp [Quote.mark]⟩
    | false =>
      rcases ih (q.step d) with uncut | ⟨xs, c, ys, rfl, cut, ends, uncut⟩
      · exact .inl (by simpa [Quote.mark, here] using uncut)
      · exact .inr ⟨d :: xs, c, ys, rfl, cut, ends, by simpa [Quote.mark, here] using uncut⟩

/-- Every line is uncut, or is a seamless piece, a cut, and another line. What
follows about pieces is proved along this division. -/
theorem cut_induction {motive : List Char → Prop} (p : Char → Bool)
    (whole : ∀ cs, Uncut p cs → motive cs)
    (cut : ∀ xs c ys, Seamless p xs → p c = true → motive ys → motive (xs ++ c :: ys))
    (cs : List Char) : motive cs := by
  rcases uncut_or_first_cut p .plain cs with uncut | ⟨xs, c, ys, rfl, here, ends, uncut⟩
  · exact whole cs uncut
  · exact cut xs c ys ⟨ends, uncut⟩ here (cut_induction p whole cut ys)
termination_by cs.length
decreasing_by simp_all; omega

theorem after_cut (neutral : Neutral p) (first : Seamless p xs) (here : p c = true) :
    Quote.plain.after (xs ++ c :: ys) = Quote.plain.after ys := by
  rw [Quote.after_append, first.closed, Quote.after_cons, neutral c here]

theorem pieces_cut (neutral : Neutral p) (first : Seamless p xs) (here : p c = true) :
    pieces p (xs ++ c :: ys) = xs :: pieces p ys := by
  rw [pieces_append_cons first.closed here (neutral c here), pieces_of_uncut first.uncut]
  rfl

/-- Each piece of a line that closes its quotes closes its own. -/
theorem pieces_seamless (neutral : Neutral p) (ends : Quote.plain.after cs = .plain) :
    ∀ piece ∈ pieces p cs, Seamless p piece := by
  induction cs using cut_induction p with
  | whole cs uncut =>
    rw [pieces_of_uncut uncut]
    intro piece member
    rw [List.mem_singleton.mp member]
    exact ⟨ends, uncut⟩
  | cut xs c ys first here ih =>
    rw [pieces_cut neutral first here]
    rw [after_cut neutral first here] at ends
    intro piece member
    rcases List.mem_cons.mp member with rfl | member
    · exact first
    · exact ih ends piece member

/-- A cut at one kind of characters leaves no plain one of another kind that the
line did not have. -/
theorem pieces_uncut (neutral : Neutral p) (whole : Uncut r cs) :
    ∀ piece ∈ pieces p cs, Uncut r piece := by
  induction cs using cut_induction p with
  | whole cs uncut => simpa [pieces_of_uncut uncut] using whole
  | cut xs c ys first here ih =>
    obtain ⟨start, rest⟩ := (uncut_append first.closed).mp whole
    rw [pieces_cut neutral first here]
    exact List.forall_mem_cons.mpr ⟨start, ih (uncut_cons (neutral c here) rest)⟩

/-- Cutting at two kinds of characters at once is cutting at one kind and then
each piece, scanned again, at the other. -/
theorem pieces_or (neutral : Neutral p) :
    pieces (fun c => p c || r c) cs = (pieces p cs).flatMap (pieces r) := by
  have clean {cs : List Char} (uncut : Uncut p cs) :
      pieces (fun c => p c || r c) cs = pieces r cs := by
    apply pieces_congr
    intro m member
    have no := uncut m member
    simp only [atPlain, Bool.and_eq_false_iff] at no ⊢
    rcases no with no | no <;> simp [no]
  induction cs using cut_induction p with
  | whole cs uncut => simp [pieces_of_uncut uncut, clean uncut]
  | cut xs c ys first here ih =>
    rw [pieces_append_cons first.closed (by simp [here]) (neutral c here), clean first.uncut, ih,
      pieces_cut neutral first here, List.flatMap_cons]

/-- The characters of a piece are characters of the line. -/
theorem mem_of_mem_pieces {piece : List Char} (neutral : Neutral p) (member : piece ∈ pieces p cs)
    (inside : c ∈ piece) : c ∈ cs := by
  induction cs using cut_induction p with
  | whole cs uncut =>
    rw [pieces_of_uncut uncut, List.mem_singleton] at member
    exact member ▸ inside
  | cut xs d ys first here ih =>
    rw [pieces_cut neutral first here] at member
    rcases List.mem_cons.mp member with rfl | member
    · exact List.mem_append_left _ inside
    · exact List.mem_append_right _ (List.mem_cons_of_mem _ (ih member))

end LineShell.QuoteRegions
