import Mathlib.Data.List.Chain
import LineShell.Proofs.StageTokens

/-! Where the tokens of a stage stand. A stage that closes its quotes is a row of
tokens with blanks before, between and after them, so that the tokens are all of
the stage but its plain blanks. No token begins inside a quote: the scan of the
whole stage meets the characters of each token as a scan of the token alone does. -/
namespace LineShell.TokenLayout
open Text QuoteRegions StageTokens

/-- The blanks before a token, and the token. -/
structure Stretch where
  gap : List Char
  token : List Char

/-- The text of several stretches, and what stands after the last token. -/
def textOf (stretches : List Stretch) (last : List Char) : List Char :=
  stretches.flatMap (fun stretch => stretch.gap ++ stretch.token) ++ last

/-- Characters that are met outside every quote. -/
def inPlain (cs : List Char) : List (Quote × Char) := cs.map fun c => (.plain, c)

/-- How a scan of several stretches goes if every token is met in plain text and
leaves no quote open. -/
def marksOf (stretches : List Stretch) (last : List Char) : List (Quote × Char) :=
  stretches.flatMap (fun stretch => inPlain stretch.gap ++ Quote.plain.mark stretch.token) ++
    inPlain last

/-- Of two neighbours, not both words, or with blanks in between. -/
def Apart (first second : Stretch) : Prop :=
  IsSign first.token ∨ IsSign second.token ∨ second.gap ≠ []

/-- A stage cut into stretches. -/
structure Layout (stage : List Char) (stretches : List Stretch) (last : List Char) : Prop where
  text : stage = textOf stretches last
  marks : Quote.plain.mark stage = marksOf stretches last
  blanks : ∀ stretch ∈ stretches, allBlank stretch.gap = true
  trailing : allBlank last = true
  apart : stretches.IsChain Apart
  longest : ∀ before stretch after, stretches = before ++ stretch :: after →
    stretch.token = ['>'] → (textOf after last).head? ≠ some '>'

variable {c : Char} {stage cs token : List Char} {stretches : List Stretch} {last : List Char}
  {tokens : List (List Char)}

theorem textOf_cons (stretch : Stretch) (stretches : List Stretch) (last : List Char) :
    textOf (stretch :: stretches) last =
      stretch.gap ++ (stretch.token ++ textOf stretches last) := by
  simp [textOf]

theorem marksOf_cons (stretch : Stretch) (stretches : List Stretch) (last : List Char) :
    marksOf (stretch :: stretches) last =
      inPlain stretch.gap ++ (Quote.plain.mark stretch.token ++ marksOf stretches last) := by
  simp [marksOf]

theorem not_isSign_of_seamless (seamless : Seamless separates token) : ¬IsSign token := by
  have cutBySign {rest : List Char} {sign : Char} (cut : separates sign = true)
      (same : token = sign :: rest) : False := by
    have other := seamless.uncut (.plain, sign) (by simp [same, Quote.mark])
    simp [atPlain, Quote.isPlain, cut] at other
  rintro (same | same | same)
  · exact cutBySign (by decide) same
  · exact cutBySign (by decide) same
  · exact cutBySign (by decide) same

/-- Blanks before a stage join the first gap. -/
theorem Layout.addBlank (blank : isBlank c = true) (layout : Layout cs stretches last) :
    ∃ stretches' last', Layout (c :: cs) stretches' last' ∧
      stretches'.map Stretch.token = stretches.map Stretch.token := by
  have still : Quote.plain.step c = .plain := step_of_separates (by simp [separates, blank])
  cases stretches with
  | nil =>
    refine ⟨[], c :: last, ⟨?_, ?_, List.forall_mem_nil _, ?_, .nil, by simp⟩, rfl⟩
    · rw [layout.text]
      rfl
    · rw [Quote.mark, still, layout.marks]
      rfl
    · simpa [allBlank, blank] using layout.trailing
  | cons stretch stretches =>
    obtain ⟨gap, token⟩ := stretch
    obtain ⟨first, others⟩ := List.forall_mem_cons.mp layout.blanks
    refine ⟨⟨c :: gap, token⟩ :: stretches, last, ⟨?_, ?_, ?_, layout.trailing, ?_, ?_⟩, rfl⟩
    · rw [layout.text, textOf_cons, textOf_cons]
      rfl
    · rw [Quote.mark, still, layout.marks, marksOf_cons, marksOf_cons]
      rfl
    · exact List.forall_mem_cons.mpr ⟨by simpa [allBlank, blank] using first, others⟩
    · cases stretches with
      | nil => exact .singleton _
      | cons second stretches =>
        obtain ⟨near, far⟩ := List.isChain_cons_cons.mp layout.apart
        exact List.isChain_cons_cons.mpr ⟨near, far⟩
    · intro before stretch after cut isOutput
      cases before with
      | nil =>
        obtain ⟨rfl, rfl⟩ := List.cons.inj cut
        exact layout.longest [] ⟨gap, token⟩ _ rfl isOutput
      | cons head before =>
        obtain ⟨-, rfl⟩ := List.cons.inj cut
        exact layout.longest (⟨gap, token⟩ :: before) stretch after rfl isOutput

/-- A token that closes its quotes comes before a stage as a stretch of its own. -/
theorem Layout.addToken (token : List Char) (closed : Quote.plain.after token = .plain)
    (layout : Layout cs stretches last)
    (apart : ∀ second ∈ stretches.head?, Apart ⟨[], token⟩ second)
    (longest : token = ['>'] → cs.head? ≠ some '>') :
    Layout (token ++ cs) (⟨[], token⟩ :: stretches) last where
  text := by
    rw [layout.text, textOf_cons]
    rfl
  marks := by
    rw [Quote.mark_append, closed, layout.marks, marksOf_cons]
    rfl
  blanks := List.forall_mem_cons.mpr ⟨rfl, layout.blanks⟩
  trailing := layout.trailing
  apart := List.isChain_cons.mpr ⟨apart, layout.apart⟩
  longest := by
    intro before stretch after cut isOutput
    cases before with
    | nil =>
      obtain ⟨rfl, rfl⟩ := List.cons.inj cut
      rw [← layout.text]
      exact longest isOutput
    | cons head before =>
      obtain ⟨-, rest⟩ := List.cons.inj cut
      exact layout.longest before stretch after rest isOutput

/-- A stage that begins where a word may end begins with a gap or a sign. -/
theorem Layout.begins (layout : Layout cs stretches last)
    (isTokens : ∀ token ∈ stretches.map Stretch.token, IsToken token)
    (ends : ∀ c ∈ cs.head?, separates c = true) :
    ∀ second ∈ stretches.head?, IsSign second.token ∨ second.gap ≠ [] := by
  rintro ⟨gap, token⟩ first
  obtain ⟨rest, rfl⟩ := List.head?_eq_some_iff.mp first
  cases gap with
  | cons c gap => exact .inr (by simp)
  | nil =>
    rcases isTokens token (by simp) with sign | ⟨text, seamless⟩
    · exact .inl sign
    · obtain ⟨c, word, rfl⟩ := List.exists_cons_of_ne_nil text
      have here : separates c = true := ends c (by rw [layout.text, textOf_cons]; rfl)
      have other := seamless.uncut (.plain, c) (by simp [Quote.mark])
      simp [atPlain, Quote.isPlain, here] at other

/-- The tokens that a stage spells stand in it one after the other. -/
theorem layout_of_spells (spelled : Spells stage tokens) :
    ∃ stretches last, Layout stage stretches last ∧ stretches.map Stretch.token = tokens := by
  induction spelled with
  | done => exact ⟨[], [], ⟨rfl, rfl, nofun, rfl, .nil, by simp⟩, rfl⟩
  | blank blank _ ih =>
    obtain ⟨stretches, last, layout, rfl⟩ := ih
    exact layout.addBlank blank
  | input _ ih =>
    obtain ⟨stretches, last, layout, rfl⟩ := ih
    exact ⟨_, last, layout.addToken ['<'] (by decide) (fun _ _ => .inl (.inl rfl)) nofun, rfl⟩
  | output single _ ih =>
    obtain ⟨stretches, last, layout, rfl⟩ := ih
    exact ⟨_, last, layout.addToken ['>'] (by decide) (fun _ _ => .inl (.inr (.inl rfl)))
      (fun _ => single), rfl⟩
  | append _ ih =>
    obtain ⟨stretches, last, layout, rfl⟩ := ih
    exact ⟨_, last, layout.addToken ['>', '>'] (by decide)
      (fun _ _ => .inl (.inr (.inr rfl))) nofun, rfl⟩
  | word text seamless ends rest ih =>
    obtain ⟨stretches, last, layout, rfl⟩ := ih
    refine ⟨_, last, layout.addToken _ seamless.closed (fun second first => ?_) (fun output => ?_), rfl⟩
    · exact .inr (layout.begins rest.isToken ends second first)
    · exact absurd (.inr (.inl output)) (not_isSign_of_seamless seamless)

/-! What is left of a stage without its plain blanks. -/

theorem uncut_of_isToken (isToken : IsToken token) : Uncut isBlank token := by
  rcases isToken with (rfl | rfl | rfl) | ⟨-, seamless⟩
  · exact by decide
  · exact by decide
  · exact by decide
  · exact uncut_mono (fun c blank => by simp [separates, blank]) seamless.uncut

theorem filter_inPlain (blank : allBlank cs = true) :
    (inPlain cs).filter (!atPlain isBlank ·) = [] := by
  rw [List.filter_eq_nil_iff]
  intro m member
  obtain ⟨c, inside, rfl⟩ := List.mem_map.mp member
  simp [atPlain, Quote.isPlain, List.all_eq_true.mp blank c inside]

theorem filter_mark (uncut : Uncut isBlank token) :
    (Quote.plain.mark token).filter (!atPlain isBlank ·) = Quote.plain.mark token := by
  rw [List.filter_eq_self]
  intro m member
  simp [uncut m member]

/-- The tokens, written one after the other, are the stage without its plain
blanks. -/
theorem Layout.flatten (layout : Layout stage stretches last)
    (isTokens : ∀ token ∈ stretches.map Stretch.token, IsToken token) :
    (stretches.map Stretch.token).flatten =
      ((Quote.plain.mark stage).filter (!atPlain isBlank ·)).map Prod.snd := by
  rw [layout.marks]
  have blanks := layout.blanks
  have trailing := layout.trailing
  clear layout
  induction stretches with
  | nil => simp [marksOf, filter_inPlain trailing]
  | cons stretch stretches ih =>
    obtain ⟨blank, blanks⟩ := List.forall_mem_cons.mp blanks
    obtain ⟨isToken, isTokens⟩ := List.forall_mem_cons.mp isTokens
    rw [marksOf_cons, List.filter_append, List.filter_append, filter_inPlain blank,
      filter_mark (uncut_of_isToken isToken), List.nil_append, List.map_append,
      Quote.map_snd_mark, List.map_cons, List.flatten_cons, ih isTokens blanks]

theorem isRedirect_iff {token : String} :
    Token.isRedirect token = true ↔ IsSign token.toList := by
  have written (sign : String) : token = sign ↔ token.toList = sign.toList := String.toList_inj.symm
  simp only [Token.isRedirect, Token.redirect?, written]
  unfold IsSign
  split
  · rename_i same
    simp [same]
  · split
    · rename_i same
      simp [same]
    · split
      · rename_i same
        simp [same]
      · rename_i notInput notOutput notAppend
        simp_all

/-- A stage that leaves a quote open is refused for it. Any other stage is its tokens
in their order, with nothing but plain blanks before, between and after them. A token
is a redirection sign, or a word that closes its own quotes and has no plain blank or
sign in it; a scan of the whole stage begins every token outside quotes. Between two
words there are blanks, and after the sign `>` no second one follows. The tokens
together are the stage without its plain blanks, and no word is a sign. -/
theorem tokens_are_all_but_plain_blanks (stage : List Char) :
    (Quote.plain.after stage ≠ .plain →
      tokenize stage = .error (.unterminated (Quote.plain.after stage))) ∧
    (Quote.plain.after stage = .plain → ∃ tokens, tokenize stage = .ok tokens ∧
      (∃ stretches last, Layout stage stretches last ∧
        stretches.map Stretch.token = tokens.map String.toList) ∧
      (∀ token ∈ tokens, (Token.isRedirect token = true ∧ IsSign token.toList) ∨
        (Token.isRedirect token = false ∧ token ≠ "" ∧ Seamless separates token.toList)) ∧
      (tokens.map String.toList).flatten =
        ((Quote.plain.mark stage).filter (!atPlain isBlank ·)).map Prod.snd) := by
  have result := tokenize_result stage
  refine ⟨fun leftOpen => by rwa [if_neg leftOpen] at result, fun closed => ?_⟩
  rw [if_pos closed] at result
  obtain ⟨tokens, ran⟩ := result
  have spelled := tokenize_eq_ok_iff.mp ran
  obtain ⟨stretches, last, layout, same⟩ := layout_of_spells spelled
  refine ⟨tokens, ran, ⟨stretches, last, layout, same⟩, fun token member => ?_, ?_⟩
  · rcases spelled.isToken token.toList (List.mem_map_of_mem member) with sign | ⟨text, seamless⟩
    · exact .inl ⟨isRedirect_iff.mpr sign, sign⟩
    · refine .inr ⟨?_, fun none => text (by rw [none]; rfl), seamless⟩
      exact Bool.eq_false_iff.mpr fun sign =>
        not_isSign_of_seamless seamless (isRedirect_iff.mp sign)
  · rw [← same]
    exact layout.flatten (same ▸ spelled.isToken)

/-- Signs glued to words and to each other, a quoted blank, and a blank of three bytes. -/
theorem tokens_of_glued_signs :
    Quote.plain.after "a>>>b'c d'\u2003e".toList = .plain ∧
    tokenize "a>>>b'c d'\u2003e".toList = .ok ["a", ">>", ">", "b'c d'", "e"] ∧
    ((["a", ">>", ">", "b'c d'", "e"] : List String).map String.toList).flatten =
      ((Quote.plain.mark "a>>>b'c d'\u2003e".toList).filter (!atPlain isBlank ·)).map Prod.snd := by
  have closed : Quote.plain.after "a>>>b'c d'\u2003e".toList = .plain := by decide
  obtain ⟨tokens, ran, -, -, whole⟩ :=
    (tokens_are_all_but_plain_blanks "a>>>b'c d'\u2003e".toList).2 closed
  have found : tokenize "a>>>b'c d'\u2003e".toList = .ok ["a", ">>", ">", "b'c d'", "e"] := by
    decide +kernel
  rw [found] at ran
  cases ran
  exact ⟨closed, found, whole⟩

end LineShell.TokenLayout
