import LineShell.Word.Wildcard

/-! What a word with stars stands for. A star stands for any text, every other
character for itself; matching a name tries the ends of the text one by one and finds
a way whenever there is one. The pattern that is written for a word says the same in
the language of patterns, where more characters than the star have a meaning. -/
namespace LineShell.WildcardWords
open Wildcard

/-- What a word stands for if a star stands for any text of characters that it may
have. -/
inductive Fills (may : Char → Prop) : List Symbol → List Char → Prop where
  | done : Fills may [] []
  | lit {c symbols cs} (rest : Fills may symbols cs) : Fills may (.lit c :: symbols) (c :: cs)
  | star {text symbols cs} (allowed : ∀ c ∈ text, may c) (rest : Fills may symbols cs) :
      Fills may (.star :: symbols) (text ++ cs)

/-- A character that a star may stand for in one component of a path. -/
def Within (c : Char) : Prop := c ≠ '/'

/-- What a pattern's text matches: `*` stands for any text, `?` for any character, and
brackets take the meaning from what they enclose. -/
inductive Matches : List Char → List Char → Prop where
  | done : Matches [] []
  | any {pattern cs} (text : List Char) (rest : Matches pattern cs) :
      Matches ('*' :: pattern) (text ++ cs)
  | one {pattern cs} (c : Char) (rest : Matches pattern cs) : Matches ('?' :: pattern) (c :: cs)
  | enclosed {pattern cs} (c : Char) (rest : Matches pattern cs) :
      Matches ('[' :: c :: ']' :: pattern) (c :: cs)
  | itself {c pattern cs} (other : c ∉ ['?', '*', '[', ']']) (rest : Matches pattern cs) :
      Matches (c :: pattern) (c :: cs)

/-- The word with the path of a directory before it, cut off by one slash. -/
def lookedUp (cwd : Place) (word : List Symbol) : List Symbol :=
  (extend cwd.text "").toList.map .lit ++ word

/-- What a word that does not start at the root finds, as it comes. -/
def finds (d : Disk) (cwd : Place) (word : List Symbol) : List String :=
  (paths d (word.getLast? = some (.lit '/')) (components word) cwd.text).map (relative cwd.text)

variable {may allowed : Char → Prop} {symbols more word : List Symbol} {c : Char}
  {cs ds : List Char} {d : Disk} {cwd : Place}

/-! Matching. -/

theorem anyTail_iff {k : List Char → Bool} :
    anyTail k cs = true ↔ ∃ text rest, cs = text ++ rest ∧ k rest = true := by
  induction cs with
  | nil => simp [anyTail, and_assoc]
  | cons c cs ih =>
    rw [anyTail, Bool.or_eq_true, ih]
    constructor
    · rintro (here | ⟨text, rest, rfl, there⟩)
      · exact ⟨[], c :: cs, rfl, here⟩
      · exact ⟨c :: text, rest, rfl, there⟩
    · rintro ⟨text, rest, cut, there⟩
      cases text with
      | nil =>
        rw [List.nil_append] at cut
        exact .inl (cut ▸ there)
      | cons d text =>
        obtain ⟨-, rfl⟩ := List.cons.inj cut
        exact .inr ⟨text, rest, rfl, there⟩

/-- A name is matched exactly if it can be cut as the word says. -/
theorem covers_iff : covers symbols cs = true ↔ Fills (fun _ => True) symbols cs := by
  induction symbols generalizing cs with
  | nil =>
    rw [covers, List.isEmpty_iff]
    constructor
    · rintro rfl
      exact .done
    · rintro ⟨⟩
      rfl
  | cons symbol symbols ih =>
    cases symbol with
    | lit c =>
      cases cs with
      | nil => exact ⟨nofun, nofun⟩
      | cons d cs =>
        rw [covers, Bool.and_eq_true, decide_eq_true_eq, ih]
        constructor
        · rintro ⟨rfl, rest⟩
          exact .lit rest
        · rintro ⟨⟩
          exact ⟨rfl, by assumption⟩
    | star =>
      rw [covers, anyTail_iff]
      constructor
      · rintro ⟨text, rest, rfl, there⟩
        exact .star (fun _ _ => trivial) (ih.mp there)
      · intro fills
        cases fills with
        | @star text _ cs _ rest => exact ⟨text, cs, rfl, ih.mpr rest⟩

/-! Words and what they stand for. -/

theorem Fills.append (first : Fills may symbols cs) (second : Fills may more ds) :
    Fills may (symbols ++ more) (cs ++ ds) := by
  induction first with
  | done => exact second
  | lit _ ih => exact .lit ih
  | star allowed _ ih =>
    rw [List.append_assoc]
    exact .star allowed ih

/-- A text of allowed characters has only those to be put for stars. -/
theorem Fills.restrict (fills : Fills may symbols cs) (inside : ∀ c ∈ cs, allowed c) :
    Fills allowed symbols cs := by
  induction fills with
  | done => exact .done
  | lit _ ih => exact .lit (ih fun c member => inside c (by simp [member]))
  | star _ _ ih =>
    exact .star (fun c member => inside c (by simp [member]))
      (ih fun c member => inside c (by simp [member]))

@[simp] theorem literal_nil : literal [] = "" := rfl

@[simp] theorem toList_literal_lit :
    (literal (.lit c :: symbols)).toList = c :: (literal symbols).toList := by
  simp [literal]

@[simp] theorem toList_literal_star :
    (literal (.star :: symbols)).toList = '*' :: (literal symbols).toList := by
  simp [literal]

/-- A word without stars stands for itself. -/
theorem fills_literal (starless : .star ∉ symbols) :
    Fills may symbols (literal symbols).toList := by
  induction symbols with
  | nil => exact .done
  | cons symbol symbols ih =>
    obtain ⟨other, others⟩ := not_or.mp (mt List.mem_cons.mpr starless)
    cases symbol with
    | lit c =>
      rw [toList_literal_lit]
      exact .lit (ih others)
    | star => exact absurd rfl other

/-- What a word stands for has the characters of the word at least as often. -/
theorem Fills.count (fills : Fills may symbols cs) (never : ¬may c) :
    cs.count c = symbols.count (.lit c) := by
  induction fills with
  | done => rfl
  | @lit d symbols cs _ ih =>
    by_cases same : d = c
    · simp [same, ih]
    · simp [same, ih]
  | @star text symbols cs allowed _ ih =>
    have absent : text.count c = 0 := List.count_eq_zero.mpr fun member => never (allowed c member)
    rw [List.count_append, absent, ih]
    simp

/-! Patterns. -/

theorem toList_patternText_lit :
    (patternText (.lit c :: symbols)).toList = escaped c ++ (patternText symbols).toList := by
  simp [patternText]

theorem toList_patternText_star :
    (patternText (.star :: symbols)).toList = '*' :: (patternText symbols).toList := by
  simp [patternText]

/-- The pattern that is written for a word matches what the word stands for. -/
theorem matches_patternText :
    Matches (patternText symbols).toList cs ↔ Fills (fun _ => True) symbols cs := by
  induction symbols generalizing cs with
  | nil =>
    constructor
    · rintro ⟨⟩
      exact .done
    · rintro ⟨⟩
      exact .done
  | cons symbol symbols ih =>
    cases symbol with
    | star =>
      rw [toList_patternText_star]
      constructor
      · intro found
        cases found with
        | any text rest => exact .star (fun _ _ => trivial) (ih.mp rest)
        | itself other _ => simp at other
      · intro fills
        cases fills with
        | @star text _ _ _ rest => exact .any text (ih.mpr rest)
    | lit c =>
      rw [toList_patternText_lit]
      by_cases special : c ∈ ['?', '*', '[', ']']
      · have written : escaped c = ['[', c, ']'] := by simp [escaped, special]
        rw [written]
        constructor
        · intro found
          cases found with
          | enclosed _ rest => exact .lit (ih.mp rest)
          | itself other _ => simp at other
        · intro fills
          cases fills with
          | lit rest => exact .enclosed c (ih.mpr rest)
      · have written : escaped c = [c] := by simp [escaped, special]
        rw [written]
        generalize (patternText symbols).toList = pattern at ih
        constructor
        · intro found
          cases found with
          | any _ _ | one _ _ | enclosed _ _ => simp at special
          | itself _ rest => exact .lit (ih.mp rest)
        · intro fills
          cases fills with
          | lit rest => exact .itself special (ih.mpr rest)

/-! Looking a word up. -/

theorem not_isRooted_literal (relative : word.head? ≠ some (.lit '/')) :
    Path.isRooted (literal word) = false := by
  cases word with
  | nil => rfl
  | cons symbol word => cases symbol <;> simp_all [Path.isRooted]

theorem lookedUp_eq : (cwd.text.toList.map Symbol.lit ++
    if cwd.text.toList.getLast? = some '/' then [] else [.lit '/']) ++ word =
      lookedUp cwd word := by
  unfold lookedUp extend
  split <;> simp

/-- A word whose stars are well placed stands for what it finds, and for itself if that
is nothing. -/
theorem expand_flawless (relative : word.head? ≠ some (.lit '/'))
    (flawless : flaw? 0 false (lookedUp cwd word) = none) : expand d cwd word =
      { words := if finds d cwd word = [] then [literal word]
          else Text.sort (finds d cwd word) } := by
  unfold expand
  simp only [not_isRooted_literal relative, Bool.false_eq_true, if_false, lookedUp_eq, flawless]
  change (if (finds d cwd word).isEmpty = true then ({ words := [literal word] } : Expansion)
    else { words := Text.sort (finds d cwd word) }) = _
  by_cases none : finds d cwd word = [] <;> simp [none]

/-- Any other word stands for itself. -/
theorem words_flawed (relative : word.head? ≠ some (.lit '/'))
    (flawed : flaw? 0 false (lookedUp cwd word) ≠ none) :
    (expand d cwd word).words = [literal word] := by
  obtain ⟨flaw, known⟩ := Option.ne_none_iff_exists'.mp flawed
  unfold expand
  simp only [not_isRooted_literal relative, Bool.false_eq_true, if_false, lookedUp_eq, known]

end LineShell.WildcardWords
