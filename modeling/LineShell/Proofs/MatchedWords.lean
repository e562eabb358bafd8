import LineShell.Proofs.FoundPaths
import LineShell.Proofs.PlacePaths
import LineShell.Proofs.TextOrder

/-! What a word with stars is expanded to. Each result is made of names that follow the
components of the word, and leads to an entry from the session's directory; but it is
written without empty names and without a `.` at either end, and two stars that are a
whole part of the word stand for any number of names. Where the word has none of these
parts, the result is the word with each star replaced by text within one name. -/
namespace LineShell.MatchedWords
open ExtendedPaths FoundPaths PathNames PlacePaths ResolvedPaths TextOrder WalkedPaths Wildcard
open WildcardWords

/-- The parts of a word between its slashes. -/
def parts (word : List Symbol) : List (List Symbol) := Text.splitWhere (· = .lit '/') word

/-- No part of the word is empty or `**`, and neither the first nor the last stands for
`.`, which would be left out. -/
structure Steady (word : List Symbol) : Prop where
  filled : [] ∉ parts word
  shallow : [.star, .star] ∉ parts word
  first : ∀ part, (parts word).head? = some part → ¬Stands part "."
  last : ∀ part, (parts word).getLast? = some part → ¬Stands part "."

variable {d : Disk} {cwd p : Place} {word part : List Symbol} {pieces : List (List Symbol)}
  {comps : List Component} {text name r : String} {names : List String}

/-! The components of a word. -/

theorem of_cases (part : List Symbol) :
    part = [.star, .star] ∧ Component.of part = .anyDepth ∨
    .star ∈ part ∧ Component.of part = .pattern part ∨
    .star ∉ part ∧ Component.of part = .name (literal part) := by
  unfold Component.of
  by_cases deep : part = [.star, .star]
  · exact .inl ⟨deep, if_pos deep⟩
  · by_cases starred : .star ∈ part
    · exact .inr (.inl ⟨starred, by simp [deep, hasStar, starred]⟩)
    · exact .inr (.inr ⟨starred, by simp [deep, hasStar, starred]⟩)

theorem mem_literal {c : Char} (starless : .star ∉ part) :
    c ∈ (literal part).toList ↔ .lit c ∈ part := by
  induction part with
  | nil => simp
  | cons symbol part ih =>
    obtain ⟨other, others⟩ := not_or.mp (mt List.mem_cons.mpr starless)
    cases symbol with
    | lit d => simp [ih others]
    | star => exact absurd rfl other

theorem literal_eq_empty : literal part = "" ↔ part = [] := by
  simp [literal, ← String.toList_inj]

theorem slash_not_mem_part (member : part ∈ parts word) : .lit '/' ∉ part := fun held => by
  simpa using not_sep_of_mem_splitWhere member _ held

theorem components_eq (word : List Symbol) : components word =
    (if (parts word).getLast? = some [] then (parts word).dropLast else parts word).map
      Component.of := rfl

theorem slash_not_mem_text (member : .name text ∈ components word) : '/' ∉ text.toList := by
  rw [components_eq] at member
  obtain ⟨part, inside, same⟩ := List.mem_map.mp member
  have held : part ∈ parts word := by
    split at inside
    · exact List.dropLast_subset _ inside
    · exact inside
  rcases of_cases part with ⟨-, other⟩ | ⟨-, other⟩ | ⟨starless, spelt⟩
  · cases other.symm.trans same
  · cases other.symm.trans same
  · cases spelt.symm.trans same
    rw [mem_literal starless]
    exact slash_not_mem_part held

theorem joinWith_parts (word : List Symbol) : Text.joinWith [.lit '/'] (parts word) = word :=
  Text.joinWith_splitWhere (fun _ same => of_decide_eq_true same) word

theorem components_ne_nil (starred : .star ∈ word) : components word ≠ [] := by
  -- Only the empty word has nothing but the part that is left out.
  intro none
  rw [components_eq, List.map_eq_nil_iff] at none
  have whole := joinWith_parts word
  split at none
  · rename_i last
    obtain ⟨before, cut⟩ := List.getLast?_eq_some_iff.mp last
    rw [cut, List.dropLast_concat] at none
    rw [cut, none] at whole
    have empty : Text.joinWith [Symbol.lit '/'] ([] ++ [[]]) = [] := rfl
    rw [empty] at whole
    rw [← whole] at starred
    cases starred
  · exact Text.splitWhere_ne_nil _ _ none

/-! What is left of the names. -/

theorem undotted_idle (idles : ∀ name ∈ names, idle name = true) (some : "" ∉ names) :
    Undotted names [] := by
  induction names with
  | nil => exact .nil
  | cons name names ih =>
    obtain ⟨first, others⟩ := List.forall_mem_cons.mp idles
    obtain ⟨text, texts⟩ := not_or.mp (mt List.mem_cons.mpr some)
    obtain rfl : name = "." := by simpa [idle, Ne.symm text] using first
    exact .drop (ih others texts)

theorem trimmed_sublist (names : List String) : (trimmed names).Sublist names :=
  (List.rdropWhile_prefix _ _).sublist.trans (List.dropWhile_sublist _)

theorem undotted_trimmed (some : "" ∉ names) : Undotted names (trimmed names) := by
  have before : Undotted (names.takeWhile idle) [] :=
    undotted_idle (fun name member => List.mem_takeWhile_imp member) fun empty =>
      some ((List.takeWhile_sublist _).subset empty)
  have after : Undotted ((names.dropWhile idle).rtakeWhile idle) [] :=
    undotted_idle (fun name member => List.mem_rtakeWhile_imp member) fun empty =>
      some ((List.dropWhile_sublist _).subset ((List.rtakeWhile_suffix _ _).subset empty))
  have whole := before.append ((Undotted.refl (trimmed names)).append after)
  rwa [trimmed, List.rdropWhile_append_rtakeWhile, List.takeWhile_append_dropWhile,
    List.nil_append, List.append_nil] at whole

theorem undotted_filter (names : List String) : Undotted names (names.filter (· ≠ ".")) := by
  induction names with
  | nil => exact .nil
  | cons name names ih =>
    by_cases here : name = "."
    · subst here
      exact .drop ih
    · rw [List.filter_cons_of_pos (by simpa using here)]
      exact .keep name ih

theorem foldl_enter_undotted {xs ys : List String} (fewer : Undotted xs ys) :
    xs.foldl Path.enter p = ys.foldl Path.enter p := by
  induction fewer generalizing p with
  | nil => rfl
  | keep x _ ih => exact ih
  | drop _ ih => exact ih

/-- Resolution finds what names lead to, if none of them leads up or there are no links
to be led up from. -/
theorem held_resolved (normal : Normal cwd) (held : Held d Disk.linkLimit [] (cwd ++ names))
    (some : "" ∉ names) (whole : ∀ name ∈ names, '/' ∉ name.toList)
    (down : ".." ∉ names ∨ Linkless d) :
    Held d Disk.linkLimit [] (names.foldl Path.enter cwd) := by
  rcases down with noUp | linkless
  · have proper : Normal (names.filter (· ≠ ".")) := by
      intro name member
      obtain ⟨inside, notHere⟩ := List.mem_filter.mp member
      exact isName_iff.mpr ⟨fun empty => some (empty ▸ inside), of_decide_eq_true notHere,
        fun up => noUp (up ▸ inside), whole name inside⟩
    rw [foldl_enter_undotted (undotted_filter names), foldl_enter proper]
    exact held.undotted ((Undotted.refl cwd).append (undotted_filter names))
  · have named : "" ∉ cwd ++ names := by
      rw [List.mem_append, not_or]
      exact ⟨(parts_of_normal normal).1, some⟩
    have resolved := held.lexical linkless named
    rwa [List.foldl_append, foldl_enter normal, List.nil_append] at resolved

/-! Results of words that are written back as they stand. -/

/-- A name for a part of the word. -/
structure Instance (part : List Symbol) (name : String) : Prop where
  fills : Fills Within part name.toList
  text : name ≠ ""
  dotted : name = "." → Stands part "."

theorem instances_of_follows (filled : [] ∉ pieces) (shallow : [.star, .star] ∉ pieces)
    (follows : Follows (pieces.map Component.of) names) :
    List.Forall₂ Instance pieces names := by
  induction pieces generalizing names with
  | nil =>
    cases follows
    exact .nil
  | cons part pieces ih =>
    obtain ⟨text, texts⟩ := not_or.mp (mt List.mem_cons.mpr filled)
    obtain ⟨single, singles⟩ := not_or.mp (mt List.mem_cons.mpr shallow)
    rw [List.map_cons] at follows
    rcases of_cases part with ⟨deep, -⟩ | ⟨-, pattern⟩ | ⟨starless, spelt⟩
    · exact absurd deep.symm single
    · rw [pattern] at follows
      cases follows with
      | @pattern _ _ name _ stands onwards =>
        refine .cons ⟨stands.fills, ?_, fun here => here ▸ stands⟩ (ih texts singles onwards)
        rintro rfl
        rcases stands.named with proper | ⟨dots, -⟩
        · cases proper
        · simp at dots
    · rw [spelt] at follows
      cases follows with
      | name onwards =>
        have fills : Fills Within part (literal part).toList := fills_literal starless
        refine .cons ⟨fills, mt literal_eq_empty.mp (Ne.symm text), fun here => ?_⟩
          (ih texts singles onwards)
        refine ⟨here ▸ fills, .inr ⟨.inl rfl, ?_⟩⟩
        cases part with
        | nil => exact absurd rfl text
        | cons symbol part =>
          cases symbol with
          | star => exact absurd List.mem_cons_self starless
          | lit c =>
            have chars : c :: (literal part).toList = ['.'] := by
              rw [← toList_literal_lit, here]
              rfl
            rw [(List.cons.inj chars).1]
            rfl

theorem texts_of_instances (instances : List.Forall₂ Instance pieces names) : "" ∉ names := by
  induction instances with
  | nil => exact List.not_mem_nil
  | cons first _ ih => exact fun member => (List.mem_cons.mp member).elim (first.text ·.symm) ih

theorem dropWhile_instances (instances : List.Forall₂ Instance pieces names)
    (first : ∀ part, pieces.head? = some part → ¬Stands part ".") :
    names.dropWhile idle = names := by
  cases instances with
  | nil => rfl
  | cons named _ =>
    have goes := mt named.dotted (first _ rfl)
    exact List.dropWhile_cons_of_neg (by simp [idle, named.text, goes])

theorem trimmed_instances (instances : List.Forall₂ Instance pieces names)
    (first : ∀ part, pieces.head? = some part → ¬Stands part ".")
    (last : ∀ part, pieces.getLast? = some part → ¬Stands part ".") : trimmed names = names := by
  have back : names.reverse.dropWhile idle = names.reverse :=
    dropWhile_instances (List.forall₂_reverse_iff.mpr instances) fun part held =>
      last part (List.head?_reverse.symm.trans held)
  rw [trimmed, dropWhile_instances instances first, List.rdropWhile, back, List.reverse_reverse]

theorem fills_join (instances : List.Forall₂ Instance pieces names) :
    Fills Within (Text.joinWith [.lit '/'] pieces) (Text.join "/" names).toList := by
  induction instances with
  | nil => exact .done
  | @cons part name pieces names first others ih =>
    cases others with
    | nil => simpa [join_singleton, Text.joinWith] using first.fills
    | cons second others =>
      rw [Text.joinWith_cons_cons, join_cons_cons, String.toList_append, String.toList_append,
        List.append_assoc]
      exact first.fills.append (.lit ih)

/-! Results of any word. -/

theorem finds_sound (orderly : Orderly d) (normal : Normal cwd) (starred : .star ∈ word)
    (member : r ∈ finds d cwd word) :
    ∃ names, Follows (components word) names ∧ (∀ name ∈ names, '/' ∉ name.toList) ∧
      r = Text.join "/" (trimmed (spelled names)) ∧
      Held d Disk.linkLimit [] (cwd ++ spelled names) := by
  obtain ⟨r', found, rfl⟩ := List.mem_map.mp member
  obtain ⟨names, search, rfl⟩ := paths_sound found
  have follows := search.follows orderly
  have whole := follows.whole fun text => slash_not_mem_text
  have held := search.held orderly (components_ne_nil starred) whole
  rw [spelled_names_text normal] at held
  exact ⟨names, follows, whole, relative_extendAll whole, held⟩

theorem instance_of_steady (steady : Steady word) (follows : Follows (components word) names)
    (whole : ∀ name ∈ names, '/' ∉ name.toList) :
    Text.join "/" (trimmed (spelled names)) ≠ "" ∧
      Fills Within word (Text.join "/" (trimmed (spelled names))).toList := by
  have filled : (parts word).getLast? ≠ some [] := fun last =>
    steady.filled (List.mem_of_getLast? last)
  rw [components_eq, if_neg filled] at follows
  have instances := instances_of_follows steady.filled steady.shallow follows
  have texts := texts_of_instances instances
  have more : names ≠ [] := by
    rintro rfl
    cases none : parts word with
    | nil => exact Text.splitWhere_ne_nil _ _ none
    | cons _ _ =>
      rw [none] at instances
      cases instances
  have kept : trimmed (spelled names) = names := by
    rw [spelled, filter_names texts]
    exact trimmed_instances instances steady.first steady.last
  rw [kept]
  refine ⟨join_ne_empty more texts whole, ?_⟩
  have fills := fills_join instances
  rwa [joinWith_parts] at fills

/-- A word with a star that does not start at the root is expanded to itself, or to
something else and each result is written of names that follow its components. They
lead from the session's directory to an entry, and so does the path that they resolve
to, unless one of them is `..` and there are links on the disk. If the word is steady,
the result is not empty and is the word with each star replaced by text without a
slash. -/
theorem results_of_expanded_word (orderly : Orderly d) (normal : Normal cwd)
    (starred : .star ∈ word) (relative : word.head? ≠ some (.lit '/')) :
    (expand d cwd word).words = [literal word] ∨
    (expand d cwd word).words ≠ [] ∧ ∀ r ∈ (expand d cwd word).words,
      (∃ names, Follows (components word) names ∧ r = Text.join "/" (trimmed (spelled names))) ∧
      Held d Disk.linkLimit [] (cwd ++ Disk.steps r) ∧
      (".." ∉ Disk.steps r ∨ Linkless d → Held d Disk.linkLimit [] (Path.resolve cwd r)) ∧
      (Steady word → r ≠ "" ∧ Fills Within word r.toList) := by
  by_cases flawless : flaw? 0 false (lookedUp cwd word) = none
  case neg => exact .inl (words_flawed relative flawless)
  rw [expand_flawless relative flawless]
  by_cases none : finds d cwd word = []
  · exact .inl (if_pos none)
  refine .inr ⟨by simpa [none] using mt sort_eq_nil.mp none, fun r member => ?_⟩
  rw [if_neg none, mem_sort] at member
  obtain ⟨names, follows, whole, rfl, held⟩ := finds_sound orderly normal starred member
  have some : "" ∉ spelled names := by simp [spelled]
  have someKept : "" ∉ trimmed (spelled names) := fun empty =>
    some ((trimmed_sublist _).subset empty)
  have wholeKept : ∀ name ∈ trimmed (spelled names), '/' ∉ name.toList := fun name inside =>
    whole name (List.mem_of_mem_filter ((trimmed_sublist _).subset inside))
  have heldKept : Held d Disk.linkLimit [] (cwd ++ trimmed (spelled names)) :=
    held.undotted ((Undotted.refl cwd).append (undotted_trimmed some))
  refine ⟨⟨names, follows, rfl⟩, ?_, fun down => ?_, fun steady =>
    instance_of_steady steady follows whole⟩
  · rwa [steps_join someKept wholeKept]
  · rw [steps_join someKept wholeKept] at down
    rw [resolve_join someKept wholeKept]
    exact held_resolved normal heldKept someKept wholeKept down

/-- A file two directories down. -/
def nested : Disk where
  entries := [(["a"], .dir), (["a", "b"], .dir), (["a", "b", "x"], .file 0)]
  contents := [[]]

/-- Anything in the directory `a`. -/
def insideA : List Symbol := [.lit 'a', .lit '/', .star]

theorem result_inside_a :
    (Orderly nested ∧ Normal [] ∧ .star ∈ insideA ∧ insideA.head? ≠ some (.lit '/')) ∧
    (expand nested [] insideA).words = ["a/b"] ∧
    (".." ∉ Disk.steps "a/b" ∧ Held nested Disk.linkLimit [] (Path.resolve [] "a/b")) ∧
    Steady insideA ∧ Fills Within insideA "a/b".toList := by
  have disk : Orderly nested := by decide +kernel
  have root : Normal [] := normal_nil
  have starred : .star ∈ insideA := by decide
  have relative : insideA.head? ≠ some (.lit '/') := by decide
  have down : ".." ∉ Disk.steps "a/b" := by decide +kernel
  have cut : parts insideA = [[.lit 'a'], [.star]] := by decide
  have steady : Steady insideA := by
    refine ⟨by rw [cut]; decide, by rw [cut]; decide, fun part held => ?_, fun part held => ?_⟩
    · rw [cut] at held
      obtain rfl : [.lit 'a'] = part := Option.some.inj held
      exact not_stands_here (by decide)
    · rw [cut] at held
      obtain rfl : [.star] = part := Option.some.inj held
      exact not_stands_here (by decide)
  have found : finds nested [] insideA = ["a/b"] := by decide +kernel
  have words : (expand nested [] insideA).words = ["a/b"] := by
    rw [expand_flawless relative (by decide), found]
    simp [Text.sort]
  rcases results_of_expanded_word disk root starred relative with same | ⟨-, results⟩
  · rw [words] at same
    exact absurd same (by decide)
  · rw [words] at results
    obtain ⟨-, -, resolved, instances⟩ := results "a/b" List.mem_cons_self
    exact ⟨⟨disk, root, starred, relative⟩, words, ⟨down, resolved (.inl down)⟩, steady,
      (instances steady).2⟩

/-- An `x` one directory down, but for two stars that stand together. -/
def belowX : List Symbol := [.star, .star, .lit '/', .lit 'x']

/-- Two stars that are a whole part of a word stand for any number of names, so the
result is neither the word nor the word with text put for each star. -/
theorem deep_result_is_no_instance :
    .star ∈ belowX ∧ belowX.head? ≠ some (.lit '/') ∧
    (expand nested [] belowX).words = ["a/b/x"] ∧ "a/b/x" ≠ literal belowX ∧
    ¬Fills Within belowX "a/b/x".toList := by
  refine ⟨by decide, by decide, ?_, by decide, fun fills => ?_⟩
  · have found : finds nested [] belowX = ["a/b/x"] := by decide +kernel
    rw [expand_flawless (by decide) (by decide), found]
    simp [Text.sort]
  · have never : ¬Within '/' := fun other => other rfl
    exact absurd (fills.count never) (by decide)

end LineShell.MatchedWords
