import LineShell.Proofs.ExtendedPaths
import LineShell.Proofs.PlacePaths
import LineShell.Proofs.TextOrder
import LineShell.Proofs.WildcardWords

/-! Wildcards in one directory. A word without a slash is looked up among the names in
the session's directory, so what it stands for is known from these names alone: neither
the order in which they come nor the path of the directory makes a difference. -/
namespace LineShell.DirectoryMatches
open ExtendedPaths PathNames PlacePaths TextOrder WalkedPaths Wildcard WildcardWords

/-- The names in a directory that the word stands for, in their order. -/
def matching (d : Disk) (p : Place) (word : List Symbol) : List String :=
  Text.sort ((d.children p).filter fun name => covers word name.toList)

variable {d : Disk} {cwd p : Place} {word : List Symbol} {base name : String} {pos : Nat}
  {afterSlash : Bool} {cs : List Char}

/-! Words whose stars stand apart. -/

theorem flaw?_of_apart (apart : ¬[.star, .star] <:+: word) : flaw? pos afterSlash word = none := by
  induction word generalizing pos afterSlash with
  | nil => rfl
  | cons symbol word ih =>
    have onwards : ¬[.star, .star] <:+: word := fun pair =>
      apart (pair.trans (List.suffix_cons symbol word).isInfix)
    cases symbol with
    | lit c => exact ih onwards
    | star =>
      cases word with
      | nil => rfl
      | cons second word =>
        cases second with
        | lit c => exact @ih (pos + 1) false onwards
        | star => exact absurd ⟨[], word, rfl⟩ apart

theorem flaw?_lits (apart : ¬[.star, .star] <:+: word) :
    flaw? pos afterSlash (cs.map .lit ++ word) = none := by
  induction cs generalizing pos afterSlash with
  | nil => exact flaw?_of_apart apart
  | cons c cs ih => exact ih

theorem components_of_apart (starred : .star ∈ word) (whole : .lit '/' ∉ word)
    (apart : ¬[.star, .star] <:+: word) : components word = [.pattern word] := by
  have clean : ∀ symbol ∈ word, decide (symbol = Symbol.lit '/') = false := fun symbol member =>
    decide_eq_false (by rintro rfl; exact whole member)
  have text : word ≠ [] := List.ne_nil_of_mem starred
  have single : word ≠ [.star, .star] := by
    rintro rfl
    exact apart (List.infix_refl _)
  have found : hasStar word = true := List.contains_iff_mem.mpr starred
  simp [components, Text.splitWhere_clean clean, text, Component.of, single, found]

/-! What is looked up, and where. -/

theorem fills_lits : Fills (fun _ => True) (cs.map .lit ++ word) (cs ++ name.toList) ↔
    Fills (fun _ => True) word name.toList := by
  induction cs with
  | nil => rfl
  | cons c cs ih =>
    refine Iff.trans ⟨?_, .lit⟩ ih
    rintro ⟨⟩
    assumption

theorem toList_extend (base name : String) :
    (extend base name).toList = (extend base "").toList ++ name.toList := by
  unfold extend
  split <;> simp

/-- The pattern that is looked up matches the path of a name exactly if the word
stands for the name, whatever characters the path of the directory has. -/
theorem matches_lookedUp :
    Matches (patternText (lookedUp cwd word)).toList (extend cwd.text name).toList ↔
      Fills (fun _ => True) word name.toList := by
  rw [matches_patternText, toList_extend, lookedUp, fills_lits]

theorem namesAt_text (normal : Normal cwd) (here : d.find cwd = .ok (p, .dir)) :
    namesAt d cwd.text = d.children p := by
  rw [namesAt, locateText_text normal, require_eq_ok_iff.mp here]

theorem relative_child (orderly : Orderly d) (child : name ∈ d.children p) :
    relative base (extend base name) = name := by
  obtain ⟨some, notHere, -, whole⟩ := isName_iff.mp (child_sought orderly child).1
  have one : extendAll base [name] = extend base name := rfl
  have kept : trimmed (spelled [name]) = [name] := by
    simp [trimmed, spelled, idle, some, notHere]
  rw [← one, relative_extendAll (by simpa using whole), kept, join_singleton]

theorem paths_one (plain : word.head? ≠ some (.lit '.')) :
    paths d false [.pattern word] base =
      ((namesAt d base).filter fun name => covers word name.toList).map (extend base) := by
  simp [paths, plain, List.map_eq_flatMap]

/-! The names that are found. -/

theorem mem_matching : name ∈ matching d p word ↔
    (d.entry? (p ++ [name])).isSome = true ∧ Fills (fun _ => True) word name.toList := by
  rw [matching, mem_sort, List.mem_filter, mem_children, covers_iff]

theorem matching_pairwise (orderly : Orderly d) : (matching d p word).Pairwise (· < ·) :=
  sort_pairwise ((children_nodup orderly.once).filter _)

/-- What a word without a slash is expanded to. -/
theorem expand_one (orderly : Orderly d) (normal : Normal cwd) (here : d.find cwd = .ok (p, .dir))
    (starred : .star ∈ word) (whole : .lit '/' ∉ word) (plain : word.head? ≠ some (.lit '.'))
    (apart : ¬[.star, .star] <:+: word) : expand d cwd word =
      { words := if matching d p word = [] then [literal word] else matching d p word } := by
  have noSlash : decide (word.getLast? = some (.lit '/')) = false :=
    decide_eq_false fun last => whole (List.mem_of_getLast? last)
  have back : ∀ name ∈ (d.children p).filter fun name => covers word name.toList,
      (relative cwd.text ∘ extend cwd.text) name = id name := fun name member => by
    rw [Function.comp_apply, relative_child orderly (List.mem_filter.mp member).1, id]
  have found : finds d cwd word = (d.children p).filter fun name => covers word name.toList := by
    rw [finds, noSlash, components_of_apart starred whole apart, paths_one plain,
      namesAt_text normal here, List.map_map, List.map_congr_left back, List.map_id]
  have flawless : flaw? 0 false (lookedUp cwd word) = none := flaw?_lits apart
  rw [expand_flawless (fun first => whole (List.mem_of_head? first)) flawless, found]
  simp only [matching, sort_eq_nil]

/-- A word with a star, without a slash, not beginning with a dot and with its stars
apart stands for the names in the session's directory that can be cut as it says, in
their order and each once, and for itself if there is none. The pattern that is looked
up says the same of the paths. Nothing else makes a difference: from another disk or
directory with the same names the word stands for the same. -/
theorem word_stands_for_matching_names (orderly : Orderly d) (normal : Normal cwd)
    (here : d.find cwd = .ok (p, .dir)) (starred : .star ∈ word) (whole : .lit '/' ∉ word)
    (plain : word.head? ≠ some (.lit '.')) (apart : ¬[.star, .star] <:+: word) :
    (∃ names, names.Pairwise (· < ·) ∧
      (∀ name, name ∈ names ↔ (d.entry? (p ++ [name])).isSome = true ∧
        Fills (fun _ => True) word name.toList) ∧
      expand d cwd word = { words := if names = [] then [literal word] else names }) ∧
    (∀ name, Matches (patternText (lookedUp cwd word)).toList (extend cwd.text name).toList ↔
      Fills (fun _ => True) word name.toList) ∧
    ∀ d' cwd' p', Orderly d' → Normal cwd' → d'.find cwd' = .ok (p', .dir) →
      (∀ name, (d'.entry? (p' ++ [name])).isSome = (d.entry? (p ++ [name])).isSome) →
      expand d' cwd' word = expand d cwd word := by
  refine ⟨⟨_, matching_pairwise orderly, fun name => mem_matching,
    expand_one orderly normal here starred whole plain apart⟩, fun name => matches_lookedUp,
    fun d' cwd' p' orderly' normal' here' same => ?_⟩
  have names : matching d' p' word = matching d p word := by
    refine eq_of_pairwise_lt (matching_pairwise orderly') (matching_pairwise orderly) fun name => ?_
    rw [mem_matching, mem_matching, same]
  rw [expand_one orderly' normal' here' starred whole plain apart, names,
    expand_one orderly normal here starred whole plain apart]

/-- A directory with a hidden name, one with marks of its own and one that does not
match, in a directory that looks like a pattern. -/
def marked : Disk where
  entries := [(["[a*]"], .dir), (["[a*]", "bxb"], .file 0), (["[a*]", "?x]*"], .dir),
    (["[a*]", "none"], .file 1), (["[a*]", ".x"], .link "gone")]
  contents := [[], []]

/-- The same names in the root of another disk, in another order. -/
def plainly : Disk where
  entries := [([".x"], .dir), (["none"], .dir), (["?x]*"], .link "none"), (["bxb"], .dir)]

/-- Any text with an `x` in it. -/
def aroundX : List Symbol := [.star, .lit 'x', .star]

theorem names_around_x :
    (Orderly marked ∧ Normal ["[a*]"] ∧ marked.find ["[a*]"] = .ok (["[a*]"], .dir)) ∧
    (.star ∈ aroundX ∧ .lit '/' ∉ aroundX ∧ aroundX.head? ≠ some (.lit '.') ∧
      ¬[.star, .star] <:+: aroundX) ∧
    (Orderly plainly ∧ Normal [] ∧ plainly.find [] = .ok ([], .dir)) ∧
    expand marked ["[a*]"] aroundX = { words := [".x", "?x]*", "bxb"] } ∧
    expand plainly [] aroundX = { words := [".x", "?x]*", "bxb"] } := by
  have disk : Orderly marked := by decide +kernel
  have normal : Normal ["[a*]"] := fun name member => by
    rw [List.mem_singleton.mp member]
    decide
  have here : marked.find ["[a*]"] = .ok (["[a*]"], .dir) := by decide +kernel
  have starred : .star ∈ aroundX := by decide
  have whole : .lit '/' ∉ aroundX := by decide
  have plain : aroundX.head? ≠ some (.lit '.') := by decide
  have apart : ¬[.star, .star] <:+: aroundX := by decide
  have disk' : Orderly plainly := by decide +kernel
  have root : Normal [] := nofun
  have here' : plainly.find [] = .ok ([], .dir) := by decide +kernel
  obtain ⟨⟨names, ordered, member, words⟩, -, only⟩ :=
    word_stands_for_matching_names disk normal here starred whole plain apart
  have same (name : String) : (plainly.entry? ([] ++ [name])).isSome =
      (marked.entry? (["[a*]"] ++ [name])).isSome := by
    have names : (plainly.children []).Perm (marked.children ["[a*]"]) := by decide +kernel
    rw [Bool.eq_iff_iff, ← mem_children, ← mem_children, names.mem_iff]
  have found : names = [".x", "?x]*", "bxb"] := by
    refine eq_of_pairwise_lt ordered (by decide +kernel) fun name => ?_
    have perm : ((marked.children ["[a*]"]).filter fun name => covers aroundX name.toList).Perm
        [".x", "?x]*", "bxb"] := by decide +kernel
    rw [member, ← mem_children, ← covers_iff, ← perm.mem_iff, List.mem_filter]
  subst found
  exact ⟨⟨disk, normal, here⟩, ⟨starred, whole, plain, apart⟩, ⟨disk', root, here'⟩, words,
    (only plainly [] [] disk' root here' same).trans words⟩

end LineShell.DirectoryMatches
