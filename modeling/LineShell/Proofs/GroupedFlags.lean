import LineShell.Application.Options
import Mathlib.Data.List.TakeWhile
import Mathlib.Logic.Relation
import Mathlib.Tactic.ByContra
import Mathlib.Tactic.Tauto

/-! What arguments come to. Before the first `--` an argument is an operand or gives flags, one
for each letter after its dash; behind it all are operands. So nothing is left of the arguments
but their letters, in reading order, and their operands: how the letters are grouped and where
they stand among the operands makes no difference. -/
namespace LineShell.GroupedFlags

/-- The arguments before the first `--`. -/
def before (args : List String) : List String := args.takeWhile (· ≠ "--")

/-- The arguments behind it. -/
def behind (args : List String) : List String := (args.dropWhile (· ≠ "--")).drop 1

/-- An argument that gives flags: it starts with a dash and is neither `-` nor `--`. -/
def GivesFlags (arg : String) : Prop := arg.toList.head? = some '-' ∧ arg ≠ "-" ∧ arg ≠ "--"

instance (arg : String) : Decidable (GivesFlags arg) := inferInstanceAs (Decidable (_ ∧ _))

/-- The flags that an argument gives. -/
def flagsOf (arg : String) : List Char := arg.toList.drop 1

/-- All flags given, in reading order. -/
def letters (args : List String) : List Char := ((before args).filter GivesFlags).flatMap flagsOf

/-- All operands, in order. -/
def operands (args : List String) : List String :=
  (before args).filter Options.isOperand ++ behind args

/-- One argument with the flags of two. -/
def joined (first second : String) : String := String.ofList (first.toList ++ flagsOf second)

/-- Flags grouped in another way before the first `--`: joined in one argument, given again, or
moved past an operand. -/
inductive Regrouped : List String → List String → Prop where
  | join {first second : String} (earlier later : List String) (none : "--" ∉ earlier)
      (here : GivesFlags first) (next : GivesFlags second) :
      Regrouped (earlier ++ first :: second :: later) (earlier ++ joined first second :: later)
  | again {arg : String} (earlier later : List String) (none : "--" ∉ earlier)
      (here : GivesFlags arg) : Regrouped (earlier ++ arg :: later) (earlier ++ arg :: arg :: later)
  | past {arg operand : String} (earlier later : List String) (none : "--" ∉ earlier)
      (here : GivesFlags arg) (next : Options.isOperand operand = true) :
      Regrouped (earlier ++ arg :: operand :: later) (earlier ++ operand :: arg :: later)

/-- What can be told of arguments that were read: the operands and which flags are set. -/
def seen (o : Options) : List String × (Char → Bool) := (o.operands, o.has)

variable {legal : List Char} {arg operand first second : String} {args args' rest : List String}
  {c : Char}

/-! One argument more. -/

theorem isOperand_iff : Options.isOperand arg = true ↔ ¬GivesFlags arg ∧ arg ≠ "--" := by
  by_cases dashes : arg = "--"
  · subst dashes
    decide
  · simp only [Options.isOperand, GivesFlags, dashes, Bool.or_eq_true, decide_eq_true_eq, ne_eq,
      not_false_eq_true, and_true]
    tauto

theorem before_cons (other : arg ≠ "--") : before (arg :: rest) = arg :: before rest :=
  List.takeWhile_cons_of_pos (by simpa using other)

theorem behind_cons (other : arg ≠ "--") : behind (arg :: rest) = behind rest := by
  rw [behind, List.dropWhile_cons_of_pos (by simpa using other), behind]

theorem letters_operand (plain : Options.isOperand arg = true) :
    letters (arg :: rest) = letters rest := by
  obtain ⟨flagless, other⟩ := isOperand_iff.mp plain
  rw [letters, before_cons other, List.filter_cons_of_neg (by simpa using flagless), letters]

theorem letters_flags (gives : GivesFlags arg) :
    letters (arg :: rest) = flagsOf arg ++ letters rest := by
  rw [letters, before_cons gives.2.2, List.filter_cons_of_pos (by simpa using gives),
    List.flatMap_cons, letters]

theorem operands_operand (plain : Options.isOperand arg = true) :
    operands (arg :: rest) = arg :: operands rest := by
  have other := (isOperand_iff.mp plain).2
  rw [operands, before_cons other, behind_cons other, List.filter_cons_of_pos plain,
    List.cons_append, operands]

theorem operands_flags (gives : GivesFlags arg) : operands (arg :: rest) = operands rest := by
  have flags : ¬Options.isOperand arg = true := fun plain => (isOperand_iff.mp plain).1 gives
  rw [operands, before_cons gives.2.2, behind_cons gives.2.2, List.filter_cons_of_neg flags,
    operands]

/-! Reading. -/

/-- Arguments are read as their letters and operands, unless a letter is not known. -/
theorem parse_eq (legal : List Char) (args : List String) :
    Options.parse legal args =
      match (letters args).find? (!legal.contains ·) with
      | some c => .error (.illegalOption c)
      | none => .ok ⟨letters args, operands args⟩ := by
  induction args with
  | nil => rfl
  | cons arg rest ih =>
    unfold Options.parse
    by_cases plain : Options.isOperand arg = true
    · rw [if_pos plain, ih, letters_operand plain, operands_operand plain]
      cases (letters rest).find? (!legal.contains ·) <;> rfl
    · rw [if_neg plain]
      by_cases dashes : arg = "--"
      · rw [if_pos dashes]
        subst dashes
        rfl
      · rw [if_neg dashes]
        have gives : GivesFlags arg := by
          by_contra flagless
          exact plain (isOperand_iff.mpr ⟨flagless, dashes⟩)
        rw [ih, letters_flags gives, operands_flags gives, List.find?_append]
        dsimp only [flagsOf]
        cases (arg.toList.drop 1).find? (!legal.contains ·) with
        | some c => rfl
        | none => cases (letters rest).find? (!legal.contains ·) <;> rfl

theorem mem_letters : c ∈ letters args ↔ ∃ arg ∈ before args, GivesFlags arg ∧ c ∈ flagsOf arg := by
  simp only [letters, List.mem_flatMap, List.mem_filter, decide_eq_true_eq, and_assoc]

/-- A letter other than the dash stands in an argument that gives flags if it is one of them. -/
theorem mem_flagsOf (gives : GivesFlags arg) (letter : c ≠ '-') :
    c ∈ flagsOf arg ↔ c ∈ arg.toList := by
  obtain ⟨dash, -, -⟩ := gives
  rw [flagsOf]
  cases cs : arg.toList with
  | nil => rfl
  | cons d ds =>
    rw [cs] at dash
    obtain rfl := Option.some.inj dash
    simp [letter]

/-! Grouping. -/

theorem toList_joined : (joined first second).toList = first.toList ++ flagsOf second :=
  String.toList_ofList

theorem flagsOf_joined (gives : GivesFlags first) :
    flagsOf (joined first second) = flagsOf first ++ flagsOf second := by
  have some : 1 ≤ first.toList.length := by
    cases cs : first.toList with
    | nil => simp [GivesFlags, cs] at gives
    | cons => simp
  rw [flagsOf, toList_joined, List.drop_append_of_le_length some]
  rfl

theorem givesFlags_joined (here : GivesFlags first) (next : GivesFlags second) :
    GivesFlags (joined first second) := by
  have longer {arg : String} (gives : GivesFlags arg) : flagsOf arg ≠ [] := by
    obtain ⟨dash, more, -⟩ := gives
    rw [flagsOf]
    intro none
    cases cs : arg.toList with
    | nil => simp [cs] at dash
    | cons d ds =>
      rw [cs] at dash none
      obtain rfl := Option.some.inj dash
      obtain rfl : ds = [] := none
      exact more (String.toList_inj.mp cs)
  have size : 2 < (joined first second).toList.length := by
    have one := List.length_pos_iff.mpr (longer here)
    have two := List.length_pos_iff.mpr (longer next)
    rw [toList_joined, List.length_append]
    rw [flagsOf, List.length_drop] at one
    omega
  refine ⟨?_, ?_, ?_⟩
  · obtain ⟨dash, -, -⟩ := here
    rw [toList_joined, List.head?_append, dash]
    rfl
  · intro short
    rw [short] at size
    exact absurd size (by decide)
  · intro short
    rw [short] at size
    exact absurd size (by decide)

/-- Arguments that come before the first `--` count one by one. -/
theorem letters_append (none : "--" ∉ args) : letters (args ++ rest) = letters args ++ letters rest := by
  have all : ∀ arg ∈ args, decide (arg ≠ "--") = true := fun arg member =>
    decide_eq_true fun same => none (same ▸ member)
  have whole : before args = args := List.takeWhile_eq_self_iff.mpr all
  rw [letters, letters, whole, before, List.takeWhile_append_of_pos all, List.filter_append,
    List.flatMap_append, letters, before]

theorem operands_append (none : "--" ∉ args) :
    operands (args ++ rest) = args.filter Options.isOperand ++ operands rest := by
  have all : ∀ arg ∈ args, decide (arg ≠ "--") = true := fun arg member =>
    decide_eq_true fun same => none (same ▸ member)
  rw [operands, before, behind, List.takeWhile_append_of_pos all, List.dropWhile_append_of_pos all,
    List.filter_append, List.append_assoc, operands, before, behind]

theorem Regrouped.operands_eq (regrouped : Regrouped args args') : operands args = operands args' := by
  cases regrouped with
  | join earlier later none here next =>
    rw [operands_append none, operands_append none, operands_flags here, operands_flags next,
      operands_flags (givesFlags_joined here next)]
  | again earlier later none here =>
    rw [operands_append none, operands_append none, operands_flags here, operands_flags here,
      operands_flags here]
  | past earlier later none here next =>
    rw [operands_append none, operands_append none, operands_flags here, operands_operand next,
      operands_operand next, operands_flags here]

/-- The same letters are given, and the first of those that some condition picks is the same. -/
theorem Regrouped.letters_alike (regrouped : Regrouped args args') :
    (∀ c, c ∈ letters args ↔ c ∈ letters args') ∧
      ∀ picks : Char → Bool, (letters args).find? picks = (letters args').find? picks := by
  cases regrouped with
  | join earlier later none here next =>
    rw [letters_append none, letters_append none, letters_flags here, letters_flags next,
      letters_flags (givesFlags_joined here next), flagsOf_joined here, List.append_assoc]
    exact ⟨fun _ => Iff.rfl, fun _ => rfl⟩
  | again earlier later none here =>
    rw [letters_append none, letters_append none, letters_flags here, letters_flags here,
      letters_flags here]
    refine ⟨fun c => ?_, fun picks => ?_⟩
    · simp only [List.mem_append, or_self_left]
    · simp only [List.find?_append]
      cases (flagsOf _).find? picks <;> rfl
  | past earlier later none here next =>
    rw [letters_append none, letters_append none, letters_flags here, letters_operand next,
      letters_operand next, letters_flags here]
    exact ⟨fun _ => Iff.rfl, fun _ => rfl⟩

/-! What is told. -/

theorem seen_congr (same : ∀ c, c ∈ letters args ↔ c ∈ letters args')
    (operands : operands args = operands args') :
    seen ⟨letters args, GroupedFlags.operands args⟩ =
      seen ⟨letters args', GroupedFlags.operands args'⟩ := by
  have flags (c : Char) : (letters args).contains c = (letters args').contains c :=
    Bool.eq_iff_iff.mpr (by simpa using same c)
  exact Prod.ext operands (funext flags)

theorem Regrouped.parse_alike (legal : List Char) (regrouped : Regrouped args args') :
    (Options.parse legal args).map seen = (Options.parse legal args').map seen := by
  obtain ⟨same, first⟩ := regrouped.letters_alike
  rw [parse_eq, parse_eq, first]
  cases (letters args').find? (!legal.contains ·) with
  | some c => rfl
  | none => exact congrArg Except.ok (seen_congr same regrouped.operands_eq)

/-- Reading arguments fails just if an argument before the first `--` that gives flags has a
letter that is not known, and then tells the first of these. Otherwise the operands are those
before the `--` and all that is behind it, and a flag is set if its letter stands in an argument
that gives flags. So the result stays the same, operands, flags and failures, however flags
before the `--` are split up, joined, given again or moved past operands. -/
theorem arguments_are_letters_and_operands (legal : List Char) (args : List String) :
    ((∃ e, Options.parse legal args = .error e) ↔
      ∃ arg ∈ before args, GivesFlags arg ∧ ∃ c ∈ flagsOf arg, c ∉ legal) ∧
    (∀ e, Options.parse legal args = .error e →
      ∃ c earlier later, e = .illegalOption c ∧ letters args = earlier ++ c :: later ∧
        (∀ letter ∈ earlier, letter ∈ legal) ∧ c ∉ legal) ∧
    (∀ o, Options.parse legal args = .ok o →
      o.operands = (before args).filter Options.isOperand ++ behind args ∧
      (∀ c, o.has c = true ↔ ∃ arg ∈ before args, GivesFlags arg ∧ c ∈ flagsOf arg) ∧
      ∀ c, c ≠ '-' → (o.has c = true ↔ ∃ arg ∈ before args, GivesFlags arg ∧ c ∈ arg.toList)) ∧
    ∀ args', Relation.EqvGen Regrouped args args' →
      (Options.parse legal args).map seen = (Options.parse legal args').map seen := by
  refine ⟨?_, fun e failed => ?_, fun o read => ?_, fun args' regrouped => ?_⟩
  · have unknown : (∃ arg ∈ before args, GivesFlags arg ∧ ∃ c ∈ flagsOf arg, c ∉ legal) ↔
        ∃ c ∈ letters args, c ∉ legal := by
      simp only [mem_letters]
      tauto
    rw [unknown, parse_eq]
    cases first : (letters args).find? (!legal.contains ·) with
    | some c =>
      have picked := List.find?_some first
      exact iff_of_true ⟨_, rfl⟩ ⟨c, List.mem_of_find?_eq_some first, by simpa using picked⟩
    | none =>
      have known : ∀ c ∈ letters args, c ∈ legal := by simpa using first
      exact iff_of_false nofun fun ⟨c, given, unknown⟩ => unknown (known c given)
  · rw [parse_eq] at failed
    split at failed
    · rename_i c first
      cases failed
      obtain ⟨unknown, earlier, later, cut, known⟩ := List.find?_eq_some_iff_append.mp first
      exact ⟨c, earlier, later, rfl, cut, by simpa using known, by simpa using unknown⟩
    · cases failed
  · rw [parse_eq] at read
    split at read
    · cases read
    · cases read
      have has (c : Char) : Options.has ⟨letters args, operands args⟩ c = true ↔
          ∃ arg ∈ before args, GivesFlags arg ∧ c ∈ flagsOf arg := by
        rw [← mem_letters, Options.has, List.contains_iff_mem]
      refine ⟨rfl, has, fun c letter => (has c).trans ?_⟩
      refine exists_congr fun arg => and_congr_right fun _ => and_congr_right fun gives => ?_
      exact mem_flagsOf gives letter
  · induction regrouped with
    | rel _ _ once => exact once.parse_alike legal
    | refl => rfl
    | symm _ _ _ ih => exact ih.symm
    | trans _ _ _ _ _ first second => exact first.trans second

/-- Two letters in one argument before an operand, and one by one around it: both times `-x`
behind the `--` is an operand. Of two letters that are not known the first is told. -/
theorem two_letters_around_operand :
    (Relation.EqvGen Regrouped ["-nr", "a", "--", "-x"] ["-n", "a", "-r", "--", "-x"] ∧
      Options.parse "nrf".toList ["-nr", "a", "--", "-x"] = .ok ⟨['n', 'r'], ["a", "-x"]⟩ ∧
      Options.parse "nrf".toList ["-n", "a", "-rzq"] = .error (.illegalOption 'z')) ∧
    (Options.parse "nrf".toList ["-n", "a", "-r", "--", "-x"]).map seen =
      .ok (seen ⟨['n', 'r'], ["a", "-x"]⟩) ∧
    ["a", "-x"] = (before ["-nr", "a", "--", "-x"]).filter Options.isOperand ++ ["-x"] ∧
    ∃ earlier later, letters ["-n", "a", "-rzq"] = earlier ++ 'z' :: later ∧
      ∀ letter ∈ earlier, letter ∈ "nrf".toList := by
  have split : Regrouped ["-n", "-r", "a", "--", "-x"] ["-nr", "a", "--", "-x"] :=
    .join [] ["a", "--", "-x"] (by decide) (by decide) (by decide)
  have moved : Regrouped ["-n", "-r", "a", "--", "-x"] ["-n", "a", "-r", "--", "-x"] :=
    .past ["-n"] ["--", "-x"] (by decide) (by decide) (by decide)
  have regrouped : Relation.EqvGen Regrouped ["-nr", "a", "--", "-x"] ["-n", "a", "-r", "--", "-x"] :=
    .trans _ _ _ (.symm _ _ (.rel _ _ split)) (.rel _ _ moved)
  obtain ⟨-, -, read, alike⟩ :=
    arguments_are_letters_and_operands "nrf".toList ["-nr", "a", "--", "-x"]
  obtain ⟨-, told, -⟩ := arguments_are_letters_and_operands "nrf".toList ["-n", "a", "-rzq"]
  refine ⟨⟨regrouped, rfl, rfl⟩, (alike _ regrouped).symm, (read _ rfl).1, ?_⟩
  obtain ⟨c, earlier, later, same, cut, known, -⟩ := told (.illegalOption 'z') rfl
  cases same
  exact ⟨earlier, later, cut, known⟩

end LineShell.GroupedFlags
