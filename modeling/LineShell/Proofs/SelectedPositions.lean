import Mathlib.Data.List.Sort
import LineShell.Proofs.EncodedText
import LineShell.Proofs.PositionLists
import LineShell.Proofs.ReadOperands

/-! What `cut` keeps of lines. The positions of a list are those that at least one of its
items stands for, so neither the order of the items nor how they overlap is seen in what
is kept, and each position comes once and in ascending order. Where all characters are
single bytes it makes no difference whether characters or bytes are counted. -/
namespace LineShell.SelectedPositions
open LineShell.Cut EncodedText PositionLists ReadOperands StepAgreement Text

/-- Whether a position is in one of the spans. -/
def Covered (spans : List Span) (p : Nat) : Prop :=
  ∃ span ∈ spans, span.first ≤ p ∧ ∀ last, span.last = some last → p ≤ last

/-- What is kept of a list: the members at the positions covered, counted from 1, each of
them once and in ascending order. -/
def Selects {α : Type} (spans : List Span) (xs kept : List α) : Prop :=
  ∃ positions : List Nat, positions.Pairwise (· < ·) ∧
    (∀ p, p ∈ positions ↔ (1 ≤ p ∧ p ≤ xs.length) ∧ Covered spans p) ∧
    kept.map some = positions.map fun p => xs[p - 1]?

/-- Arguments that ask for the characters, or else the bytes, at the positions of a list. -/
inductive Asks : List String → Bool → String → List String → Prop where
  | intro {args : List String} {o : Options} {characters : Bool} {list : String}
      {files : List String} (parsed : Options.parse "cb".toList args = .ok o)
      (kind : o.has 'c' = characters) (other : o.has 'b' = !characters)
      (operands : o.operands = list :: files) : Asks args characters list files

/-- The operands that are read: the files, or the input if there are none. -/
def inputsOf (files : List String) : List String := if files.isEmpty then ["-"] else files

/-- What is kept of a line. -/
def keep (characters : Bool) (spans : List Span) : String → String :=
  if characters then selectChars spans else selectBytes spans

variable {α β : Type} {spans spans' : List Span} {xs : List α} {args files : List String}
  {characters : Bool} {list : String} {s : Session} {inputs : List Bytes} {rest : Source}

/-! Selection. -/

theorem any_has_iff {p : Nat} : spans.any (·.has p) = true ↔ Covered spans p := by
  rw [List.any_eq_true]
  have has (span : Span) : span.has p = true ↔
      span.first ≤ p ∧ ∀ last, span.last = some last → p ≤ last := by
    obtain ⟨first, _ | last⟩ := span <;> simp [Span.has]
  simp only [has]
  rfl

/-- Members are selected by their positions. -/
theorem select_eq (spans : List Span) (xs : List α) :
    (select spans xs).map some =
      ((List.range' 1 xs.length).filter fun p => spans.any (·.has p)).map fun p => xs[p - 1]? := by
  suffices from_start : ∀ (before : List α),
      (((xs.zipIdx (before.length + 1)).filterMap fun placed =>
        if spans.any (·.has placed.2) then some placed.1 else none).map some) =
      ((List.range' (before.length + 1) xs.length).filter fun p => spans.any (·.has p)).map
        fun p => (before ++ xs)[p - 1]? by
    exact from_start []
  induction xs with
  | nil => exact fun _ => rfl
  | cons x xs ih =>
    intro before
    have later := ih (before ++ [x])
    rw [List.append_assoc, List.singleton_append, List.length_append,
      List.length_singleton] at later
    rw [List.zipIdx_cons, List.length_cons, List.range'_succ, List.filter_cons]
    cases chosen : spans.any (·.has (before.length + 1)) with
    | true =>
      rw [List.filterMap_cons_some (b := x) (by simp [chosen]), List.map_cons, later]
      simp
    | false =>
      rw [List.filterMap_cons_none (by simp [chosen]), later]
      simp

theorem select_selects (spans : List Span) (xs : List α) : Selects spans xs (select spans xs) := by
  refine ⟨_, ?_, fun p => ?_, select_eq spans xs⟩
  · exact (List.pairwise_lt_range' (s := 1)).filter _
  · rw [List.mem_filter, List.mem_range'_1, any_has_iff]
    have bounds : 1 ≤ p ∧ p < 1 + xs.length ↔ 1 ≤ p ∧ p ≤ xs.length := by omega
    rw [bounds]

/-- There is only one list that is kept. -/
theorem selects_iff {kept : List α} : Selects spans xs kept ↔ kept = select spans xs := by
  constructor
  · rintro ⟨positions, ordered, covered, members⟩
    obtain ⟨positions', ordered', covered', members'⟩ := select_selects spans xs
    have same : positions = positions' := ordered.eq_of_mem_iff ordered' fun p =>
      (covered p).trans (covered' p).symm
    apply List.map_injective_iff.mpr (Option.some_injective α)
    rw [members, members', same]
  · rintro rfl
    exact select_selects spans xs

instance [DecidableEq α] (spans : List Span) (xs kept : List α) :
    Decidable (Selects spans xs kept) :=
  decidable_of_iff _ selects_iff.symm

/-- Only the positions covered count. -/
theorem select_congr (same : ∀ p, 1 ≤ p → (Covered spans p ↔ Covered spans' p)) :
    (select spans : List α → List α) = select spans' := by
  funext xs
  apply List.filterMap_congr
  rintro ⟨x, p⟩ member
  have positive : 1 ≤ p := (List.mem_zipIdx member).1
  have alike : spans.any (·.has p) = spans'.any (·.has p) :=
    Bool.eq_iff_iff.mpr (by rw [any_has_iff, any_has_iff, same p positive])
  simp only [alike]

theorem keep_congr (same : ∀ p, 1 ≤ p → (Covered spans p ↔ Covered spans' p)) (characters : Bool) :
    keep characters spans = keep characters spans' := by
  have chars : (selectChars spans : String → String) = selectChars spans' := by
    funext line
    rw [selectChars, select_congr same, selectChars]
  have bytes : (selectBytes spans : String → String) = selectBytes spans' := by
    funext line
    rw [selectBytes, select_congr same, selectBytes]
  rw [keep, keep, chars, bytes]

/-! Characters of one byte. -/

theorem select_map (f : α → β) (spans : List Span) (xs : List α) :
    select spans (xs.map f) = (select spans xs).map f := by
  apply List.map_injective_iff.mpr (Option.some_injective β)
  calc (select spans (xs.map f)).map some
    _ = ((List.range' 1 xs.length).filter fun p => spans.any (·.has p)).map
          fun p => (xs.map f)[p - 1]? := by rw [select_eq, List.length_map]
    _ = ((select spans xs).map some).map (Option.map f) := by
      rw [select_eq, List.map_map]
      simp only [List.getElem?_map, Function.comp_def]
    _ = ((select spans xs).map f).map some := by simp

theorem select_subset (spans : List Span) (xs : List α) : select spans xs ⊆ xs := by
  intro x member
  have held : some x ∈ (select spans xs).map some := List.mem_map_of_mem member
  rw [select_eq] at held
  obtain ⟨p, -, there⟩ := List.mem_map.mp held
  exact List.mem_of_getElem? there

/-- The byte of a character that has only one. -/
def byteOf (c : Char) : UInt8 := UInt8.ofNat c.toNat

theorem encode_ascii {cs : List Char} (ascii : ∀ c ∈ cs, c.toNat < 128) :
    encode cs = cs.map byteOf := by
  induction cs with
  | nil => rfl
  | cons c cs ih =>
    obtain ⟨small, others⟩ := List.forall_mem_cons.mp ascii
    have value : c.val.toNat = c.toNat := rfl
    have single : String.utf8EncodeChar c = [byteOf c] := by
      simp only [String.utf8EncodeChar, value]
      rw [if_pos (by omega), byteOf]
    rw [encode_cons, single, ih others]
    rfl

theorem selectBytes_ascii {line : String} (ascii : ∀ c ∈ line.toList, c.toNat < 128) :
    selectBytes spans line = selectChars spans line := by
  have kept : ∀ c ∈ select spans line.toList, c.toNat < 128 := fun c member =>
    ascii c (select_subset spans _ member)
  rw [selectBytes, bytes, encode_ascii ascii, select_map, ← encode_ascii kept, stringLossy,
    decodeLossy_encode, selectChars]

/-! The run. -/

/-- What `cut` does once it has read its arguments. -/
def printKept (characters : Bool) (list : String) (files : List String) : Job Outcome :=
  match list? list with
  | none => throw (.invalidList list)
  | some spans => do
    let inputs ← Job.readAllOperands (inputsOf files)
    Job.writeLines ((inputs.flatMap lines).map (keep characters spans))
    return .proceed

theorem start_run (asks : Asks args characters list files) (s : Session) :
    (Cut.run args).start s = (printKept characters list files).start s := by
  obtain ⟨parsed, kind, other, operands⟩ := asks
  simp only [Cut.run, start_bind, start_options parsed, operands, kind, other]
  cases characters <;> rfl

theorem prints_kept (asks : Asks args characters list files) (listed : Lists list spans)
    (reads : Reads s.disk s.cwd s.input (inputsOf files) inputs rest) :
    PrintsLines (Cut.run args) s rest ((inputs.flatMap lines).map (keep characters spans)) := by
  apply printsLines_of_start
  rw [start_run asks, printKept, list?_eq_some_iff.mpr listed]
  simp only [start_bind, start_readAllOperands reads]

/-- The flag for characters or bytes, dashes, the list and the files ask for it. -/
theorem asks_kept (characters : Bool) (list : String) (files : List String) :
    Asks ((if characters then "-c" else "-b") :: "--" :: list :: files) characters list files := by
  cases characters with
  | true => exact .intro (o := ⟨['c'], list :: files⟩) rfl rfl rfl rfl
  | false => exact .intro (o := ⟨['b'], list :: files⟩) rfl rfl rfl rfl

/-- `cut` refuses what is not a list and then reads and writes nothing. Of every line that
it reads it keeps the characters at the positions that some item of the list stands for,
each once and in ascending order; a list that covers the same positions does the same, and
so does counting bytes where every character is one. -/
theorem positions_kept_are_the_union (list : String) :
    (∀ characters files,
      Asks ((if characters then "-c" else "-b") :: "--" :: list :: files) characters list files) ∧
    Complaint.message (.invalidList list) = list ++ ": Invalid list" ∧
    ((¬∃ spans, Lists list spans) → ∀ args characters files s, Asks args characters list files →
      (Cut.run args).start s = some (.error (.invalidList list), s)) ∧
    ∀ spans, Lists list spans →
      (∀ args files s inputs rest, Asks args true list files →
        Reads s.disk s.cwd s.input (inputsOf files) inputs rest →
        ∃ kept, PrintsLines (Cut.run args) s rest kept ∧
          List.Forall₂ (fun line out : String => Selects spans line.toList out.toList)
            (inputs.flatMap lines) kept ∧
          ((∀ line ∈ inputs.flatMap lines, ∀ c ∈ line.toList, c.toNat < 128) →
            ∀ args', Asks args' false list files → PrintsLines (Cut.run args') s rest kept)) ∧
      ∀ list' spans', Lists list' spans' →
        (∀ p, 1 ≤ p → (Covered spans p ↔ Covered spans' p)) →
        ∀ args args' characters files s, Asks args characters list files →
          Asks args' characters list' files → (Cut.run args').start s = (Cut.run args).start s := by
  refine ⟨fun characters files => asks_kept characters list files, rfl, ?_,
    fun spans listed => ⟨?_, ?_⟩⟩
  · intro unlisted args characters files s asks
    have refused : list? list = none := by
      rw [Option.eq_none_iff_forall_not_mem]
      exact fun spans read => unlisted ⟨spans, list?_eq_some_iff.mp read⟩
    rw [start_run asks, printKept, refused]
    rfl
  · intro args files s inputs rest asks reads
    refine ⟨_, prints_kept asks listed reads, ?_, fun ascii args' asks' => ?_⟩
    · rw [List.forall₂_map_right_iff]
      apply List.forall₂_same.mpr
      intro line _
      rw [keep, if_pos rfl, selectChars, String.toList_ofList]
      exact select_selects spans line.toList
    · have same : (inputs.flatMap lines).map (keep true spans) =
          (inputs.flatMap lines).map (keep false spans) :=
        List.map_congr_left fun line member => (selectBytes_ascii (ascii line member)).symm
      rw [same]
      exact prints_kept asks' listed reads
  · intro list' spans' listed' same args args' characters files s asks asks'
    rw [start_run asks, start_run asks', printKept, printKept, list?_eq_some_iff.mpr listed,
      list?_eq_some_iff.mpr listed']
    simp only [keep_congr same]

/-- A session with two lines to read. -/
def columns : Session where
  input := .stream (Text.bytes "abñd\nx\n") none

/-- A list with a plus sign and leading zeros, and one in another order that overlaps:
both keep the first position and those from the third on. -/
theorem open_range_and_position_kept :
    (Lists "+3-,001" [⟨3, none⟩, ⟨1, some 1⟩] ∧
      Reads columns.disk columns.cwd columns.input (inputsOf []) [Text.bytes "abñd\nx\n"] .empty) ∧
    ∃ kept, PrintsLines (Cut.run ["-c", "--", "+3-,001"]) columns .empty kept ∧
      kept = ["añd", "x"] ∧
      (Cut.run ["-c", "--", "1,3-5,4-,1"]).start columns =
        (Cut.run ["-c", "--", "+3-,001"]).start columns := by
  have listed : Lists "+3-,001" [⟨3, none⟩, ⟨1, some 1⟩] := by
    apply list?_eq_some_iff.mp
    decide +kernel
  have listed' : Lists "1,3-5,4-,1" [⟨1, some 1⟩, ⟨3, some 5⟩, ⟨4, none⟩, ⟨1, some 1⟩] := by
    apply list?_eq_some_iff.mp
    decide +kernel
  have reads : Reads columns.disk columns.cwd columns.input (inputsOf [])
      [Text.bytes "abñd\nx\n"] .empty := .input rfl .done
  have same (p : Nat) (positive : 1 ≤ p) : Covered [⟨3, none⟩, ⟨1, some 1⟩] p ↔
      Covered [⟨1, some 1⟩, ⟨3, some 5⟩, ⟨4, none⟩, ⟨1, some 1⟩] p := by
    simp [Covered]
    omega
  obtain ⟨-, -, -, accepted⟩ := positions_kept_are_the_union "+3-,001"
  obtain ⟨keeps, alike⟩ := accepted _ listed
  obtain ⟨kept, prints, selected, -⟩ := keeps _ [] columns _ _ (asks_kept true _ []) reads
  refine ⟨⟨listed, reads⟩, kept, prints, ?_,
    alike _ _ listed' same _ _ true [] columns (asks_kept true _ []) (asks_kept true _ [])⟩
  have read : [Text.bytes "abñd\nx\n"].flatMap lines = ["abñd", "x"] := by decide +kernel
  rw [read] at selected
  cases selected with
  | cons first rest =>
    cases rest with
    | cons second none =>
      cases none
      have firstKept := (selects_iff.mp first).trans (show _ = "añd".toList by decide +kernel)
      have secondKept := (selects_iff.mp second).trans (show _ = "x".toList by decide +kernel)
      rw [String.toList_inj.mp firstKept, String.toList_inj.mp secondKept]

end LineShell.SelectedPositions
