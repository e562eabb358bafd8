import Mathlib.Data.List.Chain
import LineShell.Proofs.DiskTrees
import LineShell.Proofs.ReadOperands

/-! What `uniq` makes of lines. Lines are cut into maximal runs of equal lines in one way
only, and each mode writes these runs: one line for each, the number of its lines before
it, or the lines of runs of two or more. The numbered rows can be read back, whatever the
lines begin with, because the number ends at the first blank after it. -/
namespace LineShell.LineRuns
open LineShell.Uniq OpenedTargets ReadOperands RedirectedOutput StepAgreement

/-- The lines of a run. -/
def linesOf (g : Group) : List String := List.replicate g.count g.line

/-- The lines of several runs, one run after the other. -/
def spread (gs : List Group) : List String := gs.flatMap linesOf

/-- A cut of lines into maximal runs: all lines are in it, no run is empty, and no two
neighbours are runs of one line. -/
structure Cut (lines : List String) (gs : List Group) : Prop where
  whole : spread gs = lines
  some : ∀ g ∈ gs, 1 ≤ g.count
  apart : gs.IsChain (·.line ≠ ·.line)

/-- Reads a numbered row: blanks, a number, one blank, and the line. -/
def readRow? (row : String) : Option Group :=
  let text := row.toList.dropWhile (· = ' ')
  let digits := text.takeWhile Char.isDigit
  match text.drop digits.length with
  | ' ' :: line => some ⟨String.ofList line, Nat.ofDigitChars 10 digits 0⟩
  | _ => none

variable {lines ls : List String} {line : String} {gs : List Group} {g : Group}

/-! The cut. -/

theorem groups_cons (line : String) (lines : List String) :
    groups (line :: lines) =
      match groups lines with
      | g :: rest => if line = g.line then ⟨line, g.count + 1⟩ :: rest else ⟨line, 1⟩ :: g :: rest
      | [] => [⟨line, 1⟩] := rfl

theorem groups_cut (lines : List String) : Cut lines (groups lines) := by
  induction lines with
  | nil => exact ⟨rfl, by simp [groups], .nil⟩
  | cons line lines ih =>
    obtain ⟨whole, some, apart⟩ := ih
    rw [groups_cons]
    split
    · rename_i g rest cut
      rw [cut] at whole some apart
      split
      · -- The line makes the first run longer, and its neighbour stays.
        rename_i same
        subst same
        refine ⟨?_, ?_, ?_⟩
        · rw [← whole]
          simp [spread, linesOf, List.replicate_succ]
        · exact List.forall_mem_cons.mpr ⟨by simp, (List.forall_mem_cons.mp some).2⟩
        · cases rest with
          | nil => exact .singleton _
          | cons next rest => exact List.isChain_cons_cons.mpr (List.isChain_cons_cons.mp apart)
      · rename_i other
        refine ⟨?_, List.forall_mem_cons.mpr ⟨Nat.le_refl 1, some⟩,
          List.isChain_cons_cons.mpr ⟨other, apart⟩⟩
        rw [← whole]
        simp [spread, linesOf]
    · rename_i cut
      rw [cut] at whole
      rw [← whole]
      exact ⟨by simp [spread, linesOf], by simp, .singleton _⟩

/-- Equal lines before lines that begin with another one are one run more. -/
theorem groups_replicate (count : Nat) (apart : ∀ g ∈ (groups lines).head?, line ≠ g.line) :
    groups (List.replicate (count + 1) line ++ lines) = ⟨line, count + 1⟩ :: groups lines := by
  induction count with
  | zero =>
    rw [List.replicate_one, List.singleton_append, groups_cons]
    split
    · rename_i g rest cut
      rw [if_neg (apart g (by simp [cut])), cut]
    · rename_i cut
      rw [cut]
  | succ count ih =>
    rw [List.replicate_succ, List.cons_append, groups_cons, ih]
    exact if_pos rfl

theorem groups_spread (some : ∀ g ∈ gs, 1 ≤ g.count) (apart : gs.IsChain (·.line ≠ ·.line)) :
    groups (spread gs) = gs := by
  induction gs with
  | nil => rfl
  | cons g gs ih =>
    obtain ⟨first, others⟩ := List.forall_mem_cons.mp some
    obtain ⟨neighbour, rest⟩ := List.isChain_cons.mp apart
    obtain ⟨count, longer⟩ := Nat.exists_eq_add_of_le' first
    have later := ih others rest
    have next : ∀ h ∈ (groups (spread gs)).head?, g.line ≠ h.line := by
      rw [later]
      exact neighbour
    have split : spread (g :: gs) = List.replicate (count + 1) g.line ++ spread gs := by
      rw [← longer]
      rfl
    rw [split, groups_replicate count next, later, ← longer]

theorem Cut.unique (cut : Cut lines gs) : gs = groups lines := by
  rw [← cut.whole, groups_spread cut.some cut.apart]

/-- Lines of which no neighbours are equal are runs of one. -/
theorem collapse_of_apart (apart : ls.IsChain (· ≠ ·)) : collapse .all false ls = ls := by
  have cut : Cut ls (ls.map (⟨·, 1⟩)) := by
    refine ⟨?_, by simp, List.isChain_map _ |>.mpr apart⟩
    simp [spread, linesOf, List.flatMap_map]
  have rows : collapse .all false ls = (groups ls).map Group.line := rfl
  rw [rows, ← cut.unique, List.map_map]
  exact List.map_id _

/-! Numbered rows. -/

theorem row_toList (g : Group) : ∃ blanks, (g.row true).toList =
    List.replicate blanks ' ' ++ (Nat.toDigits 10 g.count ++ ' ' :: g.line.toList) := by
  refine ⟨7 - (toString g.count).length, ?_⟩
  have digits : (toString g.count).toList = Nat.toDigits 10 g.count := Nat.toList_repr
  simp only [Group.row, if_true, Cat.padLeft, String.toList_append, String.toList_ofList, digits,
    List.append_assoc]
  rfl

/-- A row is read back, whatever its line begins with. -/
theorem readRow?_row (g : Group) : readRow? (g.row true) = some g := by
  obtain ⟨blanks, row⟩ := row_toList g
  have isDigit : ∀ c ∈ Nat.toDigits 10 g.count, c.isDigit = true := fun c member =>
    Nat.isDigit_of_mem_toDigits (by decide) (by decide) member
  obtain ⟨first, more, number⟩ := List.exists_cons_of_ne_nil (@Nat.toDigits_ne_nil g.count 10)
  have notBlank : first ≠ ' ' := by
    rintro rfl
    have blank := isDigit ' ' (by simp [number])
    exact absurd blank (by decide)
  have text : (g.row true).toList.dropWhile (· = ' ') =
      Nat.toDigits 10 g.count ++ ' ' :: g.line.toList := by
    rw [row, List.dropWhile_append_of_pos (by simp), number, List.cons_append,
      List.dropWhile_cons_of_neg (by simpa using notBlank)]
  have digits : (Nat.toDigits 10 g.count ++ ' ' :: g.line.toList).takeWhile Char.isDigit =
      Nat.toDigits 10 g.count := by
    rw [List.takeWhile_append_of_pos isDigit, List.takeWhile_cons_of_neg (by decide),
      List.append_nil]
  simp only [readRow?, text, digits, List.drop_left,
    Nat.ofDigitChars_toDigits (show 1 < 10 by decide) (Nat.le_refl 10), String.ofList_toList]

theorem mapM_readRow? (gs : List Group) : (gs.map (Group.row true)).mapM readRow? = some gs := by
  induction gs with
  | nil => rfl
  | cons g gs ih =>
    rw [List.map_cons, List.mapM_cons, readRow?_row, ih]
    rfl

/-! The run. -/

/-- Which runs are written, by the flags given. -/
def modeOf (o : Options) : Mode :=
  if o.has 'D' then .allRepeated else if o.has 'd' then .repeated else .all

theorem openForWriting_file {d : Disk} {p : Place} {id : FileId}
    (leads : lead? d p = some (.file id)) :
    d.openForWriting p false = .ok (d.setContent id [], id) := by
  obtain ⟨q, ends⟩ := lead?_eq_file.mp leads
  rw [Disk.openForWriting, spot?_eq_some.mp ends]
  rfl

theorem setContent_setContent (d : Disk) (id : FileId) (old new : Bytes) :
    (d.setContent id old).setContent id new = d.setContent id new := by
  simp [Disk.setContent]

section Run
variable {args : List String} {s : Session} {o : Options} {name input output : String} {bs : Bytes}
  {rest : Source} {id : FileId}

/-- A file that is written holds the lines, and no others are changed. -/
theorem start_writeFile (leads : lead? s.disk (Path.resolve s.cwd name) = some (.file id)) :
    (writeFile name ls).start s =
      some (.ok (), { s with disk := s.disk.setContent id (Text.unlines ls) }) := by
  have isDir := isDir_of_lead (Option.isSome_of_eq_some leads)
  simp only [writeFile, start_bind, start_resolve, start_view, isDir, Bool.false_eq_true, if_false,
    openForWriting_file leads, start_change, setContent_setContent]

variable (parsed : Options.parse "cdD".toList args = .ok o)
  (sensible : (o.has 'c' && o.has 'D') = false)
include parsed sensible

/-- Without a second operand the output gets the lines. -/
theorem prints_collapsed (operands : streams? o.operands = some (input, none))
    (reads : Reads s.disk s.cwd s.input [input] [bs] rest) :
    PrintsLines (Uniq.run args) s rest (collapse (modeOf o) (o.has 'c') (Text.lines bs)) := by
  apply printsLines_of_start
  simp only [Uniq.run, start_bind, start_options parsed, operands, sensible, Bool.false_eq_true,
    if_false, start_readOperand reads]
  rfl

/-- A second operand that leads to a file gets the lines, even if they were read from it. -/
theorem start_overwrite (operands : streams? o.operands = some (input, some output))
    (reads : Reads s.disk s.cwd s.input [input] [bs] rest)
    (leads : lead? s.disk (Path.resolve s.cwd output) = some (.file id)) :
    (Uniq.run args).start s = some (.ok .proceed, { s with
      input := rest
      disk := s.disk.setContent id
        (Text.unlines (collapse (modeOf o) (o.has 'c') (Text.lines bs))) }) := by
  have wrote (ls : List String) : (writeFile output ls).start { s with input := rest } = _ :=
    start_writeFile leads
  simp only [Uniq.run, start_bind, start_options parsed, operands, sensible, Bool.false_eq_true,
    if_false, start_readOperand reads]
  simp only [wrote, start_pure]
  rfl

end Run

theorem streams?_one {o : Options} {input : String} (operands : o.operandsOr "-" = [input]) :
    streams? o.operands = some (input, none) := by
  unfold Options.operandsOr at operands
  split at operands
  · rename_i none
    obtain rfl := List.singleton_inj.mp operands
    rw [List.isEmpty_iff.mp none]
    rfl
  · rw [operands]
    rfl

/-- The content of files after one of them was written. -/
theorem contentAt?_setContent {d : Disk} {id : FileId} (held : id < d.contents.length) (bs : Bytes)
    (p : Place) : contentAt? (d.setContent id bs) p =
      if lead? d p = some (.file id) then some bs else contentAt? d p := by
  unfold contentAt?
  rw [lead?_setContent]
  rcases lead? d p with _ | other | q
  · rfl
  · simp only [content_setContent bs other held, Option.some.injEq, Lead.file.injEq]
    split <;> rfl
  · rfl

/-- Lines are cut into maximal runs in one way only. `uniq` writes one line for each run,
so that no neighbours are equal and nothing is left to collapse; with `-c` rows that are
read back as the runs; with `-d` those of two or more lines only, with `-D` the lines of
these. That is what the output gets or a second operand, which may lead to the file that
the lines were read from. -/
theorem lines_are_run_length_encoded (lines : List String) :
    ∃ gs, (∀ other, Cut lines other ↔ other = gs) ∧ spread gs = lines ∧
      collapse .all false lines = gs.map Group.line ∧
      (collapse .all false lines).IsChain (· ≠ ·) ∧
      collapse .all false (collapse .all false lines) = collapse .all false lines ∧
      (collapse .all true lines).mapM readRow? = some gs ∧
      collapse .repeated false lines = (gs.filter (2 ≤ ·.count)).map Group.line ∧
      collapse .repeated true lines = (gs.filter (2 ≤ ·.count)).map (Group.row true) ∧
      collapse .allRepeated false lines = spread (gs.filter (2 ≤ ·.count)) ∧
      ∀ (args : List String) (s : Session) (o : Options) (input : String) (bs : Bytes) (rest : Source),
        Options.parse "cdD".toList args = .ok o → (o.has 'c' && o.has 'D') = false →
        Reads s.disk s.cwd s.input [input] [bs] rest → Text.lines bs = lines →
        (o.operandsOr "-" = [input] →
          PrintsLines (Uniq.run args) s rest (collapse (modeOf o) (o.has 'c') lines)) ∧
        ∀ output id, o.operands = [input, output] → Sound s.disk →
          lead? s.disk (Path.resolve s.cwd output) = some (.file id) →
          ∃ d, (Uniq.run args).start s = some (.ok .proceed, { s with input := rest, disk := d }) ∧
            ∀ p, contentAt? d p =
              if lead? s.disk p = some (.file id) then
                some (Text.unlines (collapse (modeOf o) (o.has 'c') lines))
              else contentAt? s.disk p := by
  have cut := groups_cut lines
  have apart : (collapse .all false lines).IsChain (· ≠ ·) := (List.isChain_map _).mpr cut.apart
  refine ⟨groups lines, fun other => ⟨Cut.unique, fun same => same ▸ cut⟩, cut.whole, rfl, apart,
    collapse_of_apart apart, mapM_readRow? _, rfl, rfl, rfl, ?_⟩
  rintro args s o input bs rest parsed sensible reads rfl
  refine ⟨fun operand => ?_, fun output id operands sound leads => ?_⟩
  · exact prints_collapsed parsed sensible (streams?_one operand) reads
  · have streams : streams? o.operands = some (input, some output) := by
      rw [operands]
      rfl
    exact ⟨_, start_overwrite parsed sensible streams reads leads,
      contentAt?_setContent (sound.lt leads) _⟩

/-- A session with a file of three lines, two of which begin with a number and a blank. -/
def numbers : Session where
  disk := { entries := [(["f"], .file 0)], contents := [Text.bytes "7 x\n7 x\n\n"] }

/-- A file is collapsed into itself, with numbers, and the rows can be read back. -/
theorem file_collapsed_into_itself :
    (Options.parse "cdD".toList ["-c", "f", "./f"] = .ok ⟨['c'], ["f", "./f"]⟩ ∧
      Reads numbers.disk numbers.cwd numbers.input ["f"] [Text.bytes "7 x\n7 x\n\n"] .empty ∧
      Sound numbers.disk ∧
      lead? numbers.disk (Path.resolve numbers.cwd "./f") = some (.file 0)) ∧
    ∃ d, (Uniq.run ["-c", "f", "./f"]).start numbers =
        some (.ok .proceed, { numbers with disk := d }) ∧
      contentAt? d ["f"] = some (Text.bytes "      2 7 x\n      1 \n") ∧
      ["      2 7 x", "      1 "].mapM readRow? = some [⟨"7 x", 2⟩, ⟨"", 1⟩] := by
  have parsed : Options.parse "cdD".toList ["-c", "f", "./f"] = .ok ⟨['c'], ["f", "./f"]⟩ := by
    decide +kernel
  have reads : Reads numbers.disk numbers.cwd numbers.input ["f"]
      [Text.bytes "7 x\n7 x\n\n"] .empty := .file (by decide) (by decide +kernel) .done
  have sound : Sound numbers.disk := by decide
  have leads : lead? numbers.disk (Path.resolve numbers.cwd "./f") = some (.file 0) := by
    decide +kernel
  have held : Text.lines (Text.bytes "7 x\n7 x\n\n") = ["7 x", "7 x", ""] := by decide +kernel
  obtain ⟨gs, -, -, -, -, -, -, -, -, -, runs⟩ := lines_are_run_length_encoded ["7 x", "7 x", ""]
  obtain ⟨d, ran, contents⟩ :=
    (runs _ numbers _ "f" _ .empty parsed rfl reads held).2 "./f" 0 rfl sound leads
  refine ⟨⟨parsed, reads, sound, leads⟩, d, ran, ?_, by decide +kernel⟩
  rw [contents]
  decide +kernel

end LineShell.LineRuns
