import LineShell.Proofs.LineRuns
import LineShell.Proofs.PipedStages
import LineShell.Proofs.SortedLines
import LineShell.Proofs.WrittenLines

/-! Sorted lines collapsed. Equal lines are neighbours once they are sorted, so each line
is one run, the runs are in strict order, and a run is as long as its line is often there.
Between the stages of a pipe lines are written and read again, which changes none without
a carriage return. -/
namespace LineShell.CountedLines
open EchoLine LineRuns PipedStages ReadLines ReadOperands SortedLines TextOrder WrittenLines
open LineShell.Uniq StepAgreement

/-- How often each line is there: every line once, in strict order, with the number of its
occurrences. -/
structure Census (lines : List String) (gs : List Group) : Prop where
  ordered : (gs.map Group.line).Pairwise (· < ·)
  mem : ∀ line, line ∈ gs.map Group.line ↔ line ∈ lines
  count : ∀ g ∈ gs, g.count = lines.count g.line

variable {lines sorted ls : List String} {line : String} {gs : List Group} {g : Group}

theorem Census.eq_map (census : Census lines gs) :
    gs = (gs.map Group.line).map fun line => ⟨line, lines.count line⟩ := by
  rw [List.map_map]
  exact (List.map_id gs).symm.trans
    (List.map_congr_left fun g member => congrArg (Uniq.Group.mk g.line) (census.count g member))

theorem Census.unique {other : List Group} (census : Census lines gs)
    (census' : Census lines other) : other = gs := by
  have same : other.map Group.line = gs.map Group.line :=
    eq_of_pairwise_lt census'.ordered census.ordered fun line =>
      (census'.mem line).trans (census.mem line).symm
  rw [census'.eq_map, same, ← census.eq_map]

instance (lines : List String) (gs : List Group) : Decidable (Census lines gs) :=
  decidable_of_iff ((gs.map Group.line).Pairwise (· < ·) ∧
      ((∀ line ∈ gs.map Group.line, line ∈ lines) ∧ ∀ line ∈ lines, line ∈ gs.map Group.line) ∧
      ∀ g ∈ gs, g.count = lines.count g.line)
    ⟨fun ⟨ordered, ⟨sound, full⟩, count⟩ => ⟨ordered, fun line => ⟨sound line, full line⟩, count⟩,
      fun census => ⟨census.ordered,
        ⟨fun line => (census.mem line).mp, fun line => (census.mem line).mpr⟩, census.count⟩⟩

/-! Runs of sorted lines. -/

/-- The lines of non-empty runs are among those of the runs, in order. -/
theorem map_line_sublist (some : ∀ g ∈ gs, 1 ≤ g.count) : (gs.map Group.line).Sublist (spread gs) := by
  induction gs with
  | nil => exact .slnil
  | cons g gs ih =>
    obtain ⟨first, rest⟩ := List.forall_mem_cons.mp some
    obtain ⟨count, longer⟩ := Nat.exists_eq_add_of_le' first
    have lines : spread (g :: gs) = g.line :: (List.replicate count g.line ++ spread gs) := by
      simp [spread, linesOf, longer, List.replicate_succ]
    rw [List.map_cons, lines]
    exact ((ih rest).trans (List.sublist_append_right _ _)).cons_cons _

/-- The lines of runs are lines. -/
theorem mem_of_mem_spread (member : line ∈ spread gs) : line ∈ gs.map Group.line := by
  obtain ⟨g, inside, held⟩ := List.mem_flatMap.mp member
  rw [(List.mem_replicate.mp held).2]
  exact List.mem_map_of_mem inside

/-- If lines in order are not equal to their neighbours, the order is strict. -/
theorem pairwise_lt_of_apart (ordered : ls.Pairwise (· ≤ ·)) (apart : ls.IsChain (· ≠ ·)) :
    ls.Pairwise (· < ·) := by
  refine List.IsChain.pairwise ?_
  induction ls with
  | nil => exact .nil
  | cons line ls ih =>
    obtain ⟨least, later⟩ := List.pairwise_cons.mp ordered
    obtain ⟨first, rest⟩ := List.isChain_cons.mp apart
    refine List.isChain_cons.mpr ⟨fun next leads => ?_, ih later rest⟩
    exact lt_of_le_of_ne (least next (List.mem_of_mem_head? leads)) (first next leads)

/-- If no two runs are of one line, a run is as long as its line is often there. -/
theorem count_spread (once : (gs.map Group.line).Nodup) (member : g ∈ gs) :
    (spread gs).count g.line = g.count := by
  induction gs with
  | nil => cases member
  | cons h gs ih =>
    obtain ⟨fresh, others⟩ := List.nodup_cons.mp once
    have cut : spread (h :: gs) = linesOf h ++ spread gs := rfl
    rw [cut, List.count_append, linesOf, List.count_replicate]
    rcases List.mem_cons.mp member with rfl | later
    · have none : (spread gs).count g.line = 0 :=
        List.count_eq_zero.mpr fun held => fresh (mem_of_mem_spread held)
      rw [none, if_pos (beq_self_eq_true _), Nat.add_zero]
    · have other : h.line ≠ g.line := fun same => fresh (same ▸ List.mem_map_of_mem later)
      rw [ih others later, if_neg (by simpa using other), Nat.zero_add]

/-- The runs of sorted lines tell how often each line is there. -/
theorem census_of_cut (cut : Cut sorted gs) (ordered : sorted.Pairwise (· ≤ ·)) :
    Census sorted gs := by
  obtain ⟨rfl, some, apart⟩ := cut
  have among := map_line_sublist some
  have strict : (gs.map Group.line).Pairwise (· < ·) :=
    pairwise_lt_of_apart (ordered.sublist among) ((List.isChain_map _).mpr apart)
  exact ⟨strict, fun line => ⟨fun member => among.subset member, mem_of_mem_spread⟩,
    fun g member => (count_spread (strict.imp ne_of_lt) member).symm⟩

theorem Census.of_perm (census : Census sorted gs) (perm : sorted.Perm lines) : Census lines gs :=
  ⟨census.ordered, fun line => (census.mem line).trans perm.mem_iff,
    fun g member => (census.count g member).trans (perm.count_eq g.line)⟩

/-- All lines are counted. -/
theorem sum_count (cut : Cut lines gs) : (gs.map Group.count).sum = lines.length := by
  rw [← cut.whole]
  simp [spread, linesOf, List.length_flatMap]

/-- How lines are sorted without flags. -/
def plainOrder : Sort.Order := ⟨false, false⟩

theorem pairwise_sortLines (lines : List String) :
    (Sort.sortLines plainOrder lines).Pairwise (· ≤ ·) :=
  (sortLines_arranged plainOrder lines).ordered.imp fun before =>
    le_iff.mp (Ordering.isLE_iff_ne_gt.mpr before)

theorem census_groups_sortLines (lines : List String) :
    Census lines (groups (Sort.sortLines plainOrder lines)) :=
  (census_of_cut (groups_cut _) (pairwise_sortLines lines)).of_perm
    (sortLines_arranged plainOrder lines).perm

/-- Sorted lines without carriage returns are written and read back. -/
theorem lines_unlines_sortLines {bs : Bytes} (none : 13 ∉ bs) :
    Text.lines (Text.unlines (Sort.sortLines plainOrder (Text.lines bs))) =
      Sort.sortLines plainOrder (Text.lines bs) := by
  have read {line : String} (member : line ∈ Sort.sortLines plainOrder (Text.lines bs)) :
      line ∈ Text.lines bs :=
    (sortLines_arranged plainOrder (Text.lines bs)).perm.mem_iff.mp member
  refine lines_unlines_iff.mpr fun line member => ⟨feed_not_mem_lines (read member), fun ends => ?_⟩
  exact return_not_mem_lines none (read member) (List.mem_of_getLast? ends)

/-! The pipe. -/

section Pipe
variable {sh : Shell} {run : Substitution} {app : Application} {args : List String} {s : Session}
  {rest : Source} {p : Outlet} {bs : Bytes} {o : Options}

/-- Nothing is left of a stream that is read. -/
theorem skip_length (bs : Bytes) : Source.skip bs.length (.stream bs none) = .stream [] none := by
  rw [Source.skip, List.drop_length]

/-- A stage that prints lines on an output with room for them. -/
theorem stage_prints {name : String} (named : app.name = name) (enabled : app ∈ sh.applications)
    (plain : ∀ arg ∈ args, Plain arg)
    (prints : ∀ journal, PrintsLines (app.run args) (noted s journal) rest ls)
    (output : s.output = .outlet p) (takes : Takes p (Text.unlines ls)) :
    Proceeds (sh.stage run ⟨name :: args⟩) s
      { s with input := rest, output := .outlet (p.write (Text.unlines ls)).1 } := by
  subst named
  exact stage_proceeds enabled plain (fun journal => (prints journal).taken output takes)
    ((flush_write p _).trans (flush_of_takes takes))

/-- `sort` without operands reads the input. -/
theorem sort_prints_input (sound : s.input.fault = none) (held : s.input.held s.disk = bs) :
    PrintsLines (Sort.run []) s (s.input.skip bs.length)
      (Sort.sortLines plainOrder (Text.lines bs)) := by
  subst held
  have parsed : Options.parse "nrf".toList [] = .ok ⟨[], []⟩ := rfl
  have prints := prints_sorted parsed (.input sound .done)
  rw [List.flatMap_singleton] at prints
  exact prints

/-- `uniq` without operands reads the stream of a pipe. -/
theorem uniq_prints_stream (input : s.input = .stream bs none)
    (options : Options.parse "cdD".toList args = .ok o) (operands : o.operands = [])
    (sensible : (o.has 'c' && o.has 'D') = false) :
    PrintsLines (Uniq.run args) s (.stream [] none)
      (collapse (modeOf o) (o.has 'c') (Text.lines bs)) := by
  have streams : streams? o.operands = some ("-", none) := by
    rw [operands]
    rfl
  have reads : Reads s.disk s.cwd s.input ["-"] [bs] (.stream [] none) := by
    rw [input]
    exact .input rfl (skip_length bs ▸ .done)
  exact prints_collapsed options sensible streams reads

variable (sorts : .sort ∈ sh.applications) (collapses : .uniq ∈ sh.applications)
  (sound : s.input.fault = none) (held : s.input.held s.disk = bs) (clean : 13 ∉ bs)
  (output : s.output = .outlet p)
include sorts collapses sound held clean output

/-- `sort` into `uniq` prints the runs of the sorted lines. -/
theorem sort_uniq_proceeds
    (parsed : Command.parse line = .ok (.sequence [.pipe [⟨["sort"]⟩, ⟨"uniq" :: args⟩]]))
    (plain : ∀ arg ∈ args, Plain arg) (options : Options.parse "cdD".toList args = .ok o)
    (operands : o.operands = []) (sensible : (o.has 'c' && o.has 'D') = false)
    (rows : collapse (modeOf o) (o.has 'c') (Sort.sortLines plainOrder (Text.lines bs)) = ls)
    (takes : Takes p (Text.unlines ls)) :
    Proceeds (sh.evaluateLine line) s { s with
      input := s.input.skip bs.length, output := .outlet (p.write (Text.unlines ls)).1 } := by
  let sorted := Sort.sortLines plainOrder (Text.lines bs)
  let lost := { s with output := .unlimited }
  let between := { s with input := .stream (Text.unlines sorted) none }
  have sortStage : Proceeds (sh.stage (sh.substitute sh.levels) ⟨["sort"]⟩) lost { lost with
      input := s.input.skip bs.length, output := .outlet (Outlet.write {} (Text.unlines sorted)).1 } :=
    stage_prints rfl sorts (by simp) (fun _ => sort_prints_input sound held) rfl ⟨nofun, rfl⟩
  have collapsed (journal : List Record) :
      PrintsLines (Uniq.run args) (noted between journal) (.stream [] none) ls := by
    have prints := uniq_prints_stream (s := noted between journal) rfl options operands sensible
    rwa [lines_unlines_sortLines clean, rows] at prints
  have uniqStage : Proceeds (sh.stage (sh.substitute sh.levels) ⟨"uniq" :: args⟩) between
      { between with
        input := .stream [] none, output := .outlet (p.write (Text.unlines ls)).1 } :=
    stage_prints rfl collapses plain collapsed output takes
  exact line_proceeds parsed (pipe_proceeds sortStage rfl uniqStage)
    ((flush_write p _).trans (flush_of_takes takes))

/-- `sort` into `uniq` prints each line of the input once, in strict order, and with `-c`
the number of its occurrences before it. The numbers come to the number of lines read. -/
theorem sort_uniq_counts_lines :
    ∃ gs, Census (Text.lines bs) gs ∧ (∀ other, Census (Text.lines bs) other → other = gs) ∧
      (gs.map Group.count).sum = (Text.lines bs).length ∧
      ∀ counted : Bool, Takes p (Text.unlines (gs.map (Group.row counted))) →
        ∃ p' journal,
          (sh.evaluateLine (if counted then "sort | uniq -c" else "sort | uniq")).start s =
            some (.ok .proceed,
              { s with input := s.input.skip bs.length, output := .outlet p', journal }) ∧
          p'.taken = p.taken ++ Text.unlines (gs.map (Group.row counted)) := by
  have census := census_groups_sortLines (Text.lines bs)
  refine ⟨_, census, fun _ => census.unique, ?_, fun counted takes => ?_⟩
  · rw [sum_count (groups_cut _), (sortLines_arranged plainOrder (Text.lines bs)).perm.length_eq]
  · let rows := (groups (Sort.sortLines plainOrder (Text.lines bs))).map (Group.row counted)
    have ran : Proceeds (sh.evaluateLine (if counted then "sort | uniq -c" else "sort | uniq")) s
        { s with
          input := s.input.skip bs.length, output := .outlet (p.write (Text.unlines rows)).1 } := by
      cases counted with
      | false =>
        have options : Options.parse "cdD".toList [] = .ok ⟨[], []⟩ := rfl
        have parsed : Command.parse "sort | uniq" =
            .ok (.sequence [.pipe [⟨["sort"]⟩, ⟨["uniq"]⟩]]) :=
          parse_pipe (by simp) (by decide) (by decide)
        exact sort_uniq_proceeds sorts collapses sound held clean output parsed (by simp) options
          rfl rfl rfl takes
      | true =>
        have options : Options.parse "cdD".toList ["-c"] = .ok ⟨['c'], []⟩ := by decide +kernel
        have parsed : Command.parse "sort | uniq -c" =
            .ok (.sequence [.pipe [⟨["sort"]⟩, ⟨["uniq", "-c"]⟩]]) :=
          parse_pipe (by simp) (by decide) (by decide)
        exact sort_uniq_proceeds sorts collapses sound held clean output parsed (by decide) options
          rfl rfl rfl takes
    obtain ⟨journal, ran⟩ := ran s.journal
    exact ⟨_, journal, ran, (write_of_takes takes).1⟩

end Pipe

/-- Five lines, one of them empty, two equal, and the last one a byte that is not UTF-8. -/
def basket : Bytes := Text.bytes "b\n\na b\nb\n" ++ [255]

/-- A session that reads the basket. -/
def shopping : Session where
  input := .stream basket none

/-- The lines of the basket counted by the pipe. -/
theorem basket_counted :
    (.sort ∈ ({} : Shell).applications ∧ .uniq ∈ ({} : Shell).applications ∧
      shopping.input.fault = none ∧ shopping.input.held shopping.disk = basket ∧ 13 ∉ basket ∧
      shopping.output = .outlet {}) ∧
    ∃ p' journal, (({} : Shell).evaluateLine "sort | uniq -c").start shopping =
        some (.ok .proceed,
          { shopping with input := .stream [] none, output := .outlet p', journal }) ∧
      p'.taken = Text.bytes "      1 \n      1 a b\n      2 b\n      1 \uFFFD\n" := by
  have sorts : .sort ∈ ({} : Shell).applications := by decide
  have collapses : .uniq ∈ ({} : Shell).applications := by decide
  have clean : 13 ∉ basket := by decide +kernel
  have read : Text.lines basket = ["b", "", "a b", "b", "\uFFFD"] := by decide +kernel
  have census : Census (Text.lines basket)
      [⟨"", 1⟩, ⟨"a b", 1⟩, ⟨"b", 2⟩, ⟨"\uFFFD", 1⟩] := by
    rw [read]
    decide +kernel
  have held : shopping.input.held shopping.disk = basket := rfl
  refine ⟨⟨sorts, collapses, rfl, held, clean, rfl⟩, ?_⟩
  obtain ⟨gs, -, only, -, prints⟩ :=
    sort_uniq_counts_lines (p := {}) sorts collapses rfl held clean rfl
  obtain ⟨p', journal, ran, taken⟩ := prints true ⟨nofun, rfl⟩
  rw [← only _ census] at taken
  have skipped : shopping.input.skip basket.length = .stream [] none := skip_length basket
  rw [skipped] at ran
  refine ⟨p', journal, ran, ?_⟩
  rw [taken]
  decide +kernel

end LineShell.CountedLines
