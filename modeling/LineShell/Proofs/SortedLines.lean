import LineShell.Proofs.ChunkOrder
import LineShell.Proofs.ReadOperands

/-! What `sort` writes. The lines of all operands are put in order, and those that compare
equal stay as they came. There is only one such list, so how the lines are divided among
the operands makes no difference, and with `-r` the same list is turned round. -/
namespace LineShell.SortedLines
open LineShell.Sort ChunkOrder ReadOperands StepAgreement

/-- Lines put in order: the same lines, none before a smaller one, and those that compare
equal as they came. -/
structure Arranged (order : Order) (lines sorted : List String) : Prop where
  perm : sorted.Perm lines
  ordered : sorted.Pairwise fun a b => order.compare a b ≠ .gt
  stable : ∀ line, sorted.filter (order.compare line · = .eq) =
    lines.filter (order.compare line · = .eq)

variable {order : Order} {lines sorted other : List String} {a b line : String}

/-! The list is unique. -/

theorem eq_of_both (first : order.compare a b ≠ .gt) (second : order.compare b a ≠ .gt) :
    order.compare a b = .eq := by
  rw [@Std.OrientedCmp.eq_swap _ order.compare _ b a] at second
  cases result : order.compare a b with
  | lt => exact absurd (congrArg Ordering.swap result) second
  | eq => rfl
  | gt => exact absurd result first

/-- No line of an ordered list comes before the first. -/
theorem first_le {rest : List String} (ordered : (a :: rest).Pairwise fun a b => order.compare a b ≠ .gt)
    (member : b ∈ a :: rest) : order.compare a b ≠ .gt := by
  rcases List.mem_cons.mp member with rfl | later
  · rw [@Std.ReflCmp.compare_self _ order.compare]
    exact nofun
  · exact List.rel_of_pairwise_cons ordered later

/-- An ordered list is known from its members and from the order of those that compare
equal. -/
theorem eq_of_stable (perm : sorted.Perm other)
    (ordered : sorted.Pairwise fun a b => order.compare a b ≠ .gt)
    (ordered' : other.Pairwise fun a b => order.compare a b ≠ .gt)
    (stable : ∀ line, sorted.filter (order.compare line · = .eq) =
      other.filter (order.compare line · = .eq)) : sorted = other := by
  induction sorted generalizing other with
  | nil => exact (List.nil_perm.mp perm).symm
  | cons a sorted ih =>
    cases other with
    | nil => exact absurd perm.length_eq nofun
    | cons b other =>
      have first : order.compare a b = .eq := eq_of_both
        (first_le ordered (perm.mem_iff.mpr List.mem_cons_self))
        (first_le ordered' (perm.mem_iff.mp List.mem_cons_self))
      have self : order.compare a a = .eq := Std.ReflCmp.compare_self
      -- Both lists start with lines that compare equal, so this is one line.
      have heads := stable a
      rw [List.filter_cons_of_pos (by simp [self]), List.filter_cons_of_pos (by simp [first])]
        at heads
      obtain ⟨rfl, -⟩ := List.cons.inj heads
      congr 1
      refine ih perm.cons_inv ordered.of_cons ordered'.of_cons fun line => ?_
      have same := stable line
      rw [List.filter_cons, List.filter_cons] at same
      split at same
      · exact (List.cons.inj same).2
      · exact same

theorem Arranged.unique (arranged : Arranged order lines sorted)
    (arranged' : Arranged order lines other) : other = sorted :=
  eq_of_stable (arranged'.perm.trans arranged.perm.symm) arranged'.ordered arranged.ordered
    fun line => (arranged'.stable line).trans (arranged.stable line).symm

/-- Lines that compare equal stay as they came if those do that are there. -/
theorem stable_of_members (perm : sorted.Perm lines)
    (each : ∀ line ∈ lines, sorted.filter (order.compare line · = .eq) =
      lines.filter (order.compare line · = .eq)) (line : String) :
    sorted.filter (order.compare line · = .eq) = lines.filter (order.compare line · = .eq) := by
  by_cases met : ∃ member ∈ lines, order.compare line member = .eq
  · obtain ⟨member, inside, same⟩ := met
    have alike (other : String) : order.compare line other = order.compare member other :=
      Std.TransCmp.congr_left same
    simpa only [alike] using each member inside
  · have none : ∀ other ∈ lines, order.compare line other ≠ .eq :=
      fun other inside same => met ⟨other, inside, same⟩
    have none' : ∀ other ∈ sorted, order.compare line other ≠ .eq :=
      fun other inside => none other (perm.mem_iff.mp inside)
    rw [List.filter_eq_nil_iff.mpr (by simpa using none'),
      List.filter_eq_nil_iff.mpr (by simpa using none)]

instance (order : Order) (lines sorted : List String) : Decidable (Arranged order lines sorted) :=
  decidable_of_iff (sorted.Perm lines ∧ sorted.Pairwise (fun a b => order.compare a b ≠ .gt) ∧
      ∀ line ∈ lines, sorted.filter (order.compare line · = .eq) =
        lines.filter (order.compare line · = .eq))
    ⟨fun ⟨perm, ordered, each⟩ => ⟨perm, ordered, stable_of_members perm each⟩,
      fun arranged => ⟨arranged.perm, arranged.ordered, fun line _ => arranged.stable line⟩⟩

/-! Sorting gives it. -/

theorem sortLines_eq (order : Order) (lines : List String) :
    sortLines order lines = lines.mergeSort fun a b => (order.compare a b).isLE := by
  have keyed : (lines.mergeSort fun a b => (order.compare a b).isLE).map
      (fun line => (order.key line, line)) =
      (lines.map fun line => (order.key line, line)).mergeSort fun a b =>
        (order.compareKeys a.1 b.1).isLE := List.map_mergeSort fun _ _ _ _ => rfl
  rw [sortLines, ← keyed, List.map_map]
  exact List.map_id _

theorem le_total (a b : String) :
    ((order.compare a b).isLE || (order.compare b a).isLE) = true := by
  rw [@Std.OrientedCmp.eq_swap _ order.compare _ b a]
  cases order.compare a b <;> rfl

theorem sortLines_arranged (order : Order) (lines : List String) :
    Arranged order lines (sortLines order lines) := by
  rw [sortLines_eq]
  have trans (a b c : String) (first : (order.compare a b).isLE = true)
      (second : (order.compare b c).isLE = true) : (order.compare a c).isLE = true :=
    Std.TransCmp.isLE_trans first second
  have perm := List.mergeSort_perm lines fun a b => (order.compare a b).isLE
  refine ⟨perm, ?_, fun line => ?_⟩
  · exact (List.pairwise_mergeSort trans le_total lines).imp Ordering.isLE_iff_ne_gt.mp
  · -- Lines that compare equal are in order already, so sorting leaves them as a sublist.
    have among : (lines.filter (order.compare line · = .eq)).Pairwise
        fun a b => (order.compare a b).isLE = true := by
      refine List.pairwise_of_forall_mem_list fun a first b second => ?_
      have left : order.compare line a = .eq := by simpa using (List.mem_filter.mp first).2
      have right : order.compare line b = .eq := by simpa using (List.mem_filter.mp second).2
      have same : order.compare a b = .eq := Std.TransCmp.eq_trans (Std.OrientedCmp.eq_symm left) right
      rw [same]
      rfl
    have kept := List.sublist_mergeSort trans le_total among List.filter_sublist
    have inside := kept.filter (order.compare line · = .eq)
    rw [List.filter_filter] at inside
    simp only [Bool.and_self] at inside
    exact (inside.eq_of_length (perm.filter _).length_eq.symm).symm

/-! The run. -/

theorem prints_sorted {args : List String} {s : Session} {o : Options} {inputs : List Bytes}
    {rest : Source} (parsed : Options.parse "nrf".toList args = .ok o)
    (reads : Reads s.disk s.cwd s.input (o.operandsOr "-") inputs rest) :
    PrintsLines (Sort.run args) s rest
      (if o.has 'r' then (sortLines ⟨o.has 'n', o.has 'f'⟩ (inputs.flatMap Text.lines)).reverse
      else sortLines ⟨o.has 'n', o.has 'f'⟩ (inputs.flatMap Text.lines)) := by
  apply printsLines_of_start
  simp only [Sort.run, start_bind, start_options parsed, start_readAllOperands reads]

/-- In every order and for all lines there is exactly one list of the lines in that order in
which those that compare equal stay as they came. This is what `sort` writes of operands
that hold the lines, however these are divided among them, and with `-r` it writes the list
turned round. -/
theorem lines_are_sorted_stably (order : Order) (lines : List String) :
    ∃ sorted, Arranged order lines sorted ∧
      (∀ other, Arranged order lines other → other = sorted) ∧
      (∀ line, sorted.reverse.filter (order.compare line · = .eq) =
        (lines.filter (order.compare line · = .eq)).reverse) ∧
      ∀ (args : List String) (s : Session) (o : Options) (inputs : List Bytes) (rest : Source),
        Options.parse "nrf".toList args = .ok o →
        o.has 'n' = order.numeric → o.has 'f' = order.fold →
        Reads s.disk s.cwd s.input (o.operandsOr "-") inputs rest →
        inputs.flatMap Text.lines = lines →
        PrintsLines (Sort.run args) s rest (if o.has 'r' then sorted.reverse else sorted) := by
  have arranged := sortLines_arranged order lines
  refine ⟨sortLines order lines, arranged, fun _ => arranged.unique, fun line => ?_, ?_⟩
  · rw [List.filter_reverse, arranged.stable line]
  · rintro args s o inputs rest parsed numeric fold reads rfl
    have same : order = ⟨o.has 'n', o.has 'f'⟩ := by rw [numeric, fold]
    rw [same]
    exact prints_sorted parsed reads

/-- A session with a file of one line, and with three lines to read. -/
def bins : Session where
  disk := { entries := [(["f"], .file 0)], contents := [Text.bytes "a10\n"] }
  input := .stream (Text.bytes "a9\nb\na09") none

/-- Numbers in lines of a file and of the input, the greatest first. The two that are
equal come out in reverse. -/
theorem numbers_sorted_backwards :
    (Options.parse "nrf".toList ["-nr", "f", "-"] = .ok ⟨['n', 'r'], ["f", "-"]⟩ ∧
      Reads bins.disk bins.cwd bins.input ["f", "-"]
        [Text.bytes "a10\n", Text.bytes "a9\nb\na09"] .empty) ∧
    PrintsLines (Sort.run ["-nr", "f", "-"]) bins .empty ["b", "a10", "a09", "a9"] := by
  have parsed : Options.parse "nrf".toList ["-nr", "f", "-"] = .ok ⟨['n', 'r'], ["f", "-"]⟩ := by
    decide +kernel
  have reads : Reads bins.disk bins.cwd bins.input ["f", "-"]
      [Text.bytes "a10\n", Text.bytes "a9\nb\na09"] .empty :=
    .file (by decide) (by decide +kernel) (.input rfl .done)
  have arranged : Arranged ⟨true, false⟩ ["a10", "a9", "b", "a09"] ["a9", "a09", "a10", "b"] := by
    decide +kernel
  obtain ⟨sorted, -, only, -, prints⟩ :=
    lines_are_sorted_stably ⟨true, false⟩ ["a10", "a9", "b", "a09"]
  have printed : PrintsLines (Sort.run ["-nr", "f", "-"]) bins .empty sorted.reverse :=
    prints _ bins _ _ _ parsed rfl rfl reads (by decide +kernel)
  rw [← only _ arranged] at printed
  exact ⟨⟨parsed, reads⟩, printed⟩

end LineShell.SortedLines
