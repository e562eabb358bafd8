import LineShell.Proofs.DiskTrees
import LineShell.Proofs.ExtendedFiles

/-! `tee`. Its operands are opened one after the other, before anything is read. Those that
can be opened lead to files, or to free names that become files, and operands that lead to
different ones are open on different files. So what is read, in whatever blocks, is added to
the end of each of them and to what the output has taken. -/
namespace LineShell.SpreadInputs
open CopiedInputs EchoLine ExtendedFiles OpenedTargets ReadOperands RedirectedOutput StepAgreement

/-- What can be opened for an operand. -/
def leads (s : Session) (name : String) : Option Lead := lead? s.disk (Path.resolve s.cwd name)

/-- The operands that can be opened. -/
def openable (s : Session) (names : List String) : List String :=
  names.filter fun name => (leads s name).isSome

/-- An operand as a file to open. -/
def target (keep : Bool) (cwd : Place) (name : String) : Target := ⟨keep, Path.resolve cwd name⟩

/-- What opens a file: `keep` writes at its end, and otherwise it is empty. -/
def handle (keep : Bool) (id : FileId) : Sink := .file id (if keep then none else some 0)

/-- What is said of the first operand that cannot be opened, once those before it are open. -/
def Complains (keep : Bool) (s : Session) (names : List String) : Option Complaint → Prop
  | none => ∀ name ∈ names, (leads s name).isSome
  | some e => ∃ earlier name later targets s', names = earlier ++ name :: later ∧
      (∀ other ∈ earlier, (leads s other).isSome) ∧ leads s name = none ∧
      (Job.forEach (Tee.openTarget keep) earlier).start s = some (.ok targets, s') ∧
      (Tee.openTarget keep name).start s' = some (.error e, s')

/-- `tee` with any way to copy its input to the outputs that it has opened. -/
def copying (copy : List Sink → Act IoError (List Sink)) (args : List String) : Job Outcome := do
  let o ← Job.options "a" args
  let targets ← Job.forEach (Tee.openTarget (o.has 'a')) o.operands
  let _ ← Job.ofIo (copy (Tee.opened targets))
  Job.flush
  Job.settle (Job.firstComplaint? targets)

/-- What a copy is given of the input before this ends or fails, and what is left of it: all
that the input holds, or any blocks that its reads give. -/
inductive Delivers (s : Session) :
    (List Sink → Act IoError (List Sink)) → Bytes → Option IoError → Source → Prop where
  | input : Delivers s (Job.pumpAll Tee.spread) (s.input.held s.disk) s.input.fault
      (s.input.skip (s.input.held s.disk).length)
  | blocks (blocks : List Bytes) (fault : Option IoError) :
      Delivers s (feed Tee.spread fault blocks) blocks.flatten fault s.input

/-- What a copy comes to: the failure of its input, or else what is said of an operand. -/
def outcome : Option IoError → Option Complaint → Except Complaint Outcome
  | some e, _ => .error (.io e)
  | none, some e => .error e
  | none, none => .ok .proceed

/-- The output takes everything, and the operands that can be opened lead to different files,
none of which is the output or the input. -/
structure Apart (s : Session) (names : List String) : Prop where
  sound : Sound s.disk
  output : Unbounded s.disk s.output
  distinct : (openable s names).Pairwise fun a b => leads s a ≠ leads s b
  unwritten : ∀ id, file? s.output = some id → ∀ name ∈ names, leads s name ≠ some (.file id)
  unread : ∀ id pos, s.input = .file id pos → id < s.disk.contents.length ∧
    file? s.output ≠ some id ∧ ∀ name ∈ names, leads s name ≠ some (.file id)

/-- What becomes of the files: the data comes after what was kept of every operand that can
be opened, and after what an output that is a file held, and no other path leads to anything
else than before. -/
structure Copied (s : Session) (keep : Bool) (names : List String) (data : Bytes) (D : Disk) :
    Prop where
  holds : ∀ name ∈ openable s names, contentAt? D (Path.resolve s.cwd name) =
    some ((target keep s.cwd name).base s.disk ++ data)
  output : ∀ id, file? s.output = some id → D.content id = s.disk.content id ++ data
  others : ∀ p, (∀ name ∈ openable s names, lead? s.disk p ≠ leads s name) →
    (∀ id, file? s.output = some id → lead? s.disk p ≠ some (.file id)) →
    contentAt? D p = contentAt? s.disk p
  entries : ∀ p, (∀ name ∈ names, leads s name ≠ some (.free p)) → D.entry? p = s.disk.entry? p

/-- On the disk `D` the operands that can be opened are the files `ids`. -/
structure Opens (keep : Bool) (s : Session) (names : List String) (ids : List FileId) (D : Disk) :
    Prop where
  opened : Opened s.disk ((openable s names).map (target keep s.cwd)) D
  files : (openable s names).map (fun name => lead? D (Path.resolve s.cwd name)) =
    ids.map fun id => some (Lead.file id)
  old : ∀ id ∈ ids, id < s.disk.contents.length →
    ∃ name ∈ openable s names, leads s name = some (.file id)

variable {s s' : Session} {d D : Disk} {keep : Bool} {name : String} {names : List String}
  {ids : List FileId} {id : FileId}

theorem place_target (keep : Bool) (cwd : Place) (name : String) :
    (target keep cwd name).place = Path.resolve cwd name := by
  rw [target]

theorem opened_none (sound : Sound d) : Opened d [] d where
  sound := sound
  longer := Nat.le_refl _
  apart _ _ apart := apart
  spots _ _ := rfl
  holds := nofun
  entries _ _ := rfl
  contents _ _ _ := rfl
  old _ _ _ leads := leads

/-! One operand. -/

theorem start_openTarget_refused (keep : Bool) (refused : leads s name = none) :
    ∃ e, (Tee.openTarget keep name).start s = some (.error e, s) := by
  simp only [Tee.openTarget, start_bind, start_resolve, start_view]
  unfold leads lead? spot? at refused
  unfold Disk.isDir Disk.openForWriting
  generalize s.disk.locate true (Path.resolve s.cwd name) = located at refused ⊢
  rcases located with e | ⟨q, _ | _ | _⟩ | q
  · exact ⟨.io e, rfl⟩
  · cases refused
  · exact ⟨.isDirectory name, rfl⟩
  · exact ⟨.io .isDirectory, rfl⟩
  · cases refused

theorem start_openTarget (keep : Bool) (sound : Sound s.disk) (found : (leads s name).isSome) :
    ∃ id D, (Tee.openTarget keep name).start s = some (.ok (handle keep id), { s with disk := D }) ∧
      Opened s.disk [target keep s.cwd name] D ∧
      lead? D (Path.resolve s.cwd name) = some (.file id) ∧
      (id < s.disk.contents.length → leads s name = some (.file id)) := by
  have opening {d' : Disk} {id : FileId}
      (opens : s.disk.openForWriting (Path.resolve s.cwd name) keep = .ok (d', id)) :
      (Tee.openTarget keep name).start s =
        some (.ok (handle keep id), { s with disk := d' }) := by
    simp only [Tee.openTarget, start_bind, start_resolve, start_view, isDir_of_lead found, opens]
    rfl
  obtain ⟨t, same⟩ : ∃ t, t = target keep s.cwd name := ⟨_, rfl⟩
  have place : t.place = Path.resolve s.cwd name := by rw [same, place_target]
  have kept : t.keep = keep := by rw [same, target]
  obtain ⟨lead, known⟩ := Option.isSome_iff_exists.mp found
  have there : lead? s.disk t.place = some lead := by rw [place, ← known, leads]
  cases lead with
  | file id =>
    obtain ⟨opens, opened⟩ := opened_file sound there
    rw [place, kept] at opens
    rw [kept] at opened
    rw [place] at there
    rw [← same]
    refine ⟨id, _, opening opens, opened, ?_, fun _ => known⟩
    split
    · exact there
    · rw [lead?_setContent, there]
  | free q =>
    obtain ⟨opens, opened, now⟩ := opened_free sound there
    rw [place, kept] at opens
    rw [place] at now
    rw [← same]
    exact ⟨_, _, opening opens, opened, now, fun held => absurd held (Nat.lt_irrefl _)⟩

/-! All operands. -/

theorem openable_of_refused (refused : leads s name = none) :
    openable s (name :: names) = openable s names :=
  List.filter_cons_of_neg (by simp [refused])

theorem openable_of_found (found : (leads s name).isSome) :
    openable s (name :: names) = name :: openable s names :=
  List.filter_cons_of_pos found

/-- An operand that leads to a file of its own makes no difference to the others. -/
theorem leads_kept {other : String} (opened : Opened s.disk [target keep s.cwd name] D)
    (apart : leads s other ≠ leads s name) : leads { s with disk := D } other = leads s other := by
  refine lead?_of_spots (opened.spots _ fun t here => ?_)
  rw [List.mem_singleton.mp here, place_target]
  exact apart

theorem Complains.cons {c : Option Complaint} {sink : Sink}
    (complains : Complains keep s' names c) (found : (leads s name).isSome)
    (same : ∀ other ∈ names, leads s' other = leads s other)
    (opens : (Tee.openTarget keep name).start s = some (.ok sink, s')) :
    Complains keep s (name :: names) c := by
  cases c with
  | none =>
    refine List.forall_mem_cons.mpr ⟨found, fun other member => ?_⟩
    rw [← same other member]
    exact complains other member
  | some e =>
    obtain ⟨earlier, refused, later, targets, s'', rfl, before, here, opened, complained⟩ :=
      complains
    have same' := List.forall_mem_append.mp same
    have sameHere := (List.forall_mem_cons.mp same'.2).1
    refine ⟨name :: earlier, refused, later, .ok sink :: targets, s'', rfl, ?_, ?_, ?_, complained⟩
    · refine List.forall_mem_cons.mpr ⟨found, fun other member => ?_⟩
      rw [← same'.1 other member]
      exact before other member
    · rw [← sameHere, here]
    · simp only [Job.forEach, start_bind, start_attempt, opens, Option.map, opened, start_pure]

/-- The file of an operand is still its file when others are open. -/
theorem Opens.cons {d₁ : Disk} (later : Opens keep { s with disk := d₁ } names ids D)
    (sound : Sound s.disk) (found : (leads s name).isSome)
    (kept : openable { s with disk := d₁ } names = openable s names)
    (same : ∀ other ∈ names, leads { s with disk := d₁ } other = leads s other)
    (first : Opened s.disk [target keep s.cwd name] d₁)
    (now : lead? d₁ (Path.resolve s.cwd name) = some (.file id))
    (fresh : id < s.disk.contents.length → leads s name = some (.file id))
    (unlike : ∀ other ∈ openable s names, leads s name ≠ leads s other) :
    Opens keep s (name :: names) (id :: ids) D where
  opened := by
    have opened := later.opened
    rw [kept] at opened
    rw [openable_of_found found, List.map_cons]
    refine Opened.append first opened sound fun t here u there => ?_
    obtain ⟨other, member, rfl⟩ := List.mem_map.mp there
    rw [List.mem_singleton.mp here, place_target, place_target]
    exact unlike other member
  files := by
    have files := later.files
    have still : lead? D (Path.resolve s.cwd name) = some (.file id) := by
      rw [← now]
      refine lead?_of_spots (later.opened.spots _ fun t member => ?_)
      obtain ⟨other, held, rfl⟩ := List.mem_map.mp member
      rw [kept] at held
      rw [place_target]
      exact first.apart _ _ (unlike other held)
    rw [kept] at files
    rw [openable_of_found found, List.map_cons, List.map_cons, still, files]
  old := by
    rw [openable_of_found found]
    intro id' member held
    rcases List.mem_cons.mp member with rfl | member
    · exact ⟨name, List.mem_cons_self, fresh held⟩
    · obtain ⟨other, here, leads⟩ :=
        later.old id' member (Nat.lt_of_lt_of_le held first.longer)
      rw [kept] at here
      refine ⟨other, List.mem_cons_of_mem _ here, ?_⟩
      rw [← leads, same other (List.mem_filter.mp here).1]

/-- Operands that lead to different files, if they can be opened, are opened in turn. -/
theorem start_openTargets (keep : Bool) (sound : Sound s.disk)
    (distinct : (openable s names).Pairwise fun a b => leads s a ≠ leads s b) :
    ∃ results ids D,
      (Job.forEach (Tee.openTarget keep) names).start s = some (.ok results, { s with disk := D }) ∧
      Tee.opened results = ids.map (handle keep) ∧
      Complains keep s names (Job.firstComplaint? results) ∧ Opens keep s names ids D := by
  induction names generalizing s with
  | nil =>
    exact ⟨[], [], s.disk, rfl, rfl, nofun, opened_none sound, rfl, nofun⟩
  | cons name names ih =>
    cases known : leads s name with
    | none =>
      obtain ⟨e, complained⟩ := start_openTarget_refused keep known
      rw [openable_of_refused known] at distinct
      obtain ⟨results, ids, D, ran, sinks, -, opens⟩ := ih sound distinct
      refine ⟨.error e :: results, ids, D, ?_, sinks, ?_, ?_⟩
      · simp only [Job.forEach, start_bind, start_attempt, complained, Option.map, ran, start_pure]
      · exact ⟨[], name, names, [], s, rfl, nofun, known, rfl, complained⟩
      · have same : openable s (name :: names) = openable s names := openable_of_refused known
        exact ⟨same ▸ opens.opened, same ▸ opens.files, same ▸ opens.old⟩
    | some lead =>
      have found : (leads s name).isSome := Option.isSome_iff_exists.mpr ⟨lead, known⟩
      obtain ⟨id, d₁, here, first, now, fresh⟩ := start_openTarget keep sound found
      rw [openable_of_found found] at distinct
      obtain ⟨unlike, distinct⟩ := List.pairwise_cons.mp distinct
      have same : ∀ other ∈ names, leads { s with disk := d₁ } other = leads s other := by
        intro other member
        refine leads_kept first fun equal => ?_
        have opens : (leads s other).isSome := (congrArg Option.isSome equal).trans found
        exact unlike other (List.mem_filter.mpr ⟨member, opens⟩) equal.symm
      have kept : openable { s with disk := d₁ } names = openable s names :=
        List.filter_congr fun other member => congrArg Option.isSome (same other member)
      have distinct' : (openable { s with disk := d₁ } names).Pairwise fun a b =>
          leads { s with disk := d₁ } a ≠ leads { s with disk := d₁ } b := by
        rw [kept]
        refine distinct.imp_of_mem fun {a b} left right apart => ?_
        rwa [same a (List.mem_filter.mp left).1, same b (List.mem_filter.mp right).1]
      obtain ⟨results, ids, D, ran, sinks, complains, later⟩ := ih (s := { s with disk := d₁ })
        first.sound distinct'
      refine ⟨.ok (handle keep id) :: results, id :: ids, D, ?_,
        congrArg (handle keep id :: ·) sinks, complains.cons found same here, ?_⟩
      · simp only [Job.forEach, start_bind, start_attempt, here, Option.map, ran, start_pure]
      · exact later.cons sound found kept same first now fresh unlike

/-! The copy. -/

theorem fileIds_handles (keep : Bool) (ids : List FileId) :
    fileIds (ids.map (handle keep)) = ids := by
  rw [fileIds, List.filterMap_map]
  exact List.filterMap_some

section Opened

variable (apart : Apart s names) (opens : Opens keep s names ids D)
include opens

/-- Each of the files is that of an operand. -/
theorem exists_operand (member : id ∈ ids) :
    ∃ name ∈ openable s names, lead? D (Path.resolve s.cwd name) = some (.file id) := by
  have inside : some (Lead.file id) ∈ (openable s names).map fun name =>
      lead? D (Path.resolve s.cwd name) := by
    rw [opens.files]
    exact List.mem_map_of_mem member
  exact List.mem_map.mp inside

theorem exists_file (member : name ∈ openable s names) :
    ∃ id ∈ ids, lead? D (Path.resolve s.cwd name) = some (.file id) := by
  have inside : lead? D (Path.resolve s.cwd name) ∈ ids.map fun id => some (Lead.file id) := by
    rw [← opens.files]
    exact List.mem_map_of_mem member
  obtain ⟨id, held, same⟩ := List.mem_map.mp inside
  exact ⟨id, held, same.symm⟩

/-- What is kept of an operand is what its file holds. -/
theorem content_opened (member : name ∈ openable s names)
    (found : lead? D (Path.resolve s.cwd name) = some (.file id)) :
    D.content id = (target keep s.cwd name).base s.disk := by
  have holds := opens.opened.holds _ (List.mem_map_of_mem member)
  rw [place_target, contentAt?_of_lead found] at holds
  exact Option.some.inj holds

/-- A file that was there and that no operand leads to is none of them. -/
theorem not_mem_ids (held : id < s.disk.contents.length)
    (unmet : ∀ name ∈ names, leads s name ≠ some (.file id)) : id ∉ ids := by
  intro member
  obtain ⟨name, here, leads⟩ := opens.old id member held
  exact unmet name (List.mem_filter.mp here).1 leads

theorem content_kept (held : id < s.disk.contents.length)
    (unmet : ∀ name ∈ names, leads s name ≠ some (.file id)) :
    D.content id = s.disk.content id := by
  refine opens.opened.contents id held fun t member => ?_
  obtain ⟨name, here, rfl⟩ := List.mem_map.mp member
  rw [place_target]
  exact unmet name (List.mem_filter.mp here).1

include apart

theorem nodup_ids : ids.Nodup := by
  have leads : ((openable s names).map fun name => lead? D (Path.resolve s.cwd name)).Nodup :=
    List.pairwise_map.mpr (apart.distinct.imp fun unlike => opens.opened.apart _ _ unlike)
  rw [opens.files] at leads
  exact leads.of_map

theorem unbounded_output : Unbounded D s.output := by
  have unbounded := apart.output
  cases output : s.output with
  | outlet p => rwa [output] at unbounded
  | file id pos =>
    rw [output] at unbounded
    have kept := content_kept opens unbounded.1 (apart.unwritten id (congrArg file? output))
    exact ⟨Nat.lt_of_lt_of_le unbounded.1 opens.opened.longer, kept ▸ unbounded.2⟩

omit apart in
theorem unbounded_handle (member : id ∈ ids) : Unbounded D (handle keep id) := by
  obtain ⟨name, here, found⟩ := exists_operand opens member
  refine ⟨opens.opened.sound.lt found, fun at' fresh => ?_⟩
  rw [content_opened opens here found]
  cases keep with
  | true => cases fresh
  | false =>
    cases fresh
    rfl

theorem ready_of_opens : Ready D (s.output :: ids.map (handle keep)) where
  unbounded := by
    refine List.forall_mem_cons.mpr ⟨unbounded_output apart opens, fun sink member => ?_⟩
    obtain ⟨id, here, rfl⟩ := List.mem_map.mp member
    exact unbounded_handle opens here
  distinct := by
    rw [fileIds_cons, fileIds_handles]
    have unbounded := apart.output
    cases output : s.output with
    | outlet p => exact nodup_ids apart opens
    | file id pos =>
      rw [output] at unbounded
      refine List.nodup_cons.mpr ⟨?_, nodup_ids apart opens⟩
      exact not_mem_ids opens unbounded.1 (apart.unwritten id (congrArg file? output))

/-- None of the files is the input. -/
theorem input_apart (id : FileId) (pos : Nat) (input : s.input = .file id pos) :
    id ∉ fileIds (s.output :: ids.map (handle keep)) := by
  obtain ⟨held, other, unmet⟩ := apart.unread id pos input
  rw [fileIds_cons, fileIds_handles]
  intro member
  rcases List.mem_append.mp member with member | member
  · exact other (Option.mem_toList.mp member)
  · exact not_mem_ids opens held unmet member

/-- What is added to the files is added to what was kept of them. -/
theorem copied_of_opens (data : Bytes) : Copied s keep names data
    (extended D (fileIds (s.output :: ids.map (handle keep))) data) where
  holds name member := by
    obtain ⟨id, here, found⟩ := exists_file opens member
    have inside : id ∈ fileIds (s.output :: ids.map (handle keep)) := by
      rw [fileIds_cons, fileIds_handles]
      exact List.mem_append_right _ here
    rw [contentAt?_of_lead ((lead?_extended _).trans found),
      content_extended (opens.opened.sound.lt found), if_pos inside,
      content_opened opens member found]
  output id output := by
    have unbounded := unbounded_output apart opens
    have before := apart.output
    have inside : id ∈ fileIds (s.output :: ids.map (handle keep)) := by
      rw [fileIds_cons, output]
      exact List.mem_cons_self
    cases sink : s.output with
    | outlet p =>
      rw [sink] at output
      cases output
    | file id' pos =>
      rw [sink] at unbounded before
      obtain rfl : id' = id := by
        rw [sink] at output
        exact Option.some.inj output
      rw [sink] at inside
      rw [content_extended unbounded.1, if_pos inside,
        content_kept opens before.1 (apart.unwritten _ output)]
  others p unlike aside := by
    have elsewhere : ∀ t ∈ (openable s names).map (target keep s.cwd),
        lead? s.disk p ≠ lead? s.disk t.place := by
      intro t member
      obtain ⟨name, here, rfl⟩ := List.mem_map.mp member
      rw [place_target]
      exact unlike name here
    have same := lead?_of_spots (opens.opened.spots p elsewhere)
    rw [← opens.opened.contentAt? apart.sound elsewhere]
    refine contentAt?_extended fun id found member => ?_
    rw [fileIds_cons, fileIds_handles] at member
    rcases List.mem_append.mp member with member | member
    · exact aside id (Option.mem_toList.mp member) (same.symm.trans found)
    · obtain ⟨name, here, meets⟩ := exists_operand opens member
      exact opens.opened.apart _ _ (unlike name here) (found.trans meets.symm)
  entries p unmet := by
    refine (opens.opened.entries p fun t member => ?_ : D.entry? p = s.disk.entry? p)
    obtain ⟨name, here, rfl⟩ := List.mem_map.mp member
    rw [place_target]
    exact unmet name (List.mem_filter.mp here).1

/-- Opening the files leaves the input as it was. -/
theorem held_kept : s.input.held D = s.input.held s.disk := by
  cases input : s.input with
  | stream => rfl
  | file id pos =>
    obtain ⟨held, -, unmet⟩ := apart.unread id pos input
    exact congrArg (List.drop pos) (content_kept opens held unmet)

/-- What a copy is given goes to the output and to all the files. -/
theorem start_delivers {copy : List Sink → Act IoError (List Sink)} {data : Bytes}
    {fault : Option IoError} {left : Source} (delivers : Delivers s copy data fault left) :
    ∃ sinks, (copy (ids.map (handle keep))).start { s with disk := D } =
      some (ended fault sinks, { s with
        disk := extended D (fileIds (s.output :: ids.map (handle keep))) data
        input := left
        output := after data s.output }) := by
  have ready := ready_of_opens apart opens
  have unread := input_apart apart opens
  have carries := carries_spread (s := { s with disk := D }) ready unread
  have start : ids.map (handle keep) = (ids.map (handle keep)).map (after []) ∧
      { s with disk := D } = { spreadTo { s with disk := D } (ids.map (handle keep)) [] with
        input := s.input } := by
    refine ⟨?_, by rw [spreadTo_nil]⟩
    conv_rhs => rw [funext after_nil, List.map_id']
  cases delivers with
  | input =>
    obtain ⟨sinks, s', ran, input, -, same⟩ := carries.pumpAll start rfl
    rw [List.nil_append, input, held_kept apart opens] at same
    rw [same] at ran
    exact ⟨sinks, ran⟩
  | blocks blocks fault =>
    obtain ⟨sinks, s', ran, input, -, same⟩ := carries.feed fault blocks start
    rw [List.nil_append, input] at same
    rw [same] at ran
    exact ⟨sinks, ran⟩

end Opened

theorem flush_after {sink : Sink} (unbounded : Unbounded d sink) (bs : Bytes) :
    (after bs sink).flush = none := by
  rcases sink with p | ⟨id, pos⟩
  · have unlimited : PipeIntoCat.Unlimited p := unbounded
    simp [after, Sink.flush, Outlet.flush, PipeIntoCat.fed, unlimited.flushes]
  · rfl

/-- `tee` copies its input, in whatever blocks it is read, to its output and to every operand
that can be opened, after what was kept of it. Operands that cannot be opened make no
difference to the others. What it comes to is the failure of the input, or else what is said
of the first operand that cannot be opened, if there is one. -/
theorem input_is_copied_to_all :
    Tee.run = copying (Job.pumpAll Tee.spread) ∧
    ∀ (args : List String) (o : Options) (s : Session) (copy : List Sink → Act IoError (List Sink))
      (data : Bytes) (fault : Option IoError) (left : Source),
      Options.parse "a".toList args = .ok o → Apart s o.operands →
      Delivers s copy data fault left →
      ∃ complaint D, Complains (o.has 'a') s o.operands complaint ∧
        (copying copy args).start s = some (outcome fault complaint,
          { s with disk := D, input := left, output := after data s.output }) ∧
        Copied s (o.has 'a') o.operands data D := by
  refine ⟨rfl, fun args o s copy data fault left parsed apart delivers => ?_⟩
  obtain ⟨results, ids, D, opened, sinks, complains, opens⟩ :=
    start_openTargets (o.has 'a') apart.sound apart.distinct
  obtain ⟨sinks', copied⟩ := start_delivers apart opens delivers
  refine ⟨_, _, complains, ?_, copied_of_opens apart opens data⟩
  simp only [copying, start_bind, start_options parsed, opened, sinks, Job.ofIo, start_mapError,
    copied, Option.map]
  cases fault with
  | some e => rfl
  | none =>
    simp only [ended, Option.elim, Except.mapError, Job.flush, Job.ofIo, start_mapError,
      start_flush, flush_after apart.output, Option.map]
    cases Job.firstComplaint? results <;> rfl

/-- A session with a directory `d` and a file `old`. -/
def desk : Session where
  disk := { entries := [(["d"], .dir), (["old"], .file 0)], contents := [Text.bytes "x"] }
  input := .stream (Text.bytes "abc") none

/-- A directory is left out, and the input comes after what one file held and makes another. -/
theorem directory_left_out :
    (Options.parse "a".toList ["-a", "d", "old", "new"] = .ok ⟨['a'], ["d", "old", "new"]⟩ ∧
      Apart desk ["d", "old", "new"] ∧
      Delivers desk (feed Tee.spread none [Text.bytes "a", Text.bytes "bc"]) (Text.bytes "abc") none
        desk.input) ∧
    ∃ e D, (copying (feed Tee.spread none [Text.bytes "a", Text.bytes "bc"])
        ["-a", "d", "old", "new"]).start desk = some (.error e, { desk with
          disk := D
          output := .outlet { taken := Text.bytes "abc" } }) ∧
      contentAt? D ["old"] = some (Text.bytes "xabc") ∧
      contentAt? D ["new"] = some (Text.bytes "abc") := by
  have parsed : Options.parse "a".toList ["-a", "d", "old", "new"] =
      .ok ⟨['a'], ["d", "old", "new"]⟩ := rfl
  have sound : Sound desk.disk := by decide
  have apart : Apart desk ["d", "old", "new"] :=
    ⟨sound, ⟨rfl, rfl⟩, by decide +kernel, nofun, nofun⟩
  have delivers : Delivers desk (feed Tee.spread none [Text.bytes "a", Text.bytes "bc"])
      (Text.bytes "abc") none desk.input :=
    .blocks [Text.bytes "a", Text.bytes "bc"] none
  refine ⟨⟨parsed, apart, delivers⟩, ?_⟩
  obtain ⟨complaint, D, complains, ran, copied⟩ :=
    input_is_copied_to_all.2 _ _ desk _ _ _ _ parsed apart delivers
  cases complaint with
  | none => exact absurd (complains "d" List.mem_cons_self) (by decide +kernel)
  | some e =>
    have opens : "old" ∈ openable desk ["d", "old", "new"] ∧
        "new" ∈ openable desk ["d", "old", "new"] := by
      decide +kernel
    exact ⟨e, D, ran, copied.holds "old" opens.1, copied.holds "new" opens.2⟩

end LineShell.SpreadInputs
