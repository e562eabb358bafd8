import LineShell.Application.Tee
import LineShell.Proofs.CopiedInputs
import Mathlib.Data.List.Nodup

/-! Bytes written to several outputs. An output that takes everything is an outlet with no
limit, or a file that is open at its end. Writes to outputs that are different files add the
same bytes to the end of each of these files, and change nothing else on the disk; what is
written first and what comes after it is written as one. -/
namespace LineShell.ExtendedFiles
open CopiedInputs OpenedTargets PipeIntoCat ReadOperands StepAgreement

/-- The file that an output is. -/
def file? : Sink → Option FileId
  | .outlet _ => none
  | .file id _ => some id

/-- The files among several outputs. -/
def fileIds (sinks : List Sink) : List FileId := sinks.filterMap file?

/-- An output once it has taken bytes. -/
def after (bs : Bytes) : Sink → Sink
  | .outlet p => .outlet (fed p bs)
  | .file id pos => .file id (pos.map (· + bs.length))

/-- An output takes everything: an outlet without a limit, or a file open at its end. -/
def Unbounded (d : Disk) : Sink → Prop
  | .outlet p => Unlimited p
  | .file id pos => id < d.contents.length ∧ ∀ at' ∈ pos, at' = (d.content id).length

/-- The disk with bytes added to the end of some files. -/
def extended (d : Disk) (ids : List FileId) (bs : Bytes) : Disk :=
  { d with contents := d.contents.mapIdx fun id old => if id ∈ ids then old ++ bs else old }

variable {d : Disk} {ids more : List FileId} {id : FileId} {sink : Sink} {sinks : List Sink}
  {xs ys bs : Bytes} {s : Session}

@[simp] theorem file?_after (bs : Bytes) (sink : Sink) : file? (after bs sink) = file? sink := by
  cases sink <;> rfl

@[simp] theorem fileIds_after (bs : Bytes) (sinks : List Sink) :
    fileIds (sinks.map (after bs)) = fileIds sinks := by
  rw [fileIds, List.filterMap_map]
  exact congrArg (List.filterMap · sinks) (funext fun sink => file?_after bs sink)

theorem fileIds_cons (sink : Sink) (sinks : List Sink) :
    fileIds (sink :: sinks) = (file? sink).toList ++ fileIds sinks := by
  cases sink <;> rfl

theorem mem_fileIds (member : sink ∈ sinks) (same : file? sink = some id) : id ∈ fileIds sinks :=
  List.mem_filterMap.mpr ⟨sink, member, same⟩

theorem after_after (sink : Sink) : after ys (after xs sink) = after (xs ++ ys) sink := by
  rcases sink with p | ⟨id, _ | pos⟩
  · exact congrArg Sink.outlet (fed_fed p xs ys)
  · rfl
  · simp [after, Nat.add_assoc]

theorem after_nil (sink : Sink) : after [] sink = sink := by
  rcases sink with p | ⟨id, _ | pos⟩
  · exact congrArg Sink.outlet (fed_nil p)
  · rfl
  · rfl

/-! The disk. -/

theorem contents_extended (id : FileId) : (extended d ids bs).contents[id]? =
    d.contents[id]?.map fun old => if id ∈ ids then old ++ bs else old :=
  List.getElem?_mapIdx

/-- Disks are equal if they have the same entries and the same contents. -/
theorem disk_ext {d d' : Disk} (entries : d.entries = d'.entries)
    (contents : ∀ id : FileId, d.contents[id]? = d'.contents[id]?) : d = d' := by
  obtain ⟨_, cs⟩ := d
  obtain ⟨_, cs'⟩ := d'
  obtain rfl : cs = cs' := List.ext_getElem? contents
  exact congrArg (Disk.mk · cs) entries

theorem content_extended (held : id < d.contents.length) :
    (extended d ids bs).content id = if id ∈ ids then d.content id ++ bs else d.content id := by
  simp [extended, Disk.content, held]

theorem content_extended_apart (apart : id ∉ ids) :
    (extended d ids bs).content id = d.content id := by
  simp [Disk.content, List.getD_eq_getElem?_getD, contents_extended, apart]

@[simp] theorem length_extended : (extended d ids bs).contents.length = d.contents.length :=
  List.length_mapIdx

theorem extended_nil : extended d ids [] = d :=
  disk_ext rfl fun id => by simp [contents_extended]

theorem extended_none : extended d [] bs = d :=
  disk_ext rfl fun id => by simp [contents_extended]

/-- What is added to files first and what is added to them after it. -/
theorem extended_extended : extended (extended d ids xs) ids ys = extended d ids (xs ++ ys) := by
  refine disk_ext rfl fun id => ?_
  rw [contents_extended, contents_extended, contents_extended, Option.map_map]
  by_cases member : id ∈ ids <;> simp [member, Function.comp_def]

/-- The same bytes added to some files and then to others. -/
theorem extended_append (apart : ids.Disjoint more) :
    extended (extended d ids bs) more bs = extended d (ids ++ more) bs := by
  refine disk_ext rfl fun id => ?_
  rw [contents_extended, contents_extended, contents_extended, Option.map_map]
  by_cases first : id ∈ ids
  · have later : id ∉ more := apart first
    simp [first, later, Function.comp_def]
  · simp [first, Function.comp_def]

theorem lead?_extended (p : Place) : lead? (extended d ids bs) p = lead? d p := by
  have same (q : Place) : Disk.entry? (extended d ids bs) q = d.entry? q := rfl
  rw [lead?, lead?, spot?, spot?, locate_congr same]

/-- A path that leads to none of the files leads to what it did. -/
theorem contentAt?_extended {p : Place} (apart : ∀ id, lead? d p = some (.file id) → id ∉ ids) :
    contentAt? (extended d ids bs) p = contentAt? d p := by
  unfold contentAt?
  rw [lead?_extended]
  split
  · rename_i id leads
    rw [content_extended_apart (apart id leads)]
  · rfl

/-- A file that is on the disk has the bytes added to what it held. -/
theorem append_eq (d : Disk) (id : FileId) (bs : Bytes) : d.append id bs = extended d [id] bs := by
  refine disk_ext rfl fun other => ?_
  rw [contents_extended, Disk.append, Disk.setContent, List.getElem?_set]
  by_cases same : id = other
  · subst same
    by_cases held : id < d.contents.length <;> simp [held, Disk.content]
  · simp [same, Ne.symm same]

theorem overwrite_eq (d : Disk) (id : FileId) (bs : Bytes) :
    d.overwrite id (d.content id).length bs = extended d [id] bs := by
  have past : (d.content id).drop ((d.content id).length + bs.length) = [] :=
    List.drop_eq_nil_of_le (Nat.le_add_right _ _)
  rw [← append_eq, Disk.overwrite, Disk.append, List.take_length, Nat.sub_self, past]
  simp

/-! Writes. -/

/-- An output that takes everything takes a write. -/
theorem write_eq (unbounded : Unbounded d sink) (bs : Bytes) :
    sink.write d bs = (extended d (file? sink).toList bs, after bs sink, none) := by
  rcases sink with p | ⟨id, _ | pos⟩
  · have unlimited : Unlimited p := unbounded
    have none : (file? (.outlet p)).toList = [] := rfl
    rw [none, extended_none]
    simp only [Sink.write, Outlet.write, unlimited.room, after, fed]
  · exact congrArg (fun d' => (d', _, none)) (append_eq d id bs)
  · obtain rfl := unbounded.2 pos rfl
    exact congrArg (fun d' => (d', _, none)) (overwrite_eq d id bs)

/-- A write to other files leaves a file open at its end. -/
theorem Unbounded.apart (unbounded : Unbounded d sink) (apart : ∀ id ∈ file? sink, id ∉ ids) :
    Unbounded (extended d ids bs) sink := by
  rcases sink with p | ⟨id, pos⟩
  · exact unbounded
  · obtain ⟨held, ends⟩ := unbounded
    refine ⟨by rwa [length_extended], fun at' here => ?_⟩
    rw [content_extended_apart (apart id rfl)]
    exact ends at' here

/-- So does a write to the file itself. -/
theorem Unbounded.after (unbounded : Unbounded d sink) (among : ∀ id ∈ file? sink, id ∈ ids) :
    Unbounded (extended d ids bs) (ExtendedFiles.after bs sink) := by
  rcases sink with p | ⟨id, _ | pos⟩
  · exact Unlimited.fed unbounded bs
  · exact ⟨by rw [length_extended]; exact unbounded.1, nofun⟩
  · obtain ⟨held, ends⟩ := unbounded
    refine ⟨by rwa [length_extended], ?_⟩
    rintro _ ⟨⟩
    rw [content_extended held, if_pos (among id rfl), List.length_append, ends pos rfl]

/-- Outputs that take everything and are different files. -/
structure Ready (d : Disk) (sinks : List Sink) : Prop where
  unbounded : ∀ sink ∈ sinks, Unbounded d sink
  distinct : (fileIds sinks).Nodup

namespace Ready

theorem disjoint (ready : Ready d (sink :: sinks)) :
    (file? sink).toList.Disjoint (fileIds sinks) := by
  have distinct := ready.distinct
  rw [fileIds_cons] at distinct
  exact List.disjoint_of_nodup_append distinct

/-- After a write to one of them the others still are. -/
theorem rest (ready : Ready d (sink :: sinks)) (bs : Bytes) :
    Ready (extended d (file? sink).toList bs) sinks where
  unbounded other member :=
    (ready.unbounded other (List.mem_cons_of_mem _ member)).apart fun _ same here =>
      ready.disjoint here (mem_fileIds member same)
  distinct := by
    have distinct := ready.distinct
    rw [fileIds_cons] at distinct
    exact distinct.of_append_right

/-- After a write to all of them they all are. -/
theorem after (ready : Ready d sinks) (bs : Bytes) :
    Ready (extended d (fileIds sinks) bs) (sinks.map (ExtendedFiles.after bs)) where
  unbounded sink member := by
    obtain ⟨old, held, rfl⟩ := List.mem_map.mp member
    exact (ready.unbounded old held).after fun _ same => mem_fileIds held same
  distinct := by
    rw [fileIds_after]
    exact ready.distinct

end Ready

theorem start_write (unbounded : Unbounded s.disk s.output) (bs : Bytes) :
    (Act.write bs).start s = some (.ok (), { s with
      disk := extended s.disk (file? s.output).toList bs
      output := after bs s.output }) := by
  simp only [Act.start, Act.write, ExceptT.run, write_eq unbounded]

/-- Outputs that are different files all take a write. -/
theorem start_writeEach (ready : Ready s.disk sinks) (bs : Bytes) :
    (Tee.writeEach bs sinks).start s = some (.ok (sinks.map (after bs)),
      { s with disk := extended s.disk (fileIds sinks) bs }) := by
  induction sinks generalizing s with
  | nil =>
    have none : fileIds [] = [] := rfl
    rw [none, extended_none]
    rfl
  | cons sink sinks ih =>
    have here := ready.unbounded sink List.mem_cons_self
    have later := ih (s := { s with disk := extended s.disk (file? sink).toList bs })
      (ready.rest bs)
    simp only [Tee.writeEach, start_bind, start_view, write_eq here, start_change, start_pure,
      later, fileIds_cons, ← extended_append ready.disjoint]
    rfl

/-- The session with bytes written to its output and to the other outputs. -/
def spreadTo (s : Session) (sinks : List Sink) (bs : Bytes) : Session :=
  { s with disk := extended s.disk (fileIds (s.output :: sinks)) bs, output := after bs s.output }

theorem start_spread (ready : Ready s.disk (s.output :: sinks)) (bs : Bytes) :
    (Tee.spread sinks bs).start s = some (.ok (sinks.map (after bs)), spreadTo s sinks bs) := by
  have here := ready.unbounded s.output List.mem_cons_self
  have later := start_writeEach
    (s := { s with
      disk := extended s.disk (file? s.output).toList bs
      output := after bs s.output })
    (ready.rest bs) bs
  rw [Tee.spread, start_bind, start_write here]
  dsimp only
  rw [later, extended_append ready.disjoint, ← fileIds_cons, spreadTo]

theorem spreadTo_nil (s : Session) (sinks : List Sink) : spreadTo s sinks [] = s := by
  rw [spreadTo, extended_nil, after_nil]

theorem spreadTo_spreadTo :
    spreadTo (spreadTo s sinks xs) (sinks.map (after xs)) ys = spreadTo s sinks (xs ++ ys) := by
  have ids : fileIds (after xs s.output :: sinks.map (after xs)) = fileIds (s.output :: sinks) :=
    fileIds_after xs (s.output :: sinks)
  simp only [spreadTo, ids, extended_extended, after_after]

/-- What is spread over the outputs is added to what each of them has taken, if none of them is
the source. -/
theorem carries_spread (ready : Ready s.disk (s.output :: sinks)) {source : Source}
    (apart : ∀ id pos, source = .file id pos → id ∉ fileIds (s.output :: sinks)) :
    Carries Tee.spread s.disk source fun sinks' passed t =>
      sinks' = sinks.map (after passed) ∧
        t = { spreadTo s sinks passed with input := t.input } where
  step {sinks' passed t} bs holds := by
    obtain ⟨rfl, same⟩ := holds
    have now : Ready t.disk (t.output :: sinks.map (after passed)) := by
      rw [same]
      exact ready.after passed
    refine ⟨_, _, start_spread now bs, rfl, ?_, ?_⟩
    · rw [List.map_map]
      exact List.map_congr_left fun sink _ => after_after sink
    · rw [same]
      exact congrArg (fun u : Session => { u with input := t.input }) spreadTo_spreadTo
  apart {sinks' passed t} input holds := by
    obtain ⟨state, same⟩ := holds
    refine ⟨state, ?_⟩
    rw [same]
  kept {sinks' passed t} id pos holds file := by
    rw [holds.2]
    exact content_extended_apart (apart id pos file)

end LineShell.ExtendedFiles
