import LineShell.Proofs.DenotedEntries
import LineShell.Proofs.OpenedTargets
import LineShell.Proofs.OutletRuns
import LineShell.Proofs.SettledWords

/-! Output that goes to a file. A filter writes the same to a file as to an output
that takes everything, if the file is none of those that it reads: what is written
becomes the content of the file, after what was kept of it. Of several files the
last one gets it, and all of them are opened before the filter runs. -/
namespace LineShell.RedirectedOutput
open StepAgreement SessionBonds ApplicationAgreement EvaluationAgreement CallDispatch SettledWords
  DenotedEntries OpenedTargets QuotedWords OutletRuns PathNames ResolvedPaths

/-- A redirection of the output to a file, whose old content is kept or not. -/
structure Redirect where
  keep : Bool
  name : String

namespace Redirect

/-- How the redirection is written. -/
def sign (r : Redirect) : Token.Redirect := if r.keep then .append else .output

/-- Its tokens, the name quoted. -/
def tokens (r : Redirect) : List String := [r.sign.text, quoted r.name]

/-- The file that it opens from a directory. -/
def target (cwd : Place) (r : Redirect) : Target := ⟨r.keep, Path.resolve cwd r.name⟩

theorem place_target (cwd : Place) (r : Redirect) :
    (r.target cwd).place = Path.resolve cwd r.name := by
  simp only [target]

end Redirect

variable (run : Substitution) {d D : Disk} {id : FileId} {s t : Session}

/-! Opening the files. -/

theorem isDir_of_lead {p : Place} (leads : (lead? d p).isSome) : d.isDir p = false := by
  obtain ⟨lead, found⟩ := Option.isSome_iff_exists.mp leads
  cases lead with
  | file id =>
    obtain ⟨q, ends⟩ := lead?_eq_file.mp found
    rw [Disk.isDir, spot?_eq_some.mp ends]
    rfl
  | free q =>
    rw [Disk.isDir, spot?_eq_some.mp (lead?_eq_free.mp found)]
    rfl

theorem isRedirect_quoted (word : String) : Token.isRedirect (quoted word) = false := by
  have other {text : String} (first : text.toList.head? ≠ some '\x27') : quoted word ≠ text := by
    rintro rfl
    rw [quoted, String.toList_ofList] at first
    exact first rfl
  have lt : quoted word ≠ "<" := other (by decide)
  have gt : quoted word ≠ ">" := other (by decide)
  have twice : quoted word ≠ ">>" := other (by decide)
  simp [Token.isRedirect, Token.redirect?, lt, gt, twice]

theorem expand_quoted (word : String) : Word.expand run Shell.glob (quoted word) = pure [word] := by
  rw [EchoLine.expand_of_scan _ (scan_quoted run word), String.ofList_toList]

theorem redirect?_sign (r : Redirect) : Token.redirect? r.sign.text = some r.sign := by
  unfold Redirect.sign
  split <;> decide

theorem start_openOutput {r : Redirect}
    (leads : (lead? s.disk (Path.resolve s.cwd r.name)).isSome)
    (opens : s.disk.openForWriting (Path.resolve s.cwd r.name) r.keep = .ok (D, id)) :
    (Redirection.openOutput r.name r.keep).start s =
      some (.ok (.file id (if r.keep then none else some 0)), { s with disk := D }) := by
  simp only [Redirection.openOutput, start_bind, start_resolve, start_view, isDir_of_lead leads,
    Bool.false_eq_true, if_false, opens, start_change, start_pure]

theorem extract_one (streams : Redirection) {r : Redirect} (named : r.name ≠ "")
    (leads : (lead? s.disk (Path.resolve s.cwd r.name)).isSome)
    (opens : s.disk.openForWriting (Path.resolve s.cwd r.name) r.keep = .ok (D, id)) :
    (Redirection.extractFrom (Word.expand run Shell.glob) streams r.tokens).start s =
      some (.ok { streams with
          rest := streams.rest.reverse
          output := some (.file id (if r.keep then none else some 0)) }, { s with disk := D }) := by
  have opened := start_openOutput leads opens
  have added : (streams.add r.sign r.name).start s =
      some (.ok { streams with output := some (.file id (if r.keep then none else some 0)) },
        { s with disk := D }) := by
    obtain ⟨keep, name⟩ := r
    have noted : streams.add (Redirect.sign ⟨keep, name⟩) name =
        (fun sink => { streams with output := some sink }) <$> Redirection.openOutput name keep := by
      cases keep <;> rw [map_eq_pure_bind] <;> rfl
    rw [noted, start_map, opened]
    rfl
  simp only [Redirect.tokens, Redirection.extractFrom, redirect?_sign, isRedirect_quoted,
    Bool.false_eq_true, if_false, Redirection.operandName, expand_quoted, pure_bind, named,
    start_bind, added, start_pure]

/-- What redirections can be opened together: each leads to a file or a free name,
and no two lead to the same one. -/
structure Openable (d : Disk) (cwd : Place) (redirects : List Redirect) : Prop where
  named : ∀ r ∈ redirects, r.name ≠ ""
  leads : ∀ r ∈ redirects, (lead? d (Path.resolve cwd r.name)).isSome
  distinct : redirects.Pairwise fun r r' =>
    lead? d (Path.resolve cwd r.name) ≠ lead? d (Path.resolve cwd r'.name)

/-- The redirections of a list are opened one after the other, and the last one is
the output. -/
theorem extract_all (streams : Redirection) (earlier : List Redirect) (last : Redirect)
    (sound : Sound s.disk) (openable : Openable s.disk s.cwd (earlier ++ [last])) :
    ∃ D id, (Redirection.extractFrom (Word.expand run Shell.glob) streams
        ((earlier ++ [last]).flatMap Redirect.tokens)).start s =
          some (.ok { streams with
              rest := streams.rest.reverse
              output := some (.file id (if last.keep then none else some 0)) }, { s with disk := D }) ∧
      Opened s.disk ((earlier ++ [last]).map (Redirect.target s.cwd)) D ∧
      lead? D (Path.resolve s.cwd last.name) = some (.file id) := by
  induction earlier generalizing s streams with
  | nil =>
    have leads := openable.leads last (List.mem_singleton_self last)
    rw [← Redirect.place_target] at leads
    obtain ⟨D, id, opens, opened, now⟩ := exists_opened_one sound leads
    rw [Redirect.place_target] at leads opens now
    refine ⟨D, id, ?_, opened, now⟩
    rw [List.nil_append, List.flatMap_singleton]
    exact extract_one run streams (openable.named last (List.mem_singleton_self last)) leads opens
  | cons first earlier ih =>
    obtain ⟨named, namedLater⟩ := List.forall_mem_cons.mp openable.named
    obtain ⟨leads, leadsLater⟩ := List.forall_mem_cons.mp openable.leads
    obtain ⟨unlike, distinctLater⟩ := List.pairwise_cons.mp openable.distinct
    rw [← Redirect.place_target] at leads
    obtain ⟨d₁, id₁, opens, opened, -⟩ := exists_opened_one sound leads
    rw [Redirect.place_target] at leads opens
    -- The first file makes no difference to what the later names lead to.
    have same (r : Redirect) (member : r ∈ earlier ++ [last]) :
        lead? d₁ (Path.resolve s.cwd r.name) = lead? s.disk (Path.resolve s.cwd r.name) := by
      refine lead?_of_spots (opened.spots _ fun t here => ?_)
      rw [List.mem_singleton.mp here, Redirect.place_target]
      exact Ne.symm (unlike r member)
    have openable' : Openable d₁ s.cwd (earlier ++ [last]) := by
      refine ⟨namedLater, fun r member => ?_,
        distinctLater.imp_of_mem fun {r r'} here there apart => ?_⟩
      · rw [same r member]
        exact leadsLater r member
      · rwa [same r here, same r' there]
    obtain ⟨D, id, extracted, later, now⟩ := ih (s := { s with disk := d₁ })
      { streams with output := some (.file id₁ (if first.keep then none else some 0)) }
      opened.sound openable'
    refine ⟨D, id, ?_, opened.append later sound ?_, now⟩
    · have read := extract_one run streams named leads opens
      rw [List.cons_append, List.flatMap_cons, extractFrom_append _ _ _ read]
      dsimp only
      rw [List.reverse_reverse]
      exact extracted
    · intro t here u there
      obtain ⟨r, member, rfl⟩ := List.mem_map.mp there
      rw [List.mem_singleton.mp here, Redirect.place_target, Redirect.place_target]
      exact unlike r member

/-! A call and its redirections. -/

variable {run}

/-- The parts of a preparation. -/
theorem prepare_parts {sh : Shell} {c : Call} {ready : Ready} {s' : Session}
    (prepared : (prepare sh run c).start s = some (.ok ready, s')) :
    ∃ s₁ name, (Redirection.extract (Word.expand run Shell.glob) c.tokens).start s =
        some (.ok ready.streams, s₁) ∧
      (Word.expandAll run Shell.glob ready.streams.rest).start s₁ =
        some (.ok (name :: ready.args), s') ∧
      sh.find? name = some ready.app := by
  rcases start_bind_eq_some_iff.mp prepared with ⟨_, -, failed⟩ | ⟨r, s₁, extracted, rest⟩
  · cases failed
  rcases start_bind_eq_some_iff.mp rest with ⟨_, -, failed⟩ | ⟨words, s₂, expanded, rest⟩
  · cases failed
  cases words with
  | nil => cases rest
  | cons name args =>
    dsimp only at rest
    cases found : sh.find? name with
    | none =>
      rw [found] at rest
      cases rest
    | some app =>
      rw [found] at rest
      cases rest
      exact ⟨s₁, name, extracted, expanded, found⟩

/-- A call with redirections after it is prepared as the call, once the files are
open. -/
theorem prepare_redirected {sh : Shell} {c : Call} {ready : Ready} {s' : Session}
    (plain : ∀ token ∈ c.tokens, Plain token)
    (prepared : (prepare sh run c).start s = some (.ok ready, s')) (earlier : List Redirect)
    (last : Redirect) (sound : Sound s.disk)
    (openable : Openable s.disk s.cwd (earlier ++ [last])) :
    ∃ D id, (prepare sh run ⟨c.tokens ++ (earlier ++ [last]).flatMap Redirect.tokens⟩).start s =
        some (.ok { ready with streams := { ready.streams with
          output := some (.file id (if last.keep then none else some 0)) } }, { s with disk := D }) ∧
      Opened s.disk ((earlier ++ [last]).map (Redirect.target s.cwd)) D ∧
      lead? D (Path.resolve s.cwd last.name) = some (.file id) := by
  obtain ⟨s₁, name, extracted, expanded, found⟩ := prepare_parts prepared
  obtain rfl := Settled.keeps (extractFrom_settled run c.tokens {} plain) extracted
  obtain ⟨words, expands⟩ := expandAll_settled run (extract_prepared plain ⟨_, _, extracted⟩).rest
  rw [expands, start_ofExcept] at expanded
  obtain ⟨rfl, -⟩ := Prod.mk.inj (Option.some.inj expanded)
  obtain ⟨D, id, extractedAll, opened, now⟩ := extract_all run
    { ready.streams with rest := ready.streams.rest.reverse } earlier last sound openable
  refine ⟨D, id, ?_, opened, now⟩
  rw [prepare, start_bind, Redirection.extract, extractFrom_append _ _ _ extracted, extractedAll]
  dsimp only
  rw [List.reverse_reverse, expands]
  simp only [start_bind, start_ofExcept, found, start_pure]

/-- The input that a call opens is a file that some path leads to. -/
def InputLeads (d : Disk) (r : Redirection) : Prop :=
  ∀ source, r.input = some source → ∃ p id, source = .file id 0 ∧ lead? d p = some (.file id)

theorem openInput_leads {name : String} {source : Source} {s' : Session}
    (ran : (Redirection.openInput name).start s = some (.ok source, s')) :
    ∃ p id, source = .file id 0 ∧ lead? s.disk p = some (.file id) := by
  simp only [Redirection.openInput, start_bind, start_resolve, start_view] at ran
  split at ran
  · cases ran
  · split at ran
    · rename_i id opens
      cases ran
      refine ⟨Path.resolve s.cwd name, id, rfl, ?_⟩
      simp only [Disk.openFile, Disk.find] at opens
      rcases located : s.disk.locate true (Path.resolve s.cwd name) with e | ⟨q, _ | _ | _⟩ | q <;>
        rw [located] at opens <;> cases opens
      exact lead?_eq_file.mpr ⟨q, spot?_eq_some.mpr located⟩
    · cases ran

theorem extractFrom_input {r' : Redirection} {s' : Session} : (tokens : List String) →
    (r : Redirection) → (∀ token ∈ tokens, Plain token) →
    (Redirection.extractFrom (Word.expand run Shell.glob) r tokens).start s = some (.ok r', s') →
    InputLeads s.disk r → InputLeads s.disk r'
  | [], r, _, ran, leads => by
    cases ran
    exact leads
  | [token], r, _, ran, leads => by
    unfold Redirection.extractFrom at ran
    split at ran <;> cases ran
    exact leads
  | token :: operand :: tokens, r, plain, ran, leads => by
    obtain ⟨first, others⟩ := List.forall_mem_cons.mp plain
    obtain ⟨second, later⟩ := List.forall_mem_cons.mp others
    unfold Redirection.extractFrom at ran
    split at ran
    · exact extractFrom_input (operand :: tokens) _ others ran leads
    · rename_i sign read
      split at ran
      · cases ran
      · rcases start_bind_eq_some_iff.mp ran with ⟨_, -, failed⟩ | ⟨name, s₁, named, goesOn⟩
        · cases failed
        rw [Settled.keeps (operandName_settled run second) named] at goesOn
        rcases start_bind_eq_some_iff.mp goesOn with ⟨_, -, failed⟩ | ⟨added, s₂, adds, rest⟩
        · cases failed
        rw [Settled.keeps (add_settled r read first.signless) adds] at rest
        refine extractFrom_input tokens added later rest ?_
        cases sign with
        | output => exact absurd (.inl read) first.signless
        | append => exact absurd (.inr read) first.signless
        | input =>
          simp only [Redirection.add] at adds
          split at adds
          · cases adds
          · rcases start_bind_eq_some_iff.mp adds with ⟨_, -, failed⟩ | ⟨source, s₃, opened, adds⟩
            · cases failed
            cases adds
            rintro _ ⟨⟩
            exact openInput_leads opened

/-- What a call opens, if it has no sign for an output: no output, and as its input
a file that some path leads to. -/
theorem prepare_opens {sh : Shell} {c : Call} {ready : Ready} {s' : Session}
    (plain : ∀ token ∈ c.tokens, Plain token)
    (prepared : (prepare sh run c).start s = some (.ok ready, s')) :
    ready.streams.output = none ∧ InputLeads s.disk ready.streams ∧
      ∀ source, ready.streams.input = some source → source.fault = none := by
  obtain ⟨s₁, -, extracted, -, -⟩ := prepare_parts prepared
  have streams : Prepared Plain ready.streams := extract_prepared plain ⟨_, _, extracted⟩
  refine ⟨?_, extractFrom_input c.tokens {} plain extracted nofun, streams.input⟩
  cases found : ready.streams.output with
  | none => rfl
  | some sink =>
    obtain ⟨-, token, fit, opens⟩ := streams.output sink found
    exact absurd opens fit.signless

/-- It is prepared without a trace, whatever the output. -/
theorem prepare_on {sh : Shell} {c : Call} {ready : Ready} {s' : Session}
    (plain : ∀ token ∈ c.tokens, Plain token)
    (prepared : (prepare sh run c).start s = some (.ok ready, s')) (output : Sink) :
    (prepare sh run c).start { s with output } = some (.ok ready, { s with output }) := by
  have settles : Settled s.disk s.cwd (prepare sh run c) := prepare_settled _ sh plain
  obtain ⟨result, settled⟩ := settles
  rw [settled { s with output } rfl rfl]
  rw [settled s rfl rfl] at prepared
  rw [(Prod.mk.inj (Option.some.inj prepared)).1]

/-! Two runs of a filter: one on an output that takes everything, one on a file. -/

/-- The disk when bytes have been written to a file after what it held. -/
def landed (D : Disk) (id : FileId) (written : Bytes) : Disk :=
  D.setContent id (D.content id ++ written)

/-- An input that is not the file written, and holds the same on both disks. -/
def Safe (d D : Disk) (id : FileId) (source : Source) : Prop :=
  ∀ other pos, source = .file other pos → other ≠ id ∧ D.content other = d.content other

/-- The sessions of the two runs: on the disk `d` with the bytes written so far
taken, and on the disk `D` with the bytes in the file. -/
structure Landing (d D : Disk) (id : FileId) (keep : Bool) (cwd : Place) (s t : Session) : Prop where
  disk : s.disk = d
  cwd : s.cwd = cwd
  safe : Safe d D id s.input
  same : ∃ written, s.output = .outlet { taken := written } ∧
    t = { s with
      disk := landed D id written
      output := .file id (if keep then none else some written.length) }

/-- The bond of such sessions. -/
def landing (d D : Disk) (id : FileId) (keep : Bool) (cwd : Place) : Bond :=
  .free (Landing d D id keep cwd)

/-- A path that leads to the same on both disks, and not to the file written. -/
structure Apart (d D : Disk) (id : FileId) (p : Place) : Prop where
  spot : spot? D p = spot? d p
  content : ∀ other, lead? d p = some (.file other) →
    other ≠ id ∧ D.content other = d.content other

section Landing

variable {keep : Bool} {cwd : Place} {written : Bytes}

theorem spot?_landed (p : Place) : spot? (landed D id written) p = spot? D p :=
  spot?_setContent _ p

theorem content_landed (held : id < D.contents.length) (other : FileId) :
    (landed D id written).content other =
      if other = id then D.content id ++ written else D.content other :=
  content_setContent _ other held

theorem landed_nil : landed D id [] = D := by
  have same : D.contents.set id (D.contents.getD id []) = D.contents := by
    refine List.ext_getElem? fun i => ?_
    rw [List.getElem?_set]
    by_cases here : id = i
    · subst here
      by_cases held : id < D.contents.length
      · simp [held]
      · simp [held]
    · simp [here]
  simp only [landed, List.append_nil, Disk.setContent, Disk.content, same]

theorem landed_append (held : id < D.contents.length) (bs : Bytes) :
    (landed D id written).append id bs = landed D id (written ++ bs) := by
  rw [Disk.append, content_landed held, if_pos rfl, List.append_assoc]
  simp only [landed, Disk.setContent, List.set_set]

theorem landed_overwrite (held : id < D.contents.length) (empty : D.content id = []) (bs : Bytes) :
    (landed D id written).overwrite id written.length bs = landed D id (written ++ bs) := by
  have past : written.drop (written.length + bs.length) = [] :=
    List.drop_eq_nil_of_le (Nat.le_add_right _ _)
  rw [Disk.overwrite, content_landed held, if_pos rfl, empty]
  simp [landed, Disk.setContent, empty, past]

/-- How an operand is opened depends on where its path ends. -/
def opening (name : String) : Option Spot → Except Complaint FileId
  | some (.found _ (.file id)) => .ok id
  | some (.found _ .dir) => .error (.isDirectory name)
  | some (.found _ (.link _)) => .error (.io .isDirectory)
  | _ => .error (.noSuchFile name)

theorem start_openOperand (name : String) (s : Session) :
    (Job.openOperand name).start s =
      some (opening name (spot? s.disk (Path.resolve s.cwd name)), s) := by
  rcases located : s.disk.locate true (Path.resolve s.cwd name) with e | ⟨q, _ | _ | _⟩ | q <;>
    simp only [Job.openOperand, start_bind, start_resolve, start_view, Disk.reaches, Disk.find,
      Disk.isDir, Disk.openFile, spot?, located] <;>
    rfl

theorem landing_serves (held : id < D.contents.length) (empty : keep = false → D.content id = []) :
    Serves (landing d D id keep cwd) (Safe d D id)
      (fun name => Apart d D id (Path.resolve cwd name)) where
  input := by
    rintro s t ⟨-, -, -, written, -, rfl⟩
    rfl
  held := by
    rintro s t ⟨rfl, -, safe, written, -, rfl⟩
    cases input : s.input with
    | stream rest fault => rfl
    | file other pos =>
      obtain ⟨apart, same⟩ := safe other pos input
      simp only [Source.held, content_landed held, if_neg apart, same]
  fault := fun _ _ _ _ _ _ _ => trivial
  safe := fun _ _ rel => rel.safe
  skip := by
    intro source safe n other pos same
    cases source with
    | stream rest fault => cases same
    | file id pos =>
      cases same
      exact safe _ _ rfl
  setInput := by
    rintro s t ⟨disk, dir, -, written, output, rfl⟩ input safe -
    exact ⟨disk, dir, safe, written, output, rfl⟩
  opens := by
    rintro name apart s t ⟨rfl, rfl, safe, written, output, rfl⟩
    rw [start_openOperand, start_openOperand, spot?_landed, apart.spot]
    exact .both (fun _ _ _ _ => trivial) ⟨rfl, rfl, safe, written, output, rfl⟩
  opened := by
    rintro name apart s t ⟨rfl, rfl, -, -⟩ other s' ran
    rw [start_openOperand] at ran
    have given := (Prod.mk.inj (Option.some.inj ran)).1
    have leads : lead? s.disk (Path.resolve s.cwd name) = some (.file other) := by
      rw [lead?_eq_file]
      unfold opening at given
      split at given
      · rename_i q found ends
        cases given
        exact ⟨q, ends⟩
      all_goals cases given
    rintro _ pos ⟨⟩
    exact apart.content other leads
  write := by
    rintro bs s t ⟨disk, dir, safe, written, output, rfl⟩
    have taken : s.output.write s.disk bs =
        (s.disk, .outlet { taken := written ++ bs }, none) := by
      rw [output]
      rfl
    have stored : (Sink.file id (if keep then none else some written.length)).write
        (landed D id written) bs = (landed D id (written ++ bs),
          .file id (if keep then none else some (written ++ bs).length), none) := by
      cases keep with
      | true => simp only [if_true, Sink.write, landed_append held]
      | false =>
        simp only [Bool.false_eq_true, if_false, Sink.write, landed_overwrite held (empty rfl),
          List.length_append]
    simp only [Act.start, Act.write, ExceptT.run, taken, stored]
    exact .both (admits_ok ()) ⟨disk, dir, safe, written ++ bs, rfl, rfl⟩
  flush := by
    rintro s t ⟨disk, dir, safe, written, output, rfl⟩
    simp only [Act.start, Act.flush, ExceptT.run, output]
    exact .both (admits_ok ()) ⟨disk, dir, safe, written, output, rfl⟩
  unfed := .inl trivial

end Landing

/-! The whole call. -/

/-- A redirection that a call can be given: it leads to a file or a free name, to
which no operand of the call leads, and which is not the input that the call
opened. -/
structure Usable (s : Session) (ready : Ready) (r : Redirect) : Prop where
  named : r.name ≠ ""
  leads : (lead? s.disk (Path.resolve s.cwd r.name)).isSome
  operands : ∀ name ∈ operands ready.args, name ≠ "-" →
    lead? s.disk (Path.resolve s.cwd name) ≠ lead? s.disk (Path.resolve s.cwd r.name)
  input : ∀ id pos, ready.streams.input = some (.file id pos) →
    lead? s.disk (Path.resolve s.cwd r.name) ≠ some (.file id)

/-- What becomes of the files: the last one gets the bytes, after what was kept of
it, the earlier ones are left with what was kept of them, and no other path leads
to anything else than before. -/
structure Received (s : Session) (earlier : List Redirect) (last : Redirect) (written : Bytes)
    (D : Disk) : Prop where
  gets : contentAt? D (Path.resolve s.cwd last.name) =
    some ((last.target s.cwd).base s.disk ++ written)
  keeps : ∀ r ∈ earlier, contentAt? D (Path.resolve s.cwd r.name) =
    some ((r.target s.cwd).base s.disk)
  others : ∀ p, (∀ r ∈ earlier ++ [last],
    lead? s.disk p ≠ lead? s.disk (Path.resolve s.cwd r.name)) → contentAt? D p = contentAt? s.disk p
  entries : ∀ p, (∀ r ∈ earlier ++ [last],
    lead? s.disk (Path.resolve s.cwd r.name) ≠ some (.free p)) → D.entry? p = s.disk.entry? p

theorem contentAt?_landed {p : Place} (written : Bytes) (held : id < D.contents.length)
    (other : lead? D p ≠ some (.file id)) : contentAt? (landed D id written) p = contentAt? D p := by
  have leads : lead? (landed D id written) p = lead? D p := lead?_setContent _ p
  unfold contentAt?
  rw [leads]
  split
  · rename_i found here
    have apart : found ≠ id := by
      rintro rfl
      exact other here
    rw [content_landed held, if_neg apart]
  · rfl

section Call

variable {earlier : List Redirect} {last : Redirect}
  (opened : Opened s.disk ((earlier ++ [last]).map (Redirect.target s.cwd)) D)
  (now : lead? D (Path.resolve s.cwd last.name) = some (.file id))

include opened now

theorem content_last : D.content id = (last.target s.cwd).base s.disk := by
  have member := List.mem_append_right earlier (List.mem_singleton_self last)
  have holds := opened.holds _ (List.mem_map_of_mem member)
  rw [Redirect.place_target, contentAt?_of_lead now] at holds
  exact Option.some.inj holds

/-- A path that leads elsewhere leads elsewhere still. -/
theorem lead?_ne_last {p : Place}
    (other : lead? s.disk p ≠ lead? s.disk (Path.resolve s.cwd last.name)) :
    lead? D p ≠ some (.file id) := by
  rw [← now]
  exact opened.apart _ _ other

theorem received (sound : Sound s.disk) (openable : Openable s.disk s.cwd (earlier ++ [last]))
    (written : Bytes) : Received s earlier last written (landed D id written) where
  gets := by
    have held := opened.sound.lt now
    have leads : lead? (landed D id written) (Path.resolve s.cwd last.name) = some (.file id) :=
      (lead?_setContent _ _).trans now
    rw [contentAt?_of_lead leads, content_landed held, if_pos rfl, content_last opened now]
  keeps r member := by
    have other := (List.pairwise_append.mp openable.distinct).2.2 r member last
      (List.mem_singleton_self last)
    rw [contentAt?_landed written (opened.sound.lt now) (lead?_ne_last opened now other)]
    have holds := opened.holds _ (List.mem_map_of_mem (List.mem_append_left _ member))
    rwa [Redirect.place_target] at holds
  others p others := by
    have other := others last (List.mem_append_right _ (List.mem_singleton_self last))
    rw [contentAt?_landed written (opened.sound.lt now) (lead?_ne_last opened now other)]
    refine opened.contentAt? sound fun t member => ?_
    obtain ⟨r, held, rfl⟩ := List.mem_map.mp member
    rw [Redirect.place_target]
    exact others r held
  entries p others := by
    refine opened.entries p fun t member => ?_
    obtain ⟨r, held, rfl⟩ := List.mem_map.mp member
    rw [Redirect.place_target]
    exact others r held

/-- A path that leads to none of the files leads to the same once they are open. -/
theorem apart_of_opened (sound : Sound s.disk) {p : Place}
    (others : ∀ r ∈ earlier ++ [last], lead? s.disk p ≠ lead? s.disk (Path.resolve s.cwd r.name)) :
    Apart s.disk D id p := by
  have unmet : ∀ t ∈ (earlier ++ [last]).map (Redirect.target s.cwd),
      lead? s.disk p ≠ lead? s.disk t.place := by
    intro t member
    obtain ⟨r, held, rfl⟩ := List.mem_map.mp member
    rw [Redirect.place_target]
    exact others r held
  have spot := opened.spots _ unmet
  refine ⟨spot, fun other leads => ⟨?_, ?_⟩⟩
  · rintro rfl
    refine lead?_ne_last opened now (others last ?_) ((lead?_of_spots spot).trans leads)
    exact List.mem_append_right _ (List.mem_singleton_self last)
  · refine opened.contents other (sound.lt leads) fun t member => ?_
    rw [← leads]
    exact Ne.symm (unmet t member)

/-- An old file that none of the paths leads to is not the one that is written, and
it holds what it did. -/
theorem safe_of_opened {other : FileId} (old : other < s.disk.contents.length)
    (unmet : ∀ r ∈ earlier ++ [last],
      lead? s.disk (Path.resolve s.cwd r.name) ≠ some (.file other)) :
    other ≠ id ∧ D.content other = s.disk.content other := by
  constructor
  · rintro rfl
    exact unmet last (List.mem_append_right _ (List.mem_singleton_self last)) (opened.old _ _ old now)
  · refine opened.contents other old fun t member => ?_
    obtain ⟨r, held, rfl⟩ := List.mem_map.mp member
    rw [Redirect.place_target]
    exact unmet r held

end Call

/-- On an output that takes everything a filter ends. -/
theorem launch_ends {app : Application} (filters : app ∈ filters) (args : List String)
    (outlet : ∃ p, s.output = .outlet p) :
    ∃ result s', (Shell.launch app args).start s = some (result, s') := by
  have apart : app ≠ .tee := by
    rintro rfl
    exact absurd filters (by decide)
  obtain ⟨result, s₁, ran⟩ := run_ends args outlet fun same => absurd same apart
  have flushes (t : Session) :
      ∃ flushed t', (Act.attempt Act.flush : Act Failure (Except IoError Unit)).start t =
        some (flushed, t') := by
    rw [start_attempt, EchoLine.start_flush]
    exact ⟨_, _, rfl⟩
  refine ends_bind ⟨.ok result, s₁, ?_⟩ fun _ t _ => ends_bind (flushes t) fun _ _ _ => ?_
  · rw [start_attempt, ran]
    rfl
  · split <;> exact ⟨_, _, rfl⟩

section Streams

variable {ε α : Type} {r : Redirection} {act act' : Act ε α} (output : r.output = none)

include output

theorem within_output (sink : Sink) :
    ({ r with output := some sink } : Redirection).within act = Act.withOutput sink (r.within act) := by
  obtain ⟨rest, input, _⟩ := r
  cases output
  rfl

theorem within_ends (outlet : ∃ p, s.output = .outlet p)
    (ends : ∀ s : Session, (∃ p, s.output = .outlet p) → ∃ result s', act.start s = some (result, s')) :
    ∃ result s', (r.within act).start s = some (result, s') := by
  obtain ⟨rest, input, _⟩ := r
  cases output
  cases input with
  | none => exact ends s outlet
  | some input =>
    obtain ⟨result, s', ran⟩ := ends { s with input } outlet
    refine ⟨result, { s' with input := s.input }, ?_⟩
    change (Act.withInput input act).start s = _
    rw [start_withInput, ran]
    rfl

theorem within_safe [Fault ε] {K : Bond} {Safe : Source → Prop} (feeds : K.Feeds Safe)
    (safe : ∀ source, r.input = some source → Safe source ∧ source.fault = none)
    (agrees : K.Agrees act act') : K.Agrees (r.within act) (r.within act') := by
  obtain ⟨rest, input, _⟩ := r
  cases output
  cases input with
  | none => exact agrees
  | some input =>
    obtain ⟨safe, sound⟩ := safe input rfl
    exact .withInput_safe feeds safe sound agrees

end Streams

/-- A filter and its input redirection, on an output that takes everything and on
an open file. -/
theorem dispatch_lands {ready : Ready} {keep : Bool} (output : ready.streams.output = none)
    (filter : ready.app ∈ filters) (single : ready.app = .uniq → (operands ready.args).length ≤ 1)
    (held : id < D.contents.length) (empty : keep = false → D.content id = [])
    (stream : Safe s.disk D id s.input)
    (input : ∀ source, ready.streams.input = some source →
      Safe s.disk D id source ∧ source.fault = none)
    (fits : ∀ name ∈ operands ready.args, name ≠ "-" →
      Apart s.disk D id (Path.resolve s.cwd name)) :
    ∃ result s₁, ready.dispatch.start { s with output := .unlimited } = some (result, s₁) ∧
      ({ ready with streams := { ready.streams with
          output := some (.file id (if keep then none else some 0)) } } : Ready).dispatch.start
        { s with disk := D } =
          some (result, { s₁ with disk := landed D id s₁.output.taken, output := s.output }) := by
  have serves : Serves (landing s.disk D id keep s.cwd) (Safe s.disk D id) _ :=
    landing_serves held empty
  have agrees := within_safe output serves.toFeeds input
    (launch_agrees serves.flush (filter_agrees serves filter single fits))
  simp only [Ready.dispatch, start_bind, start_note, within_output output, start_withOutput]
  -- Both begin with nothing written.
  generalize s.journal ++ [_] = journal
  have rel : Landing s.disk D id keep s.cwd { s with output := .unlimited, journal }
      { s with disk := D, output := .file id (if keep then none else some 0), journal } :=
    ⟨rfl, rfl, stream, [], rfl, by rw [landed_nil]; rfl⟩
  obtain ⟨result, s₁, ran⟩ := within_ends (s := { s with output := .unlimited, journal }) output
    ⟨_, rfl⟩ fun _ outlet => launch_ends filter ready.args outlet
  have ends := agrees rel
  rw [ran] at ends
  generalize (ready.streams.within (Shell.launch ready.app ready.args)).start
    { s with disk := D, output := .file id (if keep then none else some 0), journal } = other at ends
  cases ends with
  | both _ rel' =>
    obtain ⟨-, -, -, written, taken, rfl⟩ := rel'
    refine ⟨result, s₁, ran, ?_⟩
    rw [taken]
    rfl

/-- The call on its own and on the file come to the same. -/
theorem redirected_output_lands_in_the_last_file (sh : Shell) (c : Call) (s s' : Session)
    (ready : Ready) (earlier : List Redirect) (last : Redirect) (sound : Sound s.disk)
    (ambient : ∀ other pos, s.input = .file other pos → other < s.disk.contents.length ∧
      ∀ r ∈ earlier ++ [last], lead? s.disk (Path.resolve s.cwd r.name) ≠ some (.file other))
    (plain : ∀ token ∈ c.tokens, Plain token)
    (dispatches : (prepare sh (sh.substitute sh.levels) c).start s = some (.ok ready, s'))
    (filter : ready.app ∈ filters)
    (single : ready.app = .uniq → (operands ready.args).length ≤ 1)
    (usable : ∀ r ∈ earlier ++ [last], Usable s ready r)
    (distinct : (earlier ++ [last]).Pairwise fun r r' =>
      lead? s.disk (Path.resolve s.cwd r.name) ≠ lead? s.disk (Path.resolve s.cwd r'.name)) :
    ∃ result s₁ s₂,
      (sh.evaluateTop (.call c)).start { s with output := .unlimited } = some (result, s₁) ∧
      (sh.evaluateTop (.call ⟨c.tokens ++ (earlier ++ [last]).flatMap Redirect.tokens⟩)).start s =
        some (result, s₂) ∧
      s₂ = { s₁ with disk := s₂.disk, output := s.output } ∧
      Received s earlier last s₁.output.taken s₂.disk := by
  have openable : Openable s.disk s.cwd (earlier ++ [last]) :=
    ⟨fun r member => (usable r member).named, fun r member => (usable r member).leads, distinct⟩
  obtain ⟨D, id, prepared, opened, now⟩ :=
    prepare_redirected plain dispatches earlier last sound openable
  have alone := prepare_on plain dispatches .unlimited
  obtain ⟨output, leads, calm⟩ := prepare_opens plain dispatches
  -- What the call reads is not what is written.
  have held := opened.sound.lt now
  have empty (fresh : last.keep = false) : D.content id = [] := by
    rw [content_last opened now]
    simp [Redirect.target, Target.base, fresh]
  have stdin : Safe s.disk D id s.input := by
    intro other pos reads
    obtain ⟨old, unmet⟩ := ambient other pos reads
    exact safe_of_opened opened now old unmet
  have input (source : Source) (found : ready.streams.input = some source) :
      Safe s.disk D id source ∧ source.fault = none := by
    refine ⟨?_, calm source found⟩
    obtain ⟨p, other, rfl, reached⟩ := leads source found
    have apart := apart_of_opened opened now sound fun r member => by
      rw [reached]
      exact Ne.symm ((usable r member).input other 0 found)
    rintro _ pos ⟨⟩
    exact apart.content other reached
  have fits (name : String) (member : name ∈ operands ready.args) (file : name ≠ "-") :
      Apart s.disk D id (Path.resolve s.cwd name) :=
    apart_of_opened opened now sound fun r held => (usable r held).operands name member file
  obtain ⟨result, s₁, ran, ran'⟩ :=
    dispatch_lands output filter single held empty stdin input fits
  refine ⟨result, s₁, { s₁ with disk := landed D id s₁.output.taken, output := s.output }, ?_, ?_,
    rfl, received opened now sound openable _⟩
  · rw [Shell.evaluateTop, Shell.evaluate, call_eq, start_bind, alone]
    exact ran
  · rw [Shell.evaluateTop, Shell.evaluate, call_eq, start_bind, prepared]
    exact ran'

/-- A session with two files and a link to one of them, whose input is the other. -/
def linked : Session where
  disk :=
    { entries := [(["a"], .file 0), (["f"], .file 1), (["l"], .link "f")]
      contents := [Text.bytes "x\n", Text.bytes "old"] }
  input := .file 0 1

/-- A call that reads one of the files as its input and fails at an operand. -/
def failing : Call := ⟨["cat", "-", "nope", "<", "a"]⟩

/-- The call, ready to be dispatched. -/
def failingReady : Ready where
  streams := { rest := ["cat", "-", "nope"], input := some (.file 0 0) }
  app := .cat
  args := ["-", "nope"]

theorem linked_sound : Sound linked.disk := by
  intro p id found
  have member : (p, Entry.file id) ∈ linked.disk.entries := by
    unfold Disk.entry? at found
    split at found
    · cases found
    · obtain ⟨before, after, same, -⟩ := List.lookup_eq_some_iff.mp found
      simp [same]
  simp only [linked, List.mem_cons, Prod.mk.injEq, Entry.file.injEq, reduceCtorEq, and_false,
    List.not_mem_nil, or_false] at member
  rcases member with ⟨-, rfl⟩ | ⟨-, rfl⟩ <;> decide

/-- The output before the failure goes through the link to the end of the file, and
the earlier file is left empty. -/
theorem failing_call_appends_through_link :
    ∃ s₂, (({} : Shell).evaluateTop
        (.call ⟨failing.tokens ++ [">", "'new'", ">>", "'l'"]⟩)).start linked =
          some (.error (.application "cat" (.noSuchFile "nope")), s₂) ∧
      contentAt? s₂.disk ["l"] = some (Text.bytes "oldx\n") ∧
      Disk.entry? s₂.disk ["l"] = some (.link "f") ∧ contentAt? s₂.disk ["new"] = some [] ∧
      contentAt? s₂.disk ["a"] = some (Text.bytes "x\n") ∧ s₂.output = linked.output := by
  have usable : ∀ r ∈ [⟨false, "new"⟩] ++ [(⟨true, "l"⟩ : Redirect)],
      Usable linked failingReady r := by
    have input (r : Redirect)
        (other : lead? linked.disk (Path.resolve linked.cwd r.name) ≠ some (.file 0))
        (id : FileId) (pos : Nat) (opened : failingReady.streams.input = some (.file id pos)) :
        lead? linked.disk (Path.resolve linked.cwd r.name) ≠ some (.file id) := by
      cases opened
      exact other
    intro r member
    rcases List.mem_cons.mp member with rfl | member
    · exact ⟨by decide, by decide +kernel, by decide +kernel, input ⟨false, "new"⟩ (by decide +kernel)⟩
    · obtain rfl := List.mem_singleton.mp member
      exact ⟨by decide, by decide +kernel, by decide +kernel, input ⟨true, "l"⟩ (by decide +kernel)⟩
  have ambient (other : FileId) (pos : Nat) (reads : linked.input = .file other pos) :
      other < linked.disk.contents.length ∧ ∀ r ∈ [⟨false, "new"⟩] ++ [(⟨true, "l"⟩ : Redirect)],
        lead? linked.disk (Path.resolve linked.cwd r.name) ≠ some (.file other) := by
    cases reads
    exact ⟨by decide, by decide +kernel⟩
  obtain ⟨result, s₁, s₂, alone, ran, same, received⟩ :=
    redirected_output_lands_in_the_last_file {} failing linked linked failingReady
      [⟨false, "new"⟩] ⟨true, "l"⟩ linked_sound ambient (by decide +kernel) (by decide +kernel)
      (by decide) nofun usable (by decide +kernel)
  have known : ((({} : Shell).evaluateTop (.call failing)).start
      { linked with output := .unlimited }).map (fun ended => (ended.1, ended.2.output.taken)) =
        some (.error (.application "cat" (.noSuchFile "nope")), Text.bytes "x\n") := by
    decide +kernel
  rw [alone] at known
  obtain ⟨rfl, taken⟩ := Prod.mk.inj (Option.some.inj known)
  have places : Path.resolve linked.cwd "l" = ["l"] ∧ Path.resolve linked.cwd "new" = ["new"] := by
    decide +kernel
  have appended : (Redirect.target linked.cwd ⟨true, "l"⟩).base linked.disk ++ Text.bytes "x\n" =
      Text.bytes "oldx\n" := by
    decide +kernel
  have gets := received.gets
  have keeps := received.keeps _ (List.mem_singleton_self _)
  have others := received.others ["a"] (by decide +kernel)
  have entries := received.entries ["l"] (by decide +kernel)
  rw [taken, appended, places.1] at gets
  rw [places.2] at keeps
  have unread : contentAt? linked.disk ["a"] = some (Text.bytes "x\n") := by decide +kernel
  have link : linked.disk.entry? ["l"] = some (.link "f") := by decide +kernel
  refine ⟨s₂, ran, gets, entries.trans link, keeps, others.trans unread, ?_⟩
  rw [same]

/-- A session whose input is the only file. -/
def selfFed : Session where
  disk := { entries := [(["f"], .file 0)], contents := [Text.bytes "x"] }
  input := .file 0 0

theorem overlong_output_is_refused :
    (({} : Shell).evaluateTop (.call ⟨["echo", "hi", ">", quoted overlong]⟩)).start {} =
      some (.error (.redirect (.io overlong .nameTooLong)), {}) := by
  -- the name is a variable here: its text would be evaluated otherwise
  have refused (name : String) (named : name ≠ "") (normal : Normal [name])
      (long : ∀ follow, Disk.locate {} follow [name] = .error .nameTooLong) :
      (({} : Shell).evaluateTop (.call ⟨["echo", "hi", ">", quoted name]⟩)).start {} =
        some (.error (.redirect (.io name .nameTooLong)), {}) := by
    have place : Path.resolve [] name = [name] := by
      have leads := @resolve_join_normal [] [name] normal
      rwa [PlacePaths.join_singleton] at leads
    have opens : (Redirection.openOutput name false).start {} =
        some (.error (.redirect (.io name .nameTooLong)), {}) := by
      simp only [Redirection.openOutput, start_bind, start_resolve, start_view, place]
      simp [Disk.isDir, Disk.endsAtDir, Disk.openForWriting, Redirection.fault, long]
      rfl
    have first : Token.redirect? "echo" = none ∧ Token.redirect? "hi" = none ∧
        Token.redirect? ">" = some .output := by decide
    simp only [Shell.evaluateTop, Shell.evaluate, Shell.call, Redirection.extract,
      Redirection.extractFrom, first, isRedirect_quoted, Bool.false_eq_true, if_false,
      Redirection.operandName, expand_quoted, pure_bind, if_neg named, Redirection.add, start_bind,
      opens]
  exact refused overlong (overlong_ne (by decide)) overlong_normal (locate_overlong {})

/-- A file that is the input of the session as well is emptied before it is read, and
a free name that the system does not take becomes no file. -/
theorem input_is_emptied_and_long_name_is_refused :
    (((({} : Shell).evaluateTop (.call ⟨["cat"]⟩)).start { selfFed with output := .unlimited }).map
        (fun ended => (ended.1, ended.2.output.taken)) = some (.ok .proceed, Text.bytes "x") ∧
      ((({} : Shell).evaluateTop (.call ⟨["cat", ">", quoted "f"]⟩)).start selfFed).map
        (fun ended => (ended.1, contentAt? ended.2.disk ["f"])) = some (.ok .proceed, some [])) ∧
    Disk.entry? {} [overlong] = none ∧
      ((({} : Shell).evaluateTop (.call ⟨["echo", "hi"]⟩)).start {}).map
        (fun ended => (ended.1, ended.2.output.taken)) =
          some (.ok .proceed, Text.bytes "hi\n") ∧
      (({} : Shell).evaluateTop (.call ⟨["echo", "hi", ">", quoted overlong]⟩)).start {} =
        some (.error (.redirect (.io overlong .nameTooLong)), {}) :=
  ⟨by decide +kernel, rfl, by decide +kernel, overlong_output_is_refused⟩

end LineShell.RedirectedOutput
