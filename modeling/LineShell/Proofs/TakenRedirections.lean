import LineShell.Proofs.CallParts
import LineShell.Proofs.OpenedTargets

/-! Redirections taken out of a call. They are carried out from left to right up to
the first one that is faulty, and each makes, empties or keeps its file as its sign
says. Which fault counts is decided by the order of the checks. A call without a
faulty one is left with its other tokens, the file of its only input, and the file
of its last output. -/
namespace LineShell.TakenRedirections
open StepAgreement OpenedTargets CallParts TextLogs

/-! Files that are opened. -/

/-- The disk once the file at a path is open to be written: a free name is a new,
empty file, and an old file is kept or emptied. -/
def opened (keep : Bool) (d : Disk) (p : Place) : Disk :=
  match lead? d p with
  | some (.free q) => (d.create q).1
  | some (.file id) => if keep then d else d.setContent id []
  | none => d

/-- The file that a sign opens at a path. -/
def opens (sign : Token.Redirect) (d : Disk) (p : Place) : Except IoError FileId :=
  match sign with
  | .input => d.openFile p
  | .output => Prod.snd <$> d.openForWriting p false
  | .append => Prod.snd <$> d.openForWriting p true

/-- The disk after a sign has opened the file at a path. -/
def leaves (sign : Token.Redirect) (d : Disk) (p : Place) : Disk :=
  match sign with
  | .input => d
  | .output => opened false d p
  | .append => opened true d p

variable {d D : Disk} {p q : Place} {id : FileId} {keep : Bool}

theorem openFile_leads (ran : d.openFile p = .ok id) : lead? d p = some (.file id) := by
  rw [lead?_eq_file]
  simp only [Disk.openFile, Disk.find] at ran
  cases located : d.locate true p with
  | error e => rw [located] at ran; cases ran
  | ok spot =>
    rw [located] at ran
    rcases spot with ⟨q, _ | _ | _⟩ | q <;> cases ran
    exact ⟨q, spot?_eq_some.mpr located⟩

theorem lead?_create (leads : lead? d p = some (.free q)) :
    lead? (d.create q).1 p = some (.file d.contents.length) := by
  have ends := lead?_eq_free.mp leads
  have free : d.entry? q = none := spot?_told ends
  rw [lead?_eq_file]
  refine ⟨q, ?_⟩
  rw [spot?_filled (create_grown free), ends, Option.map_some, filled, if_pos rfl]

theorem openForWriting_leads (ran : d.openForWriting p keep = .ok (D, id)) :
    D = opened keep d p ∧ lead? D p = some (.file id) := by
  simp only [Disk.openForWriting] at ran
  cases located : d.locate true p with
  | error e => rw [located] at ran; cases ran
  | ok spot =>
    have ends := spot?_eq_some.mpr located
    rw [located] at ran
    rcases spot with ⟨q, _ | _ | _⟩ | q <;> cases ran
    · have leads : lead? d p = some (.file id) := lead?_eq_file.mpr ⟨q, ends⟩
      refine ⟨by simp only [opened, leads], ?_⟩
      split
      · exact leads
      · rw [lead?_setContent, leads]
    · have leads : lead? d p = some (.free q) := lead?_eq_free.mpr ends
      exact ⟨by simp only [opened, leads]; rfl, lead?_create leads⟩

/-- What is opened is the file that the path then leads to. -/
theorem opens_leads {sign : Token.Redirect} (ran : opens sign d p = .ok id) :
    lead? (leaves sign d p) p = some (.file id) := by
  have written (keep : Bool) (ran : Prod.snd <$> d.openForWriting p keep = .ok id) :
      lead? (opened keep d p) p = some (.file id) := by
    cases found : d.openForWriting p keep with
    | error e => rw [found] at ran; cases ran
    | ok ends =>
      rw [found] at ran
      cases ran
      obtain ⟨same, leads⟩ := openForWriting_leads found
      rwa [same] at leads
  cases sign with
  | input => exact openFile_leads ran
  | output | append => exact written _ ran

/-- The input that a sign makes of a file: it is read from its beginning. -/
def sourceOf (id : FileId) : Token.Redirect → Option Source
  | .input => some (.file id 0)
  | .output | .append => none

/-- The output that a sign makes of a file: it is written from its beginning, or at its
end. -/
def sinkOf (id : FileId) : Token.Redirect → Option Sink
  | .input => none
  | .output => some (.file id (some 0))
  | .append => some (.file id none)

/-- The stream of an opened file takes the place of one bound before. -/
def bindFile (r : Redirection) (sign : Token.Redirect) (id : FileId) : Redirection :=
  { r with input := (sourceOf id sign).or r.input, output := (sinkOf id sign).or r.output }

/-- The failure of a file that is no directory and cannot be opened. -/
def unopenedFault (name : String) (e : IoError) : RedirectFault :=
  if e = .notFound then .notFound name else .io name e

theorem start_add {r : Redirection} {sign : Token.Redirect}
    (unbound : ¬(sign = .input ∧ r.input.isSome)) (name : String) (s : Session) :
    (r.add sign name).start s =
      if s.disk.isDir (Path.resolve s.cwd name) then
        some (.error (.redirect (.isDirectory name)), s)
      else
        match opens sign s.disk (Path.resolve s.cwd name) with
        | .error e => some (.error (.redirect (unopenedFault name e)), s)
        | .ok id =>
          some (.ok (bindFile r sign id),
            { s with disk := leaves sign s.disk (Path.resolve s.cwd name) }) := by
  cases sign with
  | input =>
    have free : r.input.isSome = false := by simpa using unbound
    simp only [Redirection.add, free, Redirection.openInput, opens, leaves, bindFile, sourceOf,
      sinkOf]
    by_cases dir : s.disk.isDir (Path.resolve s.cwd name)
    · simp [start_bind, dir]
    · cases found : s.disk.openFile (Path.resolve s.cwd name) <;>
        simp [start_bind, dir, found, Redirection.fault, unopenedFault]
  | output | append =>
    simp only [Redirection.add, Redirection.openOutput, opens, leaves, bindFile, sourceOf, sinkOf]
    by_cases dir : s.disk.isDir (Path.resolve s.cwd name)
    · simp [start_bind, dir]
    · cases found : s.disk.openForWriting (Path.resolve s.cwd name) _ with
      | error e => simp [start_bind, dir, found, Redirection.fault, unopenedFault]
      | ok ends =>
        obtain ⟨D, id⟩ := ends
        obtain ⟨rfl, -⟩ := openForWriting_leads found
        simp [start_bind, start_map, dir, found, Except.map]

theorem add_ends (r : Redirection) (sign : Token.Redirect) (name : String) :
    Ends (r.add sign name) := by
  intro s
  by_cases second : sign = .input ∧ r.input.isSome
  · obtain ⟨rfl, bound⟩ := second
    simp [Redirection.add, bound]
  · rw [start_add second]
    split
    · rfl
    · split <;> rfl

/-! Redirections that are carried out, and those that are not. -/

/-- A redirection that was carried out: as written, the name that its operand stood
for, the path of that name, and the file opened there. -/
structure Opening where
  sign : Token.Redirect
  operand : String
  name : String
  place : Place
  file : FileId
  deriving Repr, DecidableEq

namespace Opening

/-- The part of the call that it was. -/
def part (o : Opening) : Part := .redirect o.sign o.operand

/-- Whether it opened an input. -/
def reads (o : Opening) : Bool := o.sign = .input

/-- The disk after it. -/
def after (d : Disk) (o : Opening) : Disk := leaves o.sign d o.place

/-- The input that it opened. -/
def source? (o : Opening) : Option Source := sourceOf o.file o.sign

/-- The output that it opened. -/
def sink? (o : Opening) : Option Sink := sinkOf o.file o.sign

end Opening

section Runs

variable (expand : String → Act Failure (List String))

/-- An operand stands for one word, and that is not empty. -/
def Names (operand : String) (s : Session) (name : String) (t : Session) : Prop :=
  (expand operand).start s = some (.ok [name], t) ∧ name ≠ ""

/-- A redirection is carried out; `bound` says that there is an input already. -/
inductive CarriedOut (bound : Bool) : Opening → Session → Session → Prop where
  | intro {o : Opening} {s t : Session} (names : Names expand o.operand s o.name t)
      (unbound : ¬(o.sign = .input ∧ bound)) (place : o.place = Path.resolve t.cwd o.name)
      (noDir : ¬t.disk.isDir o.place) (opens : opens o.sign t.disk o.place = .ok o.file)
      (leads : lead? (o.after t.disk) o.place = some (.file o.file)) :
      CarriedOut bound o s { t with disk := o.after t.disk }

/-- Redirections are carried out from left to right. -/
inductive Carried : Bool → List Opening → Session → Session → Prop where
  | nil {bound : Bool} {s : Session} : Carried bound [] s s
  | cons {bound : Bool} {o : Opening} {openings : List Opening} {s s₁ t : Session}
      (first : CarriedOut expand bound o s s₁) (later : Carried (bound || o.reads) openings s₁ t) :
      Carried bound (o :: openings) s t

/-- A redirection is not carried out. The cases stand in the order of the checks, and
each holds only where those before do not. -/
inductive Faulty (bound : Bool) : Part → Session → Failure → Session → Prop where
  | missing {sign : Token.Redirect} {s : Session} :
      Faulty bound (.lone sign) s (.redirect (.missingOperand sign)) s
  | unexpanded {sign : Token.Redirect} {operand : String} {s t : Session} {e : Failure}
      (fails : (expand operand).start s = some (.error e, t)) :
      Faulty bound (.redirect sign operand) s e t
  | ambiguous {sign : Token.Redirect} {operand : String} {s t : Session} {words : List String}
      (expands : (expand operand).start s = some (.ok words, t)) (several : words.length ≠ 1) :
      Faulty bound (.redirect sign operand) s (.redirect (.ambiguous operand)) t
  | unnamed {sign : Token.Redirect} {operand : String} {s t : Session}
      (expands : (expand operand).start s = some (.ok [""], t)) :
      Faulty bound (.redirect sign operand) s (.redirect (.notFound "")) t
  | second {operand name : String} {s t : Session} (names : Names expand operand s name t)
      (again : bound = true) : Faulty bound (.redirect .input operand) s (.line .secondInput) t
  | directory {sign : Token.Redirect} {operand name : String} {s t : Session}
      (names : Names expand operand s name t) (unbound : ¬(sign = .input ∧ bound))
      (dir : t.disk.isDir (Path.resolve t.cwd name)) :
      Faulty bound (.redirect sign operand) s (.redirect (.isDirectory name)) t
  | unopened {sign : Token.Redirect} {operand name : String} {s t : Session} {e : IoError}
      (names : Names expand operand s name t) (unbound : ¬(sign = .input ∧ bound))
      (noDir : ¬t.disk.isDir (Path.resolve t.cwd name))
      (fails : opens sign t.disk (Path.resolve t.cwd name) = .error e) :
      Faulty bound (.redirect sign operand) s (.redirect (unopenedFault name e)) t

end Runs

variable {expand : String → Act Failure (List String)} {r r' : Redirection} {s s' : Session}
  {sign : Token.Redirect} {operand : String} {ps : List Part} {e : Failure}

theorem bindFile_input (r : Redirection) (o : Opening) :
    (bindFile r o.sign o.file).input.isSome = (r.input.isSome || o.reads) := by
  rcases o with ⟨_ | _ | _, _⟩ <;> simp [bindFile, sourceOf, Opening.reads]

/-- One redirection is carried out, or it is faulty. -/
theorem attach_runs {result : Except Failure Redirection}
    (ran : (attach expand Redirection.add r (.redirect sign operand)).start s =
      some (result, s')) :
    (∃ o : Opening, o.part = .redirect sign operand ∧ CarriedOut expand r.input.isSome o s s' ∧
        result = .ok (bindFile r o.sign o.file)) ∨
      ∃ e, Faulty expand r.input.isSome (.redirect sign operand) s e s' ∧ result = .error e := by
  obtain ⟨e, fails, rfl⟩ | ⟨words, t, expands, ran⟩ := start_bind_eq_some_iff.mp ran
  · exact .inr ⟨e, .unexpanded fails, rfl⟩
  by_cases single : words.length = 1
  · obtain ⟨name, rfl⟩ := List.length_eq_one_iff.mp single
    by_cases unnamed : name = ""
    · subst unnamed
      cases ran
      exact .inr ⟨_, .unnamed expands, rfl⟩
    have names : Names expand operand s name t := ⟨expands, unnamed⟩
    simp only [soleName, if_neg unnamed, pure_bind] at ran
    by_cases second : sign = .input ∧ r.input.isSome
    · obtain ⟨rfl, bound⟩ := second
      simp only [Redirection.add, bound] at ran
      cases ran
      exact .inr ⟨_, .second names bound, rfl⟩
    rw [start_add second] at ran
    -- From here on the path only matters for what it leads to.
    generalize here : Path.resolve t.cwd name = place at ran
    split at ran
    · rename_i dir
      cases ran
      exact .inr ⟨_, .directory names second (here ▸ dir), rfl⟩
    · rename_i noDir
      split at ran
      · rename_i e fails
        cases ran
        exact .inr ⟨_, .unopened names second (here ▸ noDir) (here ▸ fails), rfl⟩
      · rename_i id found
        cases ran
        exact .inl ⟨⟨sign, operand, name, place, id⟩, rfl,
          .intro names second here.symm noDir found (opens_leads found), rfl⟩
  · have several : soleName (m := Act Failure) operand words =
        throw (.redirect (.ambiguous operand)) := by
      rcases words with _ | ⟨name, _ | ⟨second, rest⟩⟩
      · rfl
      · exact absurd rfl single
      · rfl
    rw [several, throw_bind] at ran
    cases ran
    exact .inr ⟨_, .ambiguous expands single, rfl⟩

/-- A call whose redirections were taken out had every one carried out. -/
theorem foldlM_attach_ok
    (ran : (ps.foldlM (attach expand Redirection.add) r).start s = some (.ok r', s')) :
    ∃ openings, Carried expand r.input.isSome openings s s' ∧
      ps.filter Part.isRedirection = openings.map Opening.part ∧
      r' = openings.foldl (fun r o => bindFile r o.sign o.file)
        { r with rest := r.rest ++ ps.filterMap Part.word? } := by
  induction ps generalizing r s with
  | nil =>
    cases ran
    exact ⟨[], .nil, rfl, by simp⟩
  | cons part ps ih =>
    rw [List.foldlM_cons] at ran
    obtain ⟨_, -, ⟨⟩⟩ | ⟨r₁, s₁, first, later⟩ := start_bind_eq_some_iff.mp ran
    obtain ⟨openings, carried, shown, rfl⟩ := ih later
    cases part with
    | word token =>
      cases first
      exact ⟨openings, carried, shown, by simp [Part.word?, List.append_assoc]⟩
    | lone sign => cases first
    | redirect sign operand =>
      obtain ⟨o, same, done, ⟨⟩⟩ | ⟨_, -, ⟨⟩⟩ := attach_runs first
      rw [bindFile_input] at carried
      refine ⟨o :: openings, .cons done carried, ?_, rfl⟩
      rw [List.filter_cons_of_pos rfl, shown, List.map_cons, same]

/-- A call that fails had all redirections before the first faulty one carried out. -/
theorem foldlM_attach_error
    (ran : (ps.foldlM (attach expand Redirection.add) r).start s = some (.error e, s')) :
    ∃ openings t faulty later, Carried expand r.input.isSome openings s t ∧
      ps.filter Part.isRedirection = openings.map Opening.part ++ faulty :: later ∧
      Faulty expand (r.input.isSome || openings.any Opening.reads) faulty t e s' := by
  induction ps generalizing r s with
  | nil => cases ran
  | cons part ps ih =>
    rw [List.foldlM_cons] at ran
    obtain ⟨_, fails, ⟨⟩⟩ | ⟨r₁, s₁, first, later⟩ := start_bind_eq_some_iff.mp ran
    · -- This part is the faulty one.
      refine ⟨[], s, part, ps.filter Part.isRedirection, .nil, ?_⟩
      rw [List.any_nil, Bool.or_false]
      cases part with
      | word token => cases fails
      | lone sign =>
        cases fails
        exact ⟨rfl, .missing⟩
      | redirect sign operand =>
        obtain ⟨_, -, -, ⟨⟩⟩ | ⟨_, faulty, ⟨⟩⟩ := attach_runs fails
        exact ⟨rfl, faulty⟩
    · obtain ⟨openings, t, faulty, others, carried, shown, fails⟩ := ih later
      cases part with
      | word token =>
        cases first
        exact ⟨openings, t, faulty, others, carried, shown, fails⟩
      | lone sign => cases first
      | redirect sign operand =>
        obtain ⟨o, same, done, ⟨⟩⟩ | ⟨_, -, ⟨⟩⟩ := attach_runs first
        rw [bindFile_input] at carried fails
        refine ⟨o :: openings, t, faulty, others, .cons done carried, ?_, ?_⟩
        · rw [List.filter_cons_of_pos rfl, shown, List.map_cons, same, List.cons_append]
        · rwa [List.any_cons, ← Bool.or_assoc]

/-- Taking out the redirections ends if the expansion of operands does. -/
theorem foldlM_attach_ends (ends : ∀ operand, Ends (expand operand)) (ps : List Part)
    (r : Redirection) : Ends (ps.foldlM (attach expand Redirection.add) r) := by
  induction ps generalizing r with
  | nil => exact .ofExcept _
  | cons part ps ih =>
    rw [List.foldlM_cons]
    refine .bind ?_ ih
    cases part with
    | word token => exact .ofExcept _
    | lone sign => exact .ofExcept _
    | redirect sign operand =>
      exact .bind (ends operand) fun words => .bind (soleName_ends operand words) (add_ends r sign)

/-! What is left of a call. -/

theorem getLast?_filterMap_cons {α β : Type} (f : α → Option β) (a : α) (as : List α)
    (before : Option β) :
    ((a :: as).filterMap f).getLast?.or before =
      (as.filterMap f).getLast?.or ((f a).or before) := by
  cases found : f a with
  | none => rw [List.filterMap_cons_none found, Option.none_or]
  | some b =>
    rw [List.filterMap_cons_some found, Option.some_or, List.getLast?_cons]
    cases (as.filterMap f).getLast? <;> rfl

/-- Of several streams of a kind the last one stays bound. -/
theorem foldl_bindFile (openings : List Opening) (r : Redirection) :
    openings.foldl (fun r o => bindFile r o.sign o.file) r =
      { r with
        input := (openings.filterMap Opening.source?).getLast?.or r.input
        output := (openings.filterMap Opening.sink?).getLast?.or r.output } := by
  induction openings generalizing r with
  | nil => simp
  | cons o openings ih =>
    rw [List.foldl_cons, ih, getLast?_filterMap_cons, getLast?_filterMap_cons]
    rfl

/-- There is one input, if any. -/
theorem Carried.reads_le {bound : Bool} {openings : List Opening} {t : Session}
    (carried : Carried expand bound openings s t) :
    openings.countP Opening.reads ≤ if bound then 0 else 1 := by
  induction carried with
  | nil => exact Nat.zero_le _
  | @cons bound o openings s s₁ t first later ih =>
    rw [List.countP_cons]
    obtain ⟨-, unbound, -⟩ := first
    cases bound <;> cases reads : o.reads <;> simp_all [Opening.reads]

theorem length_sources (openings : List Opening) :
    (openings.filterMap Opening.source?).length = openings.countP Opening.reads := by
  rw [List.length_filterMap_eq_countP]
  refine List.countP_congr fun o _ => ?_
  rcases o with ⟨_ | _ | _, _⟩ <;> simp [Opening.source?, sourceOf, Opening.reads]

/-- The input bound last is the only one opened. -/
theorem Carried.sources {openings : List Opening} {t : Session}
    (carried : Carried expand false openings s t) :
    openings.filterMap Opening.source? = (openings.filterMap Opening.source?).getLast?.toList := by
  have single := length_sources openings ▸ carried.reads_le
  match openings.filterMap Opening.source?, single with
  | [], _ | [_], _ => rfl

/-- The signs of inputs are as many as the inputs opened. -/
theorem count_input {tokens : List String} {openings : List Opening}
    (shown : redirectionsOf tokens = openings.map Opening.part) :
    tokens.count "<" = openings.countP Opening.reads := by
  calc tokens.count "<"
    _ = (parts tokens).countP (Part.sign? · = some .input) := count_sign .input tokens
    _ = (redirectionsOf tokens).countP (Part.sign? · = some .input) := by
      rw [redirectionsOf, List.countP_filter]
      refine List.countP_congr fun part _ => ?_
      cases part <;> simp [Part.sign?, Part.isRedirection, Part.word?]
    _ = openings.countP Opening.reads := by
      rw [shown, List.countP_map]
      refine List.countP_congr fun o _ => ?_
      simp [Part.sign?, Opening.part, Opening.reads]

section Effects

variable (harmless : ∀ operand s result t,
  (expand operand).start s = some (result, t) → t.disk = s.disk)
include harmless

theorem Carried.disk {bound : Bool} {openings : List Opening} {t : Session}
    (carried : Carried expand bound openings s t) :
    t.disk = openings.foldl Opening.after s.disk := by
  induction carried with
  | nil => rfl
  | cons first later ih =>
    obtain ⟨⟨expands, -⟩, -⟩ := first
    rw [ih, List.foldl_cons, ← harmless _ _ _ _ expands]

theorem Faulty.disk {bound : Bool} {faulty : Part} (fails : Faulty expand bound faulty s e s') :
    s'.disk = s.disk := by
  cases fails with
  | missing => rfl
  | unexpanded ran | ambiguous ran | unnamed ran => exact harmless _ _ _ _ ran
  | second names | directory names | unopened names => exact harmless _ _ _ _ names.1

end Effects

/-- Redirections are carried out from left to right, up to the first faulty one if there
is one, and that one's failure is the failure of all. The disk is changed by those
carried out and by nothing else. If all are carried out, what is left is the tokens
without them, the only input if there was one, and the last output. -/
theorem redirections_are_taken_out_in_order (expand : String → Act Failure (List String))
    (harmless : ∀ operand s result t,
      (expand operand).start s = some (result, t) → t.disk = s.disk)
    (tokens : List String) (s : Session) :
    ((∀ operand, Ends (expand operand)) →
        ((Redirection.extract expand tokens).start s).isSome) ∧
      ∀ result s', (Redirection.extract expand tokens).start s = some (result, s') →
        ∃ openings t, Carried expand false openings s t ∧
          t.disk = openings.foldl Opening.after s.disk ∧ s'.disk = t.disk ∧
          match result with
          | .ok r =>
            s' = t ∧ redirectionsOf tokens = openings.map Opening.part ∧
              r.rest = withoutSigns tokens ∧
              (r.input.isSome ↔ tokens.count "<" = 1) ∧
              openings.filterMap Opening.source? = r.input.toList ∧
              r.output = (openings.filterMap Opening.sink?).getLast?
          | .error e =>
            ∃ faulty later,
              redirectionsOf tokens = openings.map Opening.part ++ faulty :: later ∧
              Faulty expand (openings.any Opening.reads) faulty t e s' := by
  rw [extract_eq]
  refine ⟨fun ends => foldlM_attach_ends ends _ _ s, fun result s' ran => ?_⟩
  cases result with
  | error e =>
    obtain ⟨openings, t, faulty, later, carried, shown, fails⟩ := foldlM_attach_error ran
    exact ⟨openings, t, carried, carried.disk harmless, fails.disk harmless, faulty, later,
      shown, fails⟩
  | ok r =>
    obtain ⟨openings, carried, shown, rfl⟩ := foldlM_attach_ok ran
    have complete (sign : Token.Redirect) : .lone sign ∉ parts tokens := by
      intro held
      have shown' : .lone sign ∈ openings.map Opening.part :=
        shown ▸ List.mem_filter.mpr ⟨held, rfl⟩
      obtain ⟨o, -, same⟩ := List.mem_map.mp shown'
      cases same
    rw [foldl_bindFile]
    refine ⟨openings, s', carried, carried.disk harmless, rfl, rfl, shown,
      wordsOf_eq tokens complete, ?_, ?_, ?_⟩
    · have counted := (count_input shown).trans (length_sources openings).symm
      rw [counted, carried.sources]
      cases (openings.filterMap Opening.source?).getLast? <;> simp
    · simpa using carried.sources
    · simp

/-- An old file, one that is missing, and a new one, to be written, read and written. -/
def crossed : List String := ["cat", ">", "f", "<", "missing", ">", "new"]

/-- A session with one file. -/
def stocked : Session :=
  { disk := { entries := [(["f"], .file 0)], contents := [Text.bytes "x"] } }

/-- A missing input keeps the target before it emptied, and the one after it unmade. -/
theorem missing_input_stops_between_targets :
    ∃ (s' t : Session) (openings : List Opening) (faulty : Part) (later : List Part),
      (Redirection.extract (fun token => pure [token]) crossed).start stocked =
        some (.error (.redirect (.notFound "missing")), s') ∧
      s'.disk = { entries := [(["f"], .file 0)], contents := [[]] } ∧
      s'.disk = openings.foldl Opening.after stocked.disk ∧
      redirectionsOf crossed = openings.map Opening.part ++ faulty :: later ∧
      Faulty (fun token => pure [token]) (openings.any Opening.reads) faulty t
        (.redirect (.notFound "missing")) s' := by
  have harmless (operand : String) (s : Session) (result : Except Failure (List String))
      (t : Session) (ran : Act.start (pure [operand]) s = some (result, t)) :
      t.disk = s.disk := by
    cases ran
    rfl
  have ran : (Redirection.extract (fun token => pure [token]) crossed).start stocked =
      some (.error (.redirect (.notFound "missing")),
        { stocked with disk := { entries := [(["f"], .file 0)], contents := [[]] } }) := rfl
  obtain ⟨openings, t, -, effects, kept, faulty, later, shown, fails⟩ :=
    (redirections_are_taken_out_in_order (fun token => pure [token]) harmless crossed stocked).2
      _ _ ran
  exact ⟨_, t, openings, faulty, later, ran, rfl, kept.trans effects, shown, fails⟩

end LineShell.TakenRedirections
