import LineShell.Config.Settings
import LineShell.Proofs.ConfinedRuns

/-! The applications that the settings enable. An overlay takes names from the list,
adds each new one once at its end, or replaces the whole list; names that are no
application's do not matter. No other application runs, however deep a call of it
stands in a line. -/
namespace LineShell.EnabledApplications
open StepAgreement EvaluationAgreement CallDispatch ConfinedRuns

/-! The list of enabled names. -/

section Lists

variable {names : List String} {name : String}

theorem prefix_addNames (names added : List String) : names <+: Config.addNames names added := by
  induction added generalizing names with
  | nil => exact List.prefix_rfl
  | cons first added ih =>
    rw [Config.addNames, List.foldl_cons]
    split
    · exact ih names
    · exact (List.prefix_append names [first]).trans (ih _)

theorem mem_addNames {added : List String} :
    name ∈ Config.addNames names added ↔ name ∈ names ∨ name ∈ added := by
  induction added generalizing names with
  | nil => simp [Config.addNames]
  | cons first added ih =>
    rw [Config.addNames, List.foldl_cons]
    split
    · rename_i held
      have known : first ∈ names := by simpa using held
      refine ih.trans ?_
      rw [List.mem_cons]
      constructor
      · exact Or.imp_right .inr
      · rintro (member | rfl | member)
        · exact .inl member
        · exact .inl known
        · exact .inr member
    · refine ih.trans ?_
      simp [or_assoc]

/-- A name is added once. -/
theorem nodup_addNames (nodup : names.Nodup) (added : List String) :
    (Config.addNames names added).Nodup := by
  induction added generalizing names with
  | nil => exact nodup
  | cons first added ih =>
    rw [Config.addNames, List.foldl_cons]
    split
    · exact ih nodup
    · rename_i unknown
      have fresh : first ∉ names := by simpa using unknown
      refine ih (List.nodup_append.mpr ⟨nodup, by simp, ?_⟩)
      rintro other held _ here rfl
      rw [List.mem_singleton.mp here] at held
      exact fresh held

end Lists

/-- An overlay enables a name. -/
def Enabled (o : Overlay) (name : String) : Prop :=
  if o.replace then name ∈ o.enabled
  else (name ∈ ({} : Config).enabled ∧ name ∉ o.removed) ∨ name ∈ o.enabled

theorem mem_enabled {o : Overlay} {name : String} :
    name ∈ (({} : Config).apply o).enabled ↔ Enabled o name := by
  unfold Enabled Config.apply
  split
  · rfl
  · rw [mem_addNames]
    simp

/-! The applications of a shell. -/

section Shells

variable {c : Config} {sh : Shell} {name : String}

/-- The names of the applications that a shell runs. -/
def namesOf (sh : Shell) : List String := sh.applications.map Application.name

theorem ofName?_isSome :
    (Application.ofName? name).isSome ↔ ∃ app, Application.name app = name := by
  constructor
  · intro found
    obtain ⟨app, found⟩ := Option.isSome_iff_exists.mp found
    exact ⟨app, by simpa using List.find?_some found⟩
  · rintro ⟨app, rfl⟩
    rw [Application.ofName?_name]
    rfl

theorem name_injective : Function.Injective Application.name := by
  intro app other same
  have found := Application.ofName?_name app
  rw [same, Application.ofName?_name] at found
  exact (Option.some.inj found).symm

theorem mem_namesOf_config :
    name ∈ namesOf c.shell ↔ (Application.ofName? name).isSome ∧ name ∈ c.enabled := by
  simp only [namesOf, Config.shell, Config.applications, List.mem_map, List.mem_filter,
    List.contains_eq_mem, decide_eq_true_eq, ofName?_isSome]
  constructor
  · rintro ⟨app, ⟨-, enabled⟩, rfl⟩
    exact ⟨⟨app, rfl⟩, enabled⟩
  · rintro ⟨⟨app, rfl⟩, enabled⟩
    exact ⟨app, ⟨Application.mem_all app, enabled⟩, rfl⟩

/-- Names in order are each there once. -/
theorem nodup_of_sorted {names : List String} (sorted : names.Pairwise (· < ·)) : names.Nodup := by
  refine sorted.imp fun {first second} less same => ?_
  rw [same] at less
  exact String.lt_irrefl second less

theorem sorted_namesOf (c : Config) : (namesOf c.shell).Pairwise (· < ·) := by
  have all : (Application.all.map Application.name).Pairwise (· < ·) := by decide
  exact all.sublist (List.filter_sublist.map Application.name)

theorem find?_eq_none (unknown : name ∉ namesOf sh) : sh.find? name = none := by
  cases found : sh.find? name with
  | none => rfl
  | some app =>
    exact absurd (List.mem_map.mpr ⟨app, find?_mem found, name_of_find? found⟩) unknown

/-- A call of an application that the shell does not have fails as soon as its words
are known. -/
theorem call_of_unknown {run : Substitution} {call : Call} {s s₁ s₂ : Session} {r : Redirection}
    {args : List String}
    (taken : (Redirection.extract (Word.expand run Shell.glob) call.tokens).start s =
      some (.ok r, s₁))
    (expanded : (Word.expandAll run Shell.glob r.rest).start s₁ = some (.ok (name :: args), s₂))
    (unknown : name ∉ namesOf sh) :
    (sh.call run call).start s = some (.error (.commandNotFound name), s₂) := by
  simp only [Shell.call, start_bind, taken, expanded, find?_eq_none unknown]
  rfl

end Shells

/-- Where `cd` is not enabled, every line leaves the session in its directory. -/
theorem cwd_of_disabled_cd {c : Config} (disabled : "cd" ∉ c.enabled) {line : String}
    {s s' : Session} {result : Except Failure Outcome}
    (ran : (c.shell.evaluateLine line).start s = some (result, s')) : s'.cwd = s.cwd := by
  refine (evaluateLine_confined c.shell line).cwd (fun member => ?_) ran
  have named : "cd" ∈ namesOf c.shell := List.mem_map_of_mem member
  exact disabled (mem_namesOf_config.mp named).2

/-- The names of a shell are the enabled ones that are an application's, each once and
in order. They were enabled by the overlay alone, or are those that it left, in their
order, and after them those that it added, each once. A call whose first word is no
such name, in whatever line or substitution, fails with that name and does nothing
once its words are known; and a line runs no application that has no such name. -/
theorem only_enabled_applications_run (o : Overlay) :
    let c := ({} : Config).apply o
    let names := namesOf c.shell
    let survivors := ({} : Config).enabled.filter (· ∉ o.removed)
    (∀ name, name ∈ names ↔ (Application.ofName? name).isSome ∧ Enabled o name) ∧
      names.Pairwise (· < ·) ∧ names.Nodup ∧
      (o.replace = true → c.enabled = o.enabled) ∧
      (o.replace = false → c.enabled.Nodup ∧ survivors <+: c.enabled ∧
        ∀ name, name ∈ c.enabled ↔ name ∈ survivors ∨ name ∈ o.enabled) ∧
      (∀ run call s r s₁ name args s₂,
        (Redirection.extract (Word.expand run Shell.glob) call.tokens).start s =
            some (.ok r, s₁) →
          (Word.expandAll run Shell.glob r.rest).start s₁ = some (.ok (name :: args), s₂) →
          name ∉ names →
          (c.shell.call run call).start s = some (.error (.commandNotFound name), s₂)) ∧
      ∀ line, Confined (·.name ∈ names) (c.shell.evaluateLine line) := by
  intro c names survivors
  have sorted := sorted_namesOf c
  have survive : survivors = ({} : Config).enabled.filter (!o.removed.contains ·) :=
    List.filter_congr fun name _ => by simp
  refine ⟨fun name => ?_, sorted, ?_, fun replaced => ?_, fun merged => ?_, ?_, fun line => ?_⟩
  · exact mem_namesOf_config.trans (and_congr_right fun _ => mem_enabled)
  · exact nodup_of_sorted sorted
  · simp only [c, Config.apply, replaced, if_true]
  · have enabled : c.enabled = Config.addNames survivors o.enabled := by
      simp only [c, Config.apply, merged, Bool.false_eq_true, if_false, survive]
    have distinct : survivors.Nodup := List.Pairwise.filter _ (by decide)
    rw [enabled]
    exact ⟨nodup_addNames distinct _, prefix_addNames _ _, fun _ => mem_addNames⟩
  · intro run call s r s₁ name args s₂ taken expanded unknown
    exact call_of_unknown taken expanded unknown
  · have same : (fun app : Application => app.name ∈ names) = (· ∈ c.shell.applications) :=
      funext fun app => propext (List.mem_map_of_injective name_injective)
    rw [same]
    exact evaluateLine_confined c.shell line

/-- Two names are removed, of which one is added again, twice, and one that is no
application's is added. -/
def trimmed : Overlay := { removed := ["cd", "rm"], enabled := ["rm", "nope", "rm"] }

/-- A removed application is not found, and no line leaves the directory. -/
theorem removed_cd_is_not_found :
    let c := ({} : Config).apply trimmed
    ("rm" ∈ namesOf c.shell ∧ "cd" ∉ namesOf c.shell ∧ "nope" ∉ namesOf c.shell) ∧
      c.enabled.Nodup ∧
      (c.shell.call (c.shell.substitute c.shell.levels) ⟨["cd", "/"]⟩).start {} =
        some (.error (.commandNotFound "cd"), {}) := by
  intro c
  obtain ⟨names, -, -, -, merged, fails, -⟩ := only_enabled_applications_run trimmed
  have unknown : "cd" ∉ namesOf c.shell := by
    rw [names]
    simp [Enabled, trimmed]
  refine ⟨⟨?_, unknown, ?_⟩, (merged rfl).1, ?_⟩
  · rw [names]
    exact ⟨rfl, .inr (by simp [trimmed])⟩
  · rw [names]
    exact fun known => absurd known.1 (by decide)
  · exact fails _ ⟨["cd", "/"]⟩ {} { rest := ["cd", "/"] } {} "cd" ["/"] {} rfl rfl unknown

end LineShell.EnabledApplications
