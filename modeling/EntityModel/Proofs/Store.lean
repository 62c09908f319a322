import EntityModel.Proofs.Published
import EntityModel.Store

/-!
# What a store shows

A store keeps the model that it serves apart from what it says of its last run. `shows_after`: whatever
happens to its sources and whatever its runs are told, the version is that of the model served and the number
of runs that published one, and the diagnostics, the error text and the stage are those of the last run.
-/

namespace EntityModel

namespace Diagnostic

theorem errors_eq_nil_iff {ds : List Diagnostic} : errors ds = [] ↔ hasErrors ds = false := by
  rw [errors, List.filter_eq_nil_iff, hasErrors, List.any_eq_false]

theorem warnings_eq_self {ds : List Diagnostic} (h : hasErrors ds = false) : warnings ds = ds := by
  rw [hasErrors, List.any_eq_false] at h
  refine List.filter_eq_self.mpr fun d hd => ?_
  rw [Bool.eq_false_iff.mpr (h d hd), Bool.not_false]

end Diagnostic

open Diagnostic (errors hasErrors errors_eq_nil_iff warnings_eq_self)

/-! ### Models and their problems -/

namespace Resolution

variable {settings : Settings} {version : Nat} {sources : Sources} {changed : Option (List FileId)}
  {cache : ParseCache}

theorem made_of_run {resolution : Resolution}
    (h : (run sources settings changed version cache).2 = .ok resolution) :
    match resolution.model with
    | some m => m.version = version ∧ m.warnings = resolution.diagnostics ∧ errors resolution.diagnostics = []
    | none => errors resolution.diagnostics ≠ [] := by
  obtain ⟨_, _, g, problems, -, -, -, hgraph⟩ := run_eq_ok h
  obtain ⟨diagnostics, -, rfl⟩ := ofGraph_eq_ok hgraph
  rcases hfound : hasErrors diagnostics with _ | _
  · exact ⟨rfl, warnings_eq_self hfound, errors_eq_nil_iff.mpr hfound⟩
  · have hsome : errors diagnostics ≠ [] := by
      rw [ne_eq, errors_eq_nil_iff, hfound]
      exact Bool.noConfusion
    exact hsome

end Resolution

namespace Store

/-- All that a run can do: it fails, it publishes a model of the next version that says all there is to warn
of, or it finds errors and is rejected. -/
theorem run_cases (store : Store) (sources : Sources) (changed : Option (List FileId)) :
    (∃ cache fault, store.run sources changed = (store.failed cache changed fault, .error fault))
      ∨ (∃ cache m, m.version = store.version + 1 ∧ errors m.warnings = [] ∧
        store.run sources changed = (store.published cache m m.warnings,
          .ok (.published (store.version + 1) m.warnings.length)))
      ∨ ∃ cache diagnostics, errors diagnostics ≠ [] ∧
        store.run sources changed = (store.rejected cache diagnostics,
          .ok (.rejected (errors diagnostics).length)) := by
  unfold Store.run
  rcases hresult : Resolution.run sources store.settings changed (store.version + 1) store.cache with
    ⟨cache, fault | ⟨_ | m, diagnostics⟩⟩
  · exact Or.inl ⟨cache, fault, rfl⟩
  · have hfound := Resolution.made_of_run (congrArg Prod.snd hresult)
    exact Or.inr (Or.inr ⟨cache, diagnostics, hfound, rfl⟩)
  · obtain ⟨hversion, hwarnings, hclean⟩ := Resolution.made_of_run (congrArg Prod.snd hresult)
    subst hwarnings
    exact Or.inr (Or.inl ⟨cache, m, hversion, hclean, rfl⟩)

/-! ### Lives of stores -/

/-- What happens to a store: its sources come to be others, or it runs. -/
inductive Event where
  | edit (sources : Sources)
  | reload
  | reloadChanged (changed : List FileId)

/-- A store with its sources, and how its runs so far have ended, the first one first. -/
structure Life where
  store : Store
  sources : Sources
  endings : List (Except Fault Outcome) := []

namespace Life

/-- The life after a run. -/
def ran (life : Life) (result : Store × Except Fault Outcome) : Life :=
  { life with store := result.1, endings := life.endings ++ [result.2] }

def step (life : Life) : Event → Life
  | .edit sources => { life with sources }
  | .reload => life.ran (life.store.reload life.sources)
  | .reloadChanged changed => life.ran (life.store.reloadChanged life.sources changed)

def after (life : Life) (events : List Event) : Life := events.foldl step life

end Life

/-- Whether a run published a model. -/
def Publishes : Except Fault Outcome → Bool
  | .ok (.published _ _) => true
  | _ => false

/-- What a store says of its last run, if there was one. -/
def Says (store : Store) : Option (Except Fault Outcome) → Prop
  | none => store.stage = .unloaded ∧ store.lastError = none ∧ store.diagnostics = []
  | some (.ok (.published version warnings)) =>
    store.stage = .published ∧ store.lastError = none ∧ errors store.diagnostics = [] ∧ version = store.version
      ∧ ∃ m, store.current = some m ∧ store.diagnostics = m.warnings ∧ warnings = m.warnings.length
  | some (.ok (.rejected count)) =>
    store.stage = .failed ∧ store.lastError = none ∧ (errors store.diagnostics).length = count ∧ 1 ≤ count
  | some (.error fault) =>
    store.stage = .failed ∧ store.lastError = some fault.message ∧ store.diagnostics = []

/-- What a store shows, given how its runs have ended. -/
structure Shows (store : Store) (endings : List (Except Fault Outcome)) : Prop where
  version : store.version = match store.current with
    | some m => m.version
    | none => 0
  count : store.version = endings.countP Publishes
  last : store.Says endings.getLast?

theorem shows_new (settings : Settings) : Shows { settings } [] :=
  ⟨rfl, rfl, rfl, rfl, rfl⟩

variable {store : Store} {endings : List (Except Fault Outcome)}

theorem Shows.concat (hshows : store.Shows endings) {store' : Store} {ending : Except Fault Outcome}
    (hversion : store'.version = match store'.current with
      | some m => m.version
      | none => 0)
    (hcount : store'.version = store.version + if Publishes ending then 1 else 0)
    (hlast : store'.Says (some ending)) : store'.Shows (endings ++ [ending]) where
  version := hversion
  count := by rw [List.countP_append, List.countP_singleton, ← hshows.count, hcount]
  last := by
    rw [List.getLast?_concat]
    exact hlast

theorem Shows.run (hshows : store.Shows endings) (sources : Sources) (changed : Option (List FileId)) :
    (store.run sources changed).1.Shows (endings ++ [(store.run sources changed).2]) := by
  have hversion := hshows.version
  rcases store.run_cases sources changed with
    ⟨cache, fault, hrun⟩ | ⟨cache, m, hm, hclean, hrun⟩ | ⟨cache, diagnostics, hfound, hrun⟩
  · rw [hrun]
    exact hshows.concat hversion rfl ⟨rfl, rfl, rfl⟩
  · rw [hrun]
    exact hshows.concat hm.symm rfl ⟨rfl, rfl, hclean, rfl, m, rfl, rfl, rfl⟩
  · rw [hrun]
    exact hshows.concat hversion rfl ⟨rfl, rfl, rfl, List.length_pos_iff.mpr hfound⟩

theorem Shows.step {life : Life} (hshows : life.store.Shows life.endings) (event : Event) :
    (life.step event).store.Shows (life.step event).endings := by
  cases event with
  | edit sources => exact hshows
  | reload => exact hshows.run life.sources none
  | reloadChanged changed => exact hshows.run life.sources (some changed)

theorem Shows.after {life : Life} (hshows : life.store.Shows life.endings) (events : List Event) :
    (life.after events).store.Shows (life.after events).endings := by
  induction events generalizing life with
  | nil => exact hshows
  | cons event rest ih => exact ih (hshows.step event)

theorem publishes_or_keeps (store : Store) (sources : Sources) (changed : Option (List FileId)) :
    Publishes (store.run sources changed).2 = true
      ∨ (store.run sources changed).1.current = store.current
        ∧ (store.run sources changed).1.version = store.version := by
  rcases store.run_cases sources changed with ⟨_, _, hrun⟩ | ⟨_, _, -, -, hrun⟩ | ⟨_, _, -, hrun⟩
  · rw [hrun]
    exact Or.inr ⟨rfl, rfl⟩
  · rw [hrun]
    exact Or.inl rfl
  · rw [hrun]
    exact Or.inr ⟨rfl, rfl⟩

/-- **What a store shows over whole runs.** After any events the version is that of the model served and the
number of runs that published one, and all else that the store says is of its last run. The next run publishes
a model or leaves what is served as it is. -/
theorem shows_after (settings : Settings) (sources : Sources) (events : List Event) :
    let life := ({ store := { settings }, sources } : Life).after events
    life.store.Shows life.endings
      ∧ ∀ changed, Publishes (life.store.run life.sources changed).2 = true
        ∨ (life.store.run life.sources changed).1.current = life.store.current
          ∧ (life.store.run life.sources changed).1.version = life.store.version := by
  intro life
  have hnew : (⟨{ settings }, sources, []⟩ : Life).store.Shows [] := shows_new settings
  exact ⟨hnew.after events, fun changed => life.store.publishes_or_keeps life.sources changed⟩

end Store

end EntityModel
