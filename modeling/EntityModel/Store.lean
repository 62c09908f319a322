import EntityModel.Resolution

/-!
# The store of the published model

A store keeps the model of the last run that published one, and how the last run ended. A run that is
rejected or fails leaves the model as it is. Main definitions: `Store.reload`, `Store.reloadChanged`.
-/

namespace EntityModel

/-- What a run of a store without a fault comes to. -/
inductive Outcome where
  | published (version warnings : Nat)
  | rejected (errors : Nat)
deriving DecidableEq

/-- A store: the version and model published last, the problems, fault text and stage of the last run,
and the files parsed so far. -/
structure Store where
  settings : Settings
  version : Nat := 0
  current : Option Model := none
  diagnostics : List Diagnostic := []
  lastError : Option String := none
  stage : Stage := .unloaded
  cache : ParseCache := {}
deriving DecidableEq

namespace Store

/-- A store for valid settings that has not run yet. -/
def create (settings : Settings) : Except Fault Store :=
  settings.validate.map fun _ => { settings }

/-- The store after a run that failed. The files that were to be read anew are forgotten: the run may
have ended before it came to them. -/
def failed (store : Store) (cache : ParseCache) (changed : Option (List FileId)) (fault : Fault) :
    Store :=
  { store with
    diagnostics := []
    lastError := some fault.message
    stage := .failed
    cache := (changed.getD []).foldl ParseCache.invalidate cache }

/-- The store after a run that made a model of the next version. -/
def published (store : Store) (cache : ParseCache) (model : Model) (diagnostics : List Diagnostic) :
    Store :=
  { store with
    version := store.version + 1
    current := some model
    diagnostics := diagnostics
    lastError := none
    stage := .published
    cache := cache }

/-- The store after a run whose problems keep its model from being published. -/
def rejected (store : Store) (cache : ParseCache) (diagnostics : List Diagnostic) : Store :=
  { store with
    diagnostics := diagnostics
    lastError := none
    stage := .failed
    cache := cache }

/-- Runs once. With `changed`, other files are not read again. -/
def run (store : Store) (sources : Sources) (changed : Option (List FileId)) :
    Store × Except Fault Outcome :=
  match Resolution.run sources store.settings changed (store.version + 1) store.cache with
  | (cache, .error fault) => (store.failed cache changed fault, .error fault)
  | (cache, .ok ⟨some model, diagnostics⟩) =>
    (store.published cache model diagnostics,
      .ok (.published (store.version + 1) model.warnings.length))
  | (cache, .ok ⟨none, diagnostics⟩) =>
    (store.rejected cache diagnostics, .ok (.rejected (Diagnostic.errors diagnostics).length))

/-- Reads and resolves every file. -/
def reload (store : Store) (sources : Sources) : Store × Except Fault Outcome :=
  store.run sources none

/-- Resolves again after a change of some files. -/
def reloadChanged (store : Store) (sources : Sources) (changed : List FileId) :
    Store × Except Fault Outcome :=
  store.run sources (some changed)

/-- A store after its first run, which must not fail. -/
def opened (settings : Settings) (sources : Sources) : Except Fault Store := do
  let (store, outcome) := (← create settings).reload sources
  outcome.map fun _ => store

end Store

end EntityModel
