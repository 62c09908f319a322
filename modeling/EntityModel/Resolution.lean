import EntityModel.Graph.Aliases
import EntityModel.Graph.Binding
import EntityModel.Graph.Cycles
import EntityModel.Graph.ForeignKeys
import EntityModel.Graph.Keys
import EntityModel.Graph.Properties
import EntityModel.Graph.Rows
import EntityModel.LoadOrder
import EntityModel.Model
import EntityModel.ParseCache

/-!
# Resolving a model

A run orders the files, binds their names, expands aliases, binds foreign keys, and checks the result. A
fault ends it; other problems are collected, and a model is made unless one of them is an error.
-/

namespace EntityModel

/-- How a run, or a store after it, stands. -/
inductive Stage where
  | unloaded
  | validated
  | published
  | failed
deriving DecidableEq

def Stage.text : Stage → String
  | unloaded => "Unloaded"
  | validated => "Validated"
  | published => "Published"
  | failed => "Failed"

/-- What a run without a fault comes to: its problems in the order they are found, and the model unless
one of them is an error. -/
structure Resolution where
  model : Option Model
  diagnostics : List Diagnostic
deriving DecidableEq

/-- The model that a graph is published as. -/
def Graph.toModel (g : Graph) (version : Nat) (settings : Settings) (warnings : List Diagnostic) :
    Model where
  version := version
  settings := settings
  files := g.scopes.reverse.map (·.file.id)
  classes := g.nodes.map Node.toClass
  domains := ⟨g.domains.entries.map fun (name, entry) => (name, entry.domain)⟩
  warnings := warnings

/-- The problems that checks find in a graph, in the order of the checks. -/
def Graph.checkDiagnostics (settings : Settings) (g : Graph) : List Diagnostic :=
  g.propertyDiagnostics settings ++ g.primaryKeyDiagnostics ++ g.cycleDiagnostics
    ++ g.rowDiagnostics settings

namespace Resolution

/-- Resolves a graph whose names are bound, given the problems found until then. -/
def ofGraph (settings : Settings) (version : Nat) (g : Graph) (bindProblems : List Diagnostic) :
    Except Fault Resolution := do
  let (g, aliasProblems) := g.expandAliases settings
  let (g, keyProblems) := g.bindForeignKeys settings
  g.checkUniqueKeys
  let diagnostics := bindProblems ++ aliasProblems ++ keyProblems ++ g.checkDiagnostics settings
  let model := g.toModel version settings (Diagnostic.warnings diagnostics)
  return ⟨if Diagnostic.hasErrors diagnostics then none else some model, diagnostics⟩

def ofFiles (settings : Settings) (version : Nat) (files : List LoadedFile) :
    Except Fault Resolution := do
  let files ← LoadOrder.order files
  let (g, problems) ← Graph.bind files
  ofGraph settings version g problems

/-- Reads and resolves the files of some sources. -/
def run (sources : Sources) (settings : Settings) (changed : Option (List FileId)) (version : Nat)
    (cache : ParseCache) : ParseCache × Except Fault Resolution :=
  match settings.validate with
  | .error fault => (cache, .error fault)
  | .ok () =>
    let (cache, files) := cache.readAll sources settings changed
    (cache, files.bind (ofFiles settings version))

/-- The stage that a run ends in. -/
def stage : Except Fault Resolution → Stage
  | .ok ⟨some _, _⟩ => .validated
  | _ => .failed

end Resolution

end EntityModel
