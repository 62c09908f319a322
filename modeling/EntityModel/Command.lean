import EntityModel.Report
import EntityModel.Store

/-!
# Commands

What can be asked about a model. A command resolves the model first; all but the check of it need a
model that is published.
-/

namespace EntityModel

inductive Command where
  | check
  | classes
  | describe (klass : String)
  | rows (klass : String)
  | domains
  | project (subject target : String)
deriving DecidableEq

inductive CommandError where
  | fault (fault : Fault)
  | rejected (errors : Nat)
  | unknownClass (name : String)
  | projection (error : ProjectionError)
deriving DecidableEq

def CommandError.message : CommandError → String
  | fault f => f.message
  | rejected errors => s!"model has {errors} error(s)"
  | unknownClass name => s!"unknown class '{name}'"
  | projection error => error.message

/-- The text that a command prints, and whether it succeeds. -/
structure CommandOutput where
  text : String
  success : Bool
deriving DecidableEq

namespace Model

def namedClass (m : Model) (name : String) : Except CommandError Class :=
  match m.class? name with
  | some c => .ok c
  | none => .error (.unknownClass name)

/-- The type of a domain, or of a property written `Class.Property`, cut at the first point. -/
def projectSubject (m : Model) (subject target : String) : Except ProjectionError String :=
  match subject.toList.span (· != '.') with
  | (klass, _ :: property) =>
    m.projectProperty (String.ofList klass) (String.ofList property) target
  | (_, []) => m.projectDomain subject target

/-- Answers a command from a published model. -/
def answer (m : Model) (format : ReportFormat) : Command → Except CommandError String
  | .check => .ok (format.diagnostics m.warnings)
  | .classes => .ok (format.classes m)
  | .describe klass => do
    let c ← m.namedClass klass
    return format.properties c.name (m.summaries c)
  | .rows klass => do
    let c ← m.namedClass klass
    return format.rows c
  | .domains => .ok (format.domains m)
  | .project subject target => match m.projectSubject subject target with
    | .ok type => .ok (format.projection subject target type)
    | .error error => .error (.projection error)

end Model

/-- Resolves the model of a store and carries out a command on it. -/
def Command.execute (command : Command) (format : ReportFormat) (store : Store) (sources : Sources) :
    Store × Except CommandError CommandOutput :=
  match store.reload sources with
  | (store, .error fault) => (store, .error (.fault fault))
  | (store, .ok outcome) =>
    if command = .check then
      let success := match outcome with
        | .published _ _ => true
        | .rejected _ => false
      (store, .ok ⟨format.diagnostics store.diagnostics, success⟩)
    else match outcome, store.current with
      | .rejected errors, _ => (store, .error (.rejected errors))
      | .published _ _, none => (store, .error (.rejected 0))
      | .published _ _, some model => (store, (model.answer format command).map (⟨·, true⟩))

end EntityModel
