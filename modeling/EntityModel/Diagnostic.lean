import EntityModel.FileId
import EntityModel.Span

/-!
# Diagnostics

Problems found in classes and properties. A run collects them all; an error keeps its model from being
published, a warning does not.
-/

namespace EntityModel

inductive Severity where
  | warning
  | error
deriving DecidableEq

def Severity.text : Severity → String
  | warning => "warning"
  | error => "error"

inductive DiagnosticKind where
  | badAliasFormat
  | aliasTargetNotFound
  | conflictingAlias
  | unresolvedReference
  | undeclaredDependency
  | unknownDomain
  | unmappedDomain
  | duplicateProperty
  | unknownProperty
  | missingPrimaryKey
  | duplicatePrimaryKey
  | referenceCycle
  | missingEnumerationValue
  | unknownEnumerationField
  | duplicateEnumerationRow
  | unexpectedRows
deriving DecidableEq

namespace DiagnosticKind

def all : List DiagnosticKind :=
  [.badAliasFormat, .aliasTargetNotFound, .conflictingAlias, .unresolvedReference,
    .undeclaredDependency, .unknownDomain, .unmappedDomain, .duplicateProperty, .unknownProperty,
    .missingPrimaryKey, .duplicatePrimaryKey, .referenceCycle, .missingEnumerationValue,
    .unknownEnumerationField, .duplicateEnumerationRow, .unexpectedRows]

def text : DiagnosticKind → String
  | badAliasFormat => "BadAliasFormat"
  | aliasTargetNotFound => "AliasTargetNotFound"
  | conflictingAlias => "ConflictingAlias"
  | unresolvedReference => "UnresolvedReference"
  | undeclaredDependency => "UndeclaredDependency"
  | unknownDomain => "UnknownDomain"
  | unmappedDomain => "UnmappedDomain"
  | duplicateProperty => "DuplicateProperty"
  | unknownProperty => "UnknownProperty"
  | missingPrimaryKey => "MissingPrimaryKey"
  | duplicatePrimaryKey => "DuplicatePrimaryKey"
  | referenceCycle => "ReferenceCycle"
  | missingEnumerationValue => "MissingEnumerationValue"
  | unknownEnumerationField => "UnknownEnumerationField"
  | duplicateEnumerationRow => "DuplicateEnumerationRow"
  | unexpectedRows => "UnexpectedRows"

/-- Only a missing mapping is a warning: it is an error later if its type is asked for. -/
def severity : DiagnosticKind → Severity
  | unmappedDomain => .warning
  | _ => .error

end DiagnosticKind

/-- A problem, the class and property it belongs to, and where they are written. -/
structure Diagnostic where
  kind : DiagnosticKind
  message : String
  file : FileId
  klass : Option String := none
  field : Option String := none
  location : Option Location := none
deriving DecidableEq

namespace Diagnostic

def severity (d : Diagnostic) : Severity := d.kind.severity

/-- Whether the problem keeps a model from being published. -/
def isError (d : Diagnostic) : Bool := d.severity == .error

/-- The file and, if known, the location. -/
def placeText (d : Diagnostic) : String :=
  match d.location with
  | some location => s!"{d.file.text}:{location.text}"
  | none => d.file.text

/-- A problem on one line. -/
def text (d : Diagnostic) : String :=
  s!"{d.placeText}: {d.severity.text} [{d.kind.text}]: {d.message}"

def errors (ds : List Diagnostic) : List Diagnostic := ds.filter isError

def warnings (ds : List Diagnostic) : List Diagnostic := ds.filter (!·.isError)

def ofKind (kind : DiagnosticKind) (ds : List Diagnostic) : List Diagnostic :=
  ds.filter (·.kind == kind)

def hasErrors (ds : List Diagnostic) : Bool := ds.any isError

/-- Takes the steps of a list one after the other, and collects the problems that they find. -/
def collect {σ α : Type} (step : σ → α → σ × List Diagnostic) (state : σ) :
    List α → σ × List Diagnostic
  | [] => (state, [])
  | item :: items =>
    let (state, found) := step state item
    let (state, later) := collect step state items
    (state, found ++ later)

end Diagnostic

end EntityModel
