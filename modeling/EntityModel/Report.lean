import EntityModel.Report.Document
import EntityModel.Report.Tabular

/-!
# Reports

Everything that is shown of a model, as tables or as JSON.
-/

namespace EntityModel

inductive ReportFormat where
  | table
  | json
deriving DecidableEq

/-- The document of a property summary, its members in alphabetical order. -/
def PropertySummary.document (p : PropertySummary) : Json :=
  .object [("client_type", .ofText? p.clientType), ("domain", .ofText? p.domain),
    ("kind", .string p.kind), ("name", .string p.name), ("persisted_name", .ofText? p.column),
    ("persisted_type", .ofText? p.persistedType), ("primary_key", .bool p.primaryKey),
    ("required", .bool p.required), ("target", .ofText? p.target)]

namespace ReportFormat

def text : ReportFormat → String
  | table => "table"
  | json => "json"

/-- Diagnostics in the order they are found. -/
def diagnostics : ReportFormat → List Diagnostic → String
  | table, ds => Diagnostic.tabular ds
  | json, ds => (Json.array (ds.map Diagnostic.document)).pretty

/-- The classes of a model; as JSON, the whole model. -/
def classes : ReportFormat → Model → String
  | table, m => m.tabularClasses
  | json, m => m.document.pretty

def properties : ReportFormat → String → List PropertySummary → String
  | table, klass, ps => PropertySummary.tabular klass ps
  | json, klass, ps =>
    (Json.object [("class", .string klass),
      ("properties", .array (ps.map PropertySummary.document))]).pretty

def rows : ReportFormat → Class → String
  | table, c => c.tabularRows
  | json, c =>
    (Json.object [("class", .string c.name), ("rows", .array (c.rows.map Row.document))]).pretty

def domains : ReportFormat → Model → String
  | table, m => m.tabularDomains
  | json, m => (Json.array (m.domains.values.map Domain.document)).pretty

def projection : ReportFormat → String → String → String → String
  | table, subject, target, type => s!"{subject} [{target}] = {type}"
  | json, subject, target, type =>
    (Json.object [("subject", .string subject), ("target", .string target),
      ("type", .string type)]).compact

def error : ReportFormat → String → String
  | table, message => s!"Error: {message}"
  | json, message => (Json.object [("error", .string message)]).compact

end ReportFormat

end EntityModel
