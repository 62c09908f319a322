import EntityModel.Report.PropertySummary
import EntityModel.Report.Table

/-!
# Reports as tables

What a model and its diagnostics look like as tables of text. A dash stands for what is absent.
-/

namespace EntityModel

/-- A text, or a dash. -/
def orDash (text : Option String) : String := text.getD "-"

def Stereotype.cellText : Option Stereotype → String
  | none => "-"
  | some .plain => "plain"
  | some .enumeration => "enum"
  | some .reference => "reference"

def Diagnostic.cells (d : Diagnostic) : List String :=
  [d.severity.text, d.kind.text, d.placeText, orDash d.klass, orDash d.field, d.message]

/-- Diagnostics in the order they are found, and their numbers. -/
def Diagnostic.tabular (ds : List Diagnostic) : String :=
  if ds.isEmpty then "No problems found"
  else
    let table : Table :=
      ⟨["Severity", "Kind", "Location", "Class", "Field", "Message"], ds.map Diagnostic.cells⟩
    s!"{table.render}\n{(errors ds).length} error(s), {(warnings ds).length} warning(s)"

def Model.classCells (m : Model) (c : Class) : List String :=
  [c.name, Stereotype.cellText c.stereotype, c.file.text,
    orDash ((m.primaryKey? c).map Property.name), toString c.properties.length,
    toString c.rows.length]

def Model.tabularClasses (m : Model) : String :=
  let table : Table :=
    ⟨["Class", "Stereotype", "File", "Primary key", "Properties", "Rows"],
      m.classes.map m.classCells⟩
  s!"{table.render}\nmodel version {m.version}"

def PropertySummary.cells (p : PropertySummary) : List String :=
  [p.name, p.kind, orDash p.domain, orDash p.column, orDash p.persistedType, orDash p.clientType,
    orDash p.target,
    String.intercalate " " <|
      (if p.primaryKey then ["pk"] else []) ++ if p.required then ["required"] else []]

def PropertySummary.tabular (klass : String) (ps : List PropertySummary) : String :=
  let table : Table :=
    ⟨["Property", "Kind", "Domain", "Column", "Persisted", "Client", "Target", "Flags"],
      ps.map PropertySummary.cells⟩
  s!"{klass}\n{table.render}"

/-- The rows of a class, with a column for each property that has one. A cell is empty where the row
gives no value. -/
def Class.tabularRows (c : Class) : String :=
  if c.rows.isEmpty then s!"{c.name} has no rows"
  else
    let columns := c.persistedProperties.map Property.name
    let cells (row : Row) : List String :=
      row.name :: columns.map fun column => ((row.get? column).map Literal.text).getD ""
    (Table.mk ("Row" :: columns) (c.rows.map cells)).render

def Domain.cells (d : Domain) : List String :=
  [d.name, (d.length.map toString).getD "", (d.scale.map toString).getD "",
    String.intercalate ", " (d.mappings.entries.map fun (target, type) => s!"{target}={type}")]

def Model.tabularDomains (m : Model) : String :=
  (Table.mk ["Domain", "Length", "Scale", "Mappings"] (m.domains.values.map Domain.cells)).render

end EntityModel
