import EntityModel.Graph
import EntityModel.Settings

/-!
# Checking rows

Only enumerations and lists have rows. A row gives a value to every property that needs one, names only
properties of its class, and differs from the rows before it by its name and by its key. Main definition:
`Graph.rowDiagnostics`.
-/

namespace EntityModel.Graph

/-- Whether rows may give no value to a property: a generated identifier, a field with a default, or
something without a column. -/
def mayOmit (settings : Settings) (property : Property) : Bool :=
  (property.isPrimaryKey && property.domain == some settings.identifierDomain)
    || property.default.isSome || !property.isPersisted

/-- The problem of a row whose name an earlier row has. -/
def repeatedRowDiagnostics (g : Graph) (node : Node) (earlier : List Declaration.Row)
    (row : Declaration.Row) : List Diagnostic :=
  if earlier.any (·.name.value == row.name.value) then
    [g.diagnostic node .duplicateEnumerationRow row.span
      s!"class '{node.name}' declares row '{row.name.value}' twice"]
  else []

/-- The problems of a row with values that it lacks. -/
def missingValueDiagnostics (settings : Settings) (g : Graph) (node : Node)
    (row : Declaration.Row) : List Diagnostic :=
  let needed := node.properties.filter fun property =>
    !mayOmit settings property.value && ((Row.ofDeclaration row).get? property.value.name).isNone
  needed.map fun property =>
    g.fieldDiagnostic node .missingEnumerationValue row.span property.value.name
      s!"row '{row.name.value}' of class '{node.name}' has no value for '{property.value.name}'"

/-- The problems of a row with values of no property. -/
def unknownFieldDiagnostics (g : Graph) (node : Node) (row : Declaration.Row) : List Diagnostic :=
  (row.values.filter fun (field, _) => (node.property? field.value).isNone).map fun (field, _) =>
    g.fieldDiagnostic node .unknownEnumerationField field.span field.value
      s!"row '{row.name.value}' of class '{node.name}' sets unknown property '{field.value}'"

/-- The text of the value that a row gives to the key of its class. -/
def keyText? (key : Option Property) (row : Declaration.Row) : Option String :=
  key.bind fun key => ((Row.ofDeclaration row).get? key.name).map Literal.text

/-- The problem of a row whose key value reads as that of an earlier row. -/
def repeatedKeyDiagnostics (g : Graph) (node : Node) (key : Option Property)
    (earlier : List Declaration.Row) (row : Declaration.Row) : List Diagnostic :=
  match keyText? key row with
  | none => []
  | some text =>
    if earlier.any (keyText? key · == some text) then
      [g.diagnostic node .duplicateEnumerationRow row.span
        s!"row '{row.name.value}' of class '{node.name}' repeats key value {text}"]
    else []

/-- The problems of rows that follow `earlier` ones. -/
def rowDiagnosticsAfter (settings : Settings) (g : Graph) (node : Node) (key : Option Property)
    (earlier : List Declaration.Row) : List Declaration.Row → List Diagnostic
  | [] => []
  | row :: rows =>
    g.repeatedRowDiagnostics node earlier row
      ++ missingValueDiagnostics settings g node row
      ++ g.unknownFieldDiagnostics node row
      ++ g.repeatedKeyDiagnostics node key earlier row
      ++ rowDiagnosticsAfter settings g node key (row :: earlier) rows

def classRowDiagnostics (settings : Settings) (g : Graph) (place : Node × Nat) : List Diagnostic :=
  let (node, position) := place
  match node.declared.rows with
  | [] => []
  | first :: _ =>
    if node.toClass.hasRows then
      rowDiagnosticsAfter settings g node (g.rowKey? position) [] node.declared.rows
    else [g.diagnostic node .unexpectedRows first.span
      s!"class '{node.name}' declares rows but is neither an enumeration nor a reference list"]

def rowDiagnostics (settings : Settings) (g : Graph) : List Diagnostic :=
  g.nodes.zipIdx.flatMap (classRowDiagnostics settings g)

end EntityModel.Graph
