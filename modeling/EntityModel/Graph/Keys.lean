import EntityModel.Graph

/-!
# Checking keys

A declared row key names a unique property; a class that does not is a fault. Every class that is
neither abstract nor kept in the database only has exactly one primary key, its own or an inherited one,
and no class has more. Main definitions: `Graph.checkUniqueKeys`, `Graph.primaryKeyDiagnostics`.
-/

namespace EntityModel.Graph

/-- The declared key of a class if it names no unique property. -/
def brokenKey? (node : Node) : Option Fault :=
  node.toClass.uniqueKey.bind fun key =>
    if (node.property? key).any Property.isUnique then none
    else some (.noUniqueKey node.name key node.file)

/-- The first class whose declared key names no unique property is a fault. -/
def checkUniqueKeys (g : Graph) : Except Fault Unit :=
  match g.nodes.findSome? brokenKey? with
  | some fault => .error fault
  | none => .ok ()

/-- The problem of a class with its primary keys. -/
def keyDiagnostics (g : Graph) (node : Node) : List Diagnostic :=
  match node.properties.filter (·.value.isPrimaryKey), g.inheritedKey? node with
  | _ :: second :: _, _ => [g.propertyDiagnostic node second .duplicatePrimaryKey
      s!"class '{node.name}' declares more than one primary key"]
  | [own], some (position, _) =>
    let owner := (g.nodes[position]?.map Node.name).getD ""
    [g.propertyDiagnostic node own .duplicatePrimaryKey
      s!"class '{node.name}' redeclares the primary key inherited from '{owner}'"]
  | [], none =>
    if node.declared.isAbstract || node.declared.databaseOnly then []
    else [g.diagnostic node .missingPrimaryKey node.declared.name.span
      s!"class '{node.name}' has no primary key"]
  | _, _ => []

def primaryKeyDiagnostics (g : Graph) : List Diagnostic := g.nodes.flatMap g.keyDiagnostics

end EntityModel.Graph
