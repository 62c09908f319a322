import EntityModel.Graph
import EntityModel.Settings

/-!
# Checking properties

Property names are distinct within a class, fields are of declared domains, and the label of a class is
one of its properties. A field whose domain has no persisted type is a warning: it is an error only when
its type is asked for. Main definition: `Graph.propertyDiagnostics`.
-/

namespace EntityModel.Graph

/-- The properties of a class that have the name of an earlier one. -/
def repeatedNames (seen : List String) : List (Spanned Property) → List (Spanned Property)
  | [] => []
  | property :: rest =>
    if seen.contains property.value.name then property :: repeatedNames seen rest
    else repeatedNames (property.value.name :: seen) rest

/-- The problems of a class with names that two properties have. -/
def nameDiagnostics (g : Graph) (node : Node) : List Diagnostic :=
  (repeatedNames [] node.properties).map fun property =>
    g.propertyDiagnostic node property .duplicateProperty
      s!"class '{node.name}' has two properties named '{property.value.name}'"

/-- Whether a field of a domain is a generated identifier: a primary key of the identifier domain. -/
def isIdentity (settings : Settings) (field : Property.Field) (domain : Domain) : Bool :=
  field.primaryKey && domain.name == settings.identifierDomain

/-- The problems of a property with its domain. Only fields name their domain themselves. -/
def domainDiagnostics (settings : Settings) (g : Graph) (node : Node)
    (property : Spanned Property) : List Diagnostic :=
  match property.value with
  | .field field => match g.domain? field.domain with
    | none => [g.propertyDiagnostic node property .unknownDomain
        s!"field '{node.name}.{field.name}' uses undeclared domain '{field.domain}'"]
    | some domain =>
      if isIdentity settings field domain || node.declared.isAbstract
          || domain.hasMapping settings.persistedTarget then []
      else [g.propertyDiagnostic node property .unmappedDomain <|
        s!"domain '{domain.name}' of '{node.name}.{field.name}' "
          ++ s!"has no '{settings.persistedTarget}' mapping"]
  | _ => []

/-- The problem of a class whose label is none of its properties. -/
def labelDiagnostics (g : Graph) (node : Node) : List Diagnostic :=
  match node.declared.label with
  | none => []
  | some ⟨name, span⟩ =>
    if (node.property? name).isSome then []
    else [g.fieldDiagnostic node .unknownProperty span name
      s!"label property '{name}' of class '{node.name}' is not a property"]

def propertyDiagnostics (settings : Settings) (g : Graph) : List Diagnostic :=
  g.nodes.flatMap fun node =>
    g.nameDiagnostics node
      ++ node.properties.flatMap (domainDiagnostics settings g node)
      ++ g.labelDiagnostics node

end EntityModel.Graph
