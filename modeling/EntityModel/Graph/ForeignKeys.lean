import EntityModel.ForeignKey
import EntityModel.Graph

/-!
# Binding foreign keys

Every association, and every alias that leads to another class, takes its domain, its column and its
reference from the key of that class. Compositions are only looked up. Main definition:
`Graph.bindForeignKeys`.
-/

namespace EntityModel

/-- What a property takes from the key of the class it leads to. -/
structure KeyBinding where
  domain : String
  column : String
  reference : Reference
  accessor : String
deriving DecidableEq

/-- The binding to a key of the class `target`, if the key has a domain and a column. -/
def KeyBinding.toKey? (settings : Settings) (target : Class) (key : Property)
    (role : Option String) : Option KeyBinding := do
  let domain ← key.domain
  let column ← key.column
  return {
    domain
    column := ForeignKey.column column role
    reference := ⟨target.name, key.name, ForeignKey.clientType target key settings⟩
    accessor := ForeignKey.accessor target key role }

/-- A property with its binding. An alias that has a domain already takes the reference only. -/
def Property.bound (binding : KeyBinding) : Property → Property
  | .association p => .association { p with
      domain := some binding.domain
      column := some binding.column
      reference := some binding.reference
      accessor := some binding.accessor }
  | .alias p =>
    if p.domain.isSome then .alias { p with reference := some binding.reference }
    else .alias { p with
      domain := some binding.domain
      column := some (Naming.affixColumn binding.column p.before p.after)
      reference := some binding.reference }
  | p => p

/-- The class that a property leads to, by its key or as a part. -/
def Property.target? : Property → Option String
  | .composition p => some p.target
  | p => p.linkedClass

namespace Graph

/-- The key of the class at `target` that a property is bound to: the primary key, but for an alias that
copies a field the property of that name. -/
def boundKey? (g : Graph) (target : Nat) (property : Property) : Option Property :=
  match property with
  | .alias p =>
    if p.domain.isSome then g.nodes[target]?.bind (·.property? p.source.property)
    else (g.primaryKey? target).map Prod.snd
  | _ => (g.primaryKey? target).map Prod.snd

/-- The binding of a property of the class `node` to the class at `position`, or the problem with it. -/
def binding? (settings : Settings) (g : Graph) (node : Node) (property : Spanned Property)
    (position : Nat) (target : Node) : Option KeyBinding × List Diagnostic :=
  let problem (message : String) : Option KeyBinding × List Diagnostic :=
    (none, [g.propertyDiagnostic node property .unresolvedReference message])
  let name := property.value.name
  match g.boundKey? position property.value with
  | none => problem s!"property '{node.name}.{name}' references '{target.name}' which has no primary key"
  | some key => match KeyBinding.toKey? settings target.toClass key property.value.role with
    | none => problem <|
        s!"property '{node.name}.{name}' references key '{target.name}.{key.name}' "
          ++ "which has no column"
    | some binding => (some binding, [])

/-- The problem of a property that leads to a class of a file that its own file does not use. -/
def visibilityDiagnostics (g : Graph) (node : Node) (property : Spanned Property) (target : Node) :
    List Diagnostic :=
  if g.isVisible node.file target.file then []
  else [g.propertyDiagnostic node property .undeclaredDependency <|
    s!"property '{node.name}.{property.value.name}' references '{target.name}' "
      ++ s!"from {target.file.text} which its file does not use"]

/-- A property of the class `node` after binding, with the problems found. -/
def boundProperty (settings : Settings) (g : Graph) (node : Node) (property : Spanned Property) :
    Property × List Diagnostic :=
  match property.value.target? with
  | none => (property.value, [])
  | some name => match g.position? name, g.node? name with
    | some position, some target =>
      let hidden := g.visibilityDiagnostics node property target
      match property.value with
      | .composition _ => (property.value, hidden)
      | _ =>
        let (binding, problems) := g.binding? settings node property position target
        ((binding.map (property.value.bound ·)).getD property.value, hidden ++ problems)
    | _, _ => (property.value, [g.propertyDiagnostic node property .unresolvedReference
        s!"property '{node.name}.{property.value.name}' references undeclared class '{name}'"])

def bindProperty (settings : Settings) (g : Graph) (place : PropertyPosition) :
    Graph × List Diagnostic :=
  match g.nodes[place.owner]? with
  | none => (g, [])
  | some node => match node.properties[place.index]? with
    | none => (g, [])
    | some property =>
      let (bound, problems) := g.boundProperty settings node property
      let properties := node.properties.set place.index { property with value := bound }
      ({ g with nodes := g.nodes.set place.owner { node with properties } }, problems)

/-- The positions of all properties, class by class. -/
def propertyPositions (g : Graph) : List PropertyPosition :=
  g.nodes.zipIdx.flatMap fun (node, owner) =>
    (List.range node.properties.length).map (PropertyPosition.mk owner)

/-- Binds all properties in the order of classes and declarations. -/
def bindForeignKeys (settings : Settings) (g : Graph) : Graph × List Diagnostic :=
  Diagnostic.collect (bindProperty settings) g g.propertyPositions

end Graph

end EntityModel
