import EntityModel.AliasToken
import EntityModel.Graph
import EntityModel.Naming
import EntityModel.Settings

/-!
# Expanding aliases

An alias becomes a property of its own, a copy of the one that its token names. Sources are the fields
outside the free alias domain and the associations, as they stand before any alias is expanded. Main
definition: `Graph.expandAliases`.
-/

namespace EntityModel

/-- The sources of aliases by key. -/
abbrev SourceIndex := List (String × PropertyPosition)

namespace Graph

/-! ### Sources -/

/-- Whether aliases may copy a property. -/
def isAliasSource (settings : Settings) (property : Property) : Bool :=
  !property.isAlias && property.isPersisted && property.domain != some settings.freeAliasDomain

/-- Enters a property into the index. The first property of a key keeps it; that two classes have
properties of one key is a problem of the second. -/
def indexProperty (g : Graph) (owner : Nat) (node : Node) (index : SourceIndex)
    (place : Spanned Property × Nat) : SourceIndex × List Diagnostic :=
  let (property, position) := place
  let key := AliasToken.indexKey node.name property.value.name
  match index.lookup key with
  | none => (index ++ [(key, ⟨owner, position⟩)], [])
  | some first =>
    if first.owner = owner then (index, [])
    else
      let other := (g.nodes[first.owner]?.map Node.name).getD ""
      (index, [g.propertyDiagnostic node property .conflictingAlias
        s!"alias key '{key}' is produced by both '{other}' and '{node.name}'"])

def indexNode (settings : Settings) (g : Graph) (index : SourceIndex) (place : Node × Nat) :
    SourceIndex × List Diagnostic :=
  let (node, owner) := place
  Diagnostic.collect (g.indexProperty owner node) index <|
    node.properties.zipIdx.filter fun (property, _) => isAliasSource settings property.value

/-- The index of all sources, and its conflicts. -/
def sourceIndex (settings : Settings) (g : Graph) : SourceIndex × List Diagnostic :=
  Diagnostic.collect (indexNode settings g) [] g.nodes.zipIdx

/-! ### Expansion -/

/-- What marks a label that an alias does not copy. -/
def overrideMarker : String := "[Override]"

/-- The label of an alias: its own, trimmed, when that is marked, or else that of its source. -/
def aliasLabel (own copied : Option String) : Option String :=
  match own with
  | none => copied
  | some label =>
    if overrideMarker.toList.isPrefixOf label.toList then
      some (String.ofList (Text.trim (label.toList.drop overrideMarker.length)))
    else copied

/-- The class that an alias of a property leads to: the target of an association, or the class itself
when the property keys its rows. -/
def aliasLink (owner : Class) (source : Property) : Option String :=
  match source with
  | .association association => some association.target
  | .field _ =>
    if owner.hasRows && (source.isPrimaryKey || owner.uniqueKey == some source.name) then
      some owner.name
    else none
  | _ => none

/-- The copy of a property that an alias makes. Only a field has its domain and column by now. -/
def aliasOf (declared : Declaration.Alias) (token : AliasToken) (owner : Class) (source : Property) :
    Property.Alias where
  name := token.before.getD "" ++ source.name ++ token.after.getD ""
  label := aliasLabel declared.label source.label
  source := ⟨owner.name, source.name⟩
  before := token.before
  after := token.after
  domain := match source with
    | .field field => some field.domain
    | _ => none
  column := match source with
    | .field field => some (Naming.affixColumn field.column token.before token.after)
    | _ => none
  required := source.isRequired
  many := source.isMany
  role := source.role
  linkedClass := aliasLink owner source

/-- The source of a token: the class and the property that stands at the indexed position by now. -/
def source? (g : Graph) (index : SourceIndex) (token : AliasToken) : Option (Node × Property) := do
  let place ← index.lookup token.key
  let owner ← g.nodes[place.owner]?
  let property ← owner.properties[place.index]?
  return (owner, property.value)

/-- The property that an alias of the class `node` makes, if its token names a source, and the problems
of the alias. -/
def aliasProperty? (g : Graph) (index : SourceIndex) (node : Node) (declared : Declaration.Alias) :
    Option Property.Alias × List Diagnostic :=
  let ⟨text, span⟩ := declared.token
  match AliasToken.parse? text with
  | none => (none, [g.fieldDiagnostic node .badAliasFormat span text
      s!"alias '{text}' must be Class_Field with an optional prefix and suffix"])
  | some token => match g.source? index token with
    | none => (none, [g.fieldDiagnostic node .aliasTargetNotFound span text
        s!"alias '{text}' matches no property {token.klass}.{token.property}"])
    | some (owner, source) =>
      let problems := if g.isVisible node.file owner.file then []
        else [g.fieldDiagnostic node .undeclaredDependency span text <|
          s!"alias '{text}' copies a property of '{owner.name}' from {owner.file.text} "
            ++ "which its file does not use"]
      (some (aliasOf declared token owner.toClass source), problems)

/-- A class with one more alias, behind `position` properties of other kinds and the aliases that it has
already. -/
def Node.insertAlias (node : Node) (position : Nat) (property : Spanned Property) : Node :=
  let before := node.properties.countP (·.value.isAlias)
  { node with properties := node.properties.insertIdx (position + before) property }

def expandAlias (index : SourceIndex) (g : Graph) (pending : PendingAlias) : Graph × List Diagnostic :=
  match g.nodes[pending.owner]? with
  | none => (g, [])
  | some node =>
    let (property, problems) := g.aliasProperty? index node pending.declared
    match property with
    | none => (g, problems)
    | some property =>
      let entry : Spanned Property := ⟨.alias property, pending.declared.span⟩
      ({ g with nodes := g.nodes.modify pending.owner (Node.insertAlias · pending.position entry) },
        problems)

/-- Expands all aliases in the order they are declared in. -/
def expandAliases (settings : Settings) (g : Graph) : Graph × List Diagnostic :=
  let (index, conflicts) := sourceIndex settings g
  let (g, problems) := Diagnostic.collect (expandAlias index) { g with pending := [] } g.pending
  (g, conflicts ++ problems)

end Graph

end EntityModel
