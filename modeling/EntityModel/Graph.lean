import EntityModel.Class
import EntityModel.Diagnostic
import EntityModel.Domain
import EntityModel.LoadedFile
import EntityModel.Unvisited

/-!
# The classes of a run while they are resolved

Classes are known by their position in load order, and keep their declaration beside the properties
they have so far, so that a diagnostic can point at what is written. Main definitions: `Node`, `Graph`,
`Graph.primaryKey?`, `Graph.diagnostic`.
-/

namespace EntityModel

/-- A file and the files whose classes it may refer to: itself and all it uses, directly or not. -/
structure Scope where
  file : LoadedFile
  visible : List FileId
deriving DecidableEq

/-- A class on its way: its declaration, its properties so far with the place each is declared at, and
the position of its parent once that is known. -/
structure Node where
  file : FileId
  declared : Declaration.Class
  properties : List (Spanned Property)
  parent : Option Nat := none
deriving DecidableEq

def Row.ofDeclaration (declared : Declaration.Row) : Row where
  name := declared.name.value
  values := declared.values.map fun (field, value) => (field.value, value.value)

namespace Node

def name (node : Node) : String := node.declared.name.value

/-- The class with the properties it has so far. -/
def toClass (node : Node) : Class where
  name := node.name
  file := node.file
  parent := node.declared.parent.map Spanned.value
  stereotype := node.declared.stereotype.map Spanned.value
  trigram := node.declared.trigram.map Spanned.value
  labelProperty := node.declared.label.map Spanned.value
  uniqueKey := node.declared.key.map Spanned.value
  isAbstract := node.declared.isAbstract
  databaseOnly := node.declared.databaseOnly
  properties := node.properties.map Spanned.value
  rows := node.declared.rows.map Row.ofDeclaration

/-- The first property of a name. -/
def property? (node : Node) (name : String) : Option Property := node.toClass.property? name

end Node

/-- A property by the position of its class and its own position in it. -/
structure PropertyPosition where
  owner : Nat
  index : Nat
deriving DecidableEq

/-- An alias that waits to be expanded: the class that declares it, and the number of properties other
than aliases that are declared before it. -/
structure PendingAlias where
  owner : Nat
  position : Nat
  declared : Declaration.Alias
deriving DecidableEq

structure DomainEntry where
  domain : Domain
  file : FileId
deriving DecidableEq

/-- Everything that a run knows: the files, the latest loaded first, the domains by name, the classes in
load order, and the aliases that are not expanded yet. -/
structure Graph where
  scopes : List Scope := []
  domains : SortedMap String DomainEntry := .empty
  nodes : List Node := []
  pending : List PendingAlias := []
deriving DecidableEq

namespace Graph

/-! ### Looking up -/

/-- The scope of a file, the latest if it is loaded twice. -/
def scope? (g : Graph) (file : FileId) : Option Scope := g.scopes.find? (·.file.id == file)

/-- Whether classes of the file `source` may refer to classes of the file `target`. -/
def isVisible (g : Graph) (source target : FileId) : Bool :=
  (g.scope? source).any (·.visible.contains target)

def position? (g : Graph) (name : String) : Option Nat := g.nodes.findIdx? (·.name == name)

def node? (g : Graph) (name : String) : Option Node := g.nodes.find? (·.name == name)

def domain? (g : Graph) (name : String) : Option Domain := (g.domains.get? name).map DomainEntry.domain

/-! ### Keys -/

/-- The primary key found on the way up from a class, with the class that declares it, unless a class
already `visited` comes up again first. -/
def primaryKeyAbove? (g : Graph) (visited : List Nat) (position : Nat) : Option (Nat × Property) :=
  if fresh : visited.contains position then none
  else match found : g.nodes[position]? with
    | none => none
    | some node => match node.toClass.ownPrimaryKey? with
      | some key => some (position, key)
      | none => match node.parent with
        | none => none
        | some parent =>
          have : unvisited (List.range g.nodes.length) (position :: visited)
              < unvisited (List.range g.nodes.length) visited :=
            unvisited_cons_lt (List.mem_range.mpr (List.getElem?_eq_some_iff.mp found).1)
              (by simpa using fresh)
          primaryKeyAbove? g (position :: visited) parent
termination_by unvisited (List.range g.nodes.length) visited

/-- The primary key of a class, declared or inherited, with the class that declares it. -/
def primaryKey? (g : Graph) (position : Nat) : Option (Nat × Property) :=
  g.primaryKeyAbove? [] position

def inheritedKey? (g : Graph) (node : Node) : Option (Nat × Property) :=
  node.parent.bind g.primaryKey?

/-- The property that tells the rows of a class apart: its declared key, or else its primary key. -/
def rowKey? (g : Graph) (position : Nat) : Option Property :=
  g.nodes[position]?.bind fun node => match node.toClass.uniqueKey with
    | some key => node.property? key
    | none => (g.primaryKey? position).map Prod.snd

/-! ### Diagnostics -/

def locate (g : Graph) (file : FileId) (span : Span) : Option Location :=
  (g.scope? file).map fun scope => span.locate scope.file.text

/-- A problem of a class, at a span of its declaration. -/
def diagnostic (g : Graph) (node : Node) (kind : DiagnosticKind) (span : Span) (message : String) :
    Diagnostic where
  kind := kind
  message := message
  file := node.file
  klass := some node.name
  location := g.locate node.file span

/-- A problem of a class that has to do with a name. -/
def fieldDiagnostic (g : Graph) (node : Node) (kind : DiagnosticKind) (span : Span) (field : String)
    (message : String) : Diagnostic :=
  { g.diagnostic node kind span message with field := some field }

/-- A problem of a property, at its declaration. -/
def propertyDiagnostic (g : Graph) (node : Node) (property : Spanned Property)
    (kind : DiagnosticKind) (message : String) : Diagnostic :=
  g.fieldDiagnostic node kind property.span property.value.name message

end Graph

end EntityModel
