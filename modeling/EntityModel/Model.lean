import EntityModel.Diagnostic
import EntityModel.Projection

/-!
# Published models

A model whose names are all resolved, with the queries that it answers. It never changes: a later run
makes a new one of a later version.
-/

namespace EntityModel

/-- A published model: its files and classes in load order, its domains by name, and the warnings of the
run that made it. -/
structure Model where
  version : Nat
  settings : Settings
  files : List FileId
  classes : List Class
  domains : SortedMap String Domain
  warnings : List Diagnostic
deriving DecidableEq

namespace Model

def appName (m : Model) : String := m.settings.appName.getD ""

def class? (m : Model) (name : String) : Option Class := m.classes.find? (·.name == name)

def parent? (m : Model) (c : Class) : Option Class := c.parent.bind m.class?

/-- The first primary key among a class and the classes above it, within a number of classes. -/
def primaryKeyWithin? (m : Model) : Nat → Class → Option Property
  | 0, _ => none
  | n + 1, c => match c.ownPrimaryKey? with
    | some key => some key
    | none => (m.parent? c).bind (m.primaryKeyWithin? n)

def primaryKey? (m : Model) (c : Class) : Option Property :=
  m.primaryKeyWithin? (m.classes.length + 1) c

/-- The rows of a class if it has a stereotype. -/
def rowsOf (m : Model) (stereotype : Stereotype) (name : String) : List Row :=
  match m.class? name with
  | some c => if c.stereotype = some stereotype then c.rows else []
  | none => []

/-- The rows of an enumeration; other classes have none. -/
def fixedRows (m : Model) (name : String) : List Row := m.rowsOf .enumeration name

/-- The rows of a reference list; other classes have none. -/
def listRows (m : Model) (name : String) : List Row := m.rowsOf .reference name

/-- The value that the first row of a name gives to a property. -/
def rowValue? (m : Model) (klass row property : String) : Option Literal := do
  let c ← m.class? klass
  let found ← c.rows.find? (·.name == row)
  found.get? property

def domain? (m : Model) (name : String) : Option Domain := m.domains.get? name

def projectDomain (m : Model) (name target : String) : Except ProjectionError String :=
  match m.domain? name with
  | some domain => Projection.ofDomain domain target
  | none => .error (.unknownDomain name)

def projectProperty (m : Model) (klass property target : String) : Except ProjectionError String :=
  match m.class? klass with
  | none => .error (.unknownProperty klass property)
  | some c => match c.property? property with
    | none => .error (.unknownProperty klass property)
    | some found => Projection.ofProperty m.domains m.settings c.name found target

end Model

end EntityModel
