import EntityModel.Declaration

/-!
# Properties of resolved classes

A property is a field, an association, a composition or an alias. All four share one view (name,
label, domain, column, reference, and so on), which checks and projections go by.
-/

namespace EntityModel

/-- The type of a foreign key on the client side. -/
inductive ClientType where
  | code (name : String)
  | scalar
deriving DecidableEq

/-- The key of another class that a property is bound to. -/
structure Reference where
  klass : String
  key : String
  clientType : ClientType
deriving DecidableEq

/-- A property of a class, by their names. -/
structure PropertyPath where
  klass : String
  property : String
deriving DecidableEq

structure Property.Field where
  name : String
  label : Option String := none
  domain : String
  primaryKey : Bool := false
  required : Bool := false
  unique : Bool := false
  many : Bool := false
  default : Option Literal := none
  column : String
deriving DecidableEq

/-- An association. Its domain, column, reference and accessor are absent until it is bound. -/
structure Property.Association where
  name : String
  label : Option String := none
  target : String
  role : Option String := none
  required : Bool := false
  many : Bool := false
  domain : Option String := none
  column : Option String := none
  reference : Option Reference := none
  accessor : Option String := none
deriving DecidableEq

/-- A composition. It has no column. -/
structure Property.Composition where
  name : String
  label : Option String := none
  target : String
  multiplicity : Multiplicity
deriving DecidableEq

/-- An alias, expanded into a copy of its source. `linkedClass` is the class its reference points at:
the target of an association, or the source class itself for a key of an enumeration or list. -/
structure Property.Alias where
  name : String
  label : Option String := none
  source : PropertyPath
  before : Option String := none
  after : Option String := none
  domain : Option String := none
  column : Option String := none
  required : Bool := false
  many : Bool := false
  role : Option String := none
  linkedClass : Option String := none
  reference : Option Reference := none
deriving DecidableEq

inductive Property where
  | field (property : Property.Field)
  | association (property : Property.Association)
  | composition (property : Property.Composition)
  | alias (property : Property.Alias)
deriving DecidableEq

namespace Property

def name : Property → String
  | field p => p.name
  | association p => p.name
  | composition p => p.name
  | .alias p => p.name

def label : Property → Option String
  | field p => p.label
  | association p => p.label
  | composition p => p.label
  | .alias p => p.label

/-- The domain of a property; a composition has none. -/
def domain : Property → Option String
  | field p => some p.domain
  | association p => p.domain
  | composition _ => none
  | .alias p => p.domain

/-- The column of a property; a composition has none. -/
def column : Property → Option String
  | field p => some p.column
  | association p => p.column
  | composition _ => none
  | .alias p => p.column

/-- The key that a property is bound to. -/
def reference : Property → Option Reference
  | association p => p.reference
  | .alias p => p.reference
  | _ => none

/-- The class that a property leads to by its key. -/
def linkedClass : Property → Option String
  | association p => some p.target
  | .alias p => p.linkedClass
  | _ => none

/-- The role that tells two properties with one target apart. -/
def role : Property → Option String
  | association p => p.role
  | .alias p => p.role
  | _ => none

def default : Property → Option Literal
  | field p => p.default
  | _ => none

def isPrimaryKey : Property → Bool
  | field p => p.primaryKey
  | _ => false

/-- Fields whose values are unique, primary keys among them. -/
def isUnique : Property → Bool
  | field p => p.unique || p.primaryKey
  | _ => false

/-- Properties that must have a value, primary keys among them. -/
def isRequired : Property → Bool
  | field p => p.required || p.primaryKey
  | association p => p.required
  | composition _ => false
  | .alias p => p.required

/-- Properties that hold a collection. -/
def isMany : Property → Bool
  | field p => p.many
  | association p => p.many
  | composition p => p.multiplicity == .many
  | .alias p => p.many

/-- Properties that have a column. -/
def isPersisted : Property → Bool
  | composition _ => false
  | _ => true

def isAlias : Property → Bool
  | .alias _ => true
  | _ => false

end Property

end EntityModel
