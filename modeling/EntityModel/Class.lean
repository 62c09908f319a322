import EntityModel.Property

/-!
# Resolved classes

A class with its properties in declaration order, aliases expanded in place, and its literal rows.
-/

namespace EntityModel

/-- One literal row of an enumeration or list. -/
structure Row where
  name : String
  values : List (String × Literal)
deriving DecidableEq

/-- The value that a row gives to a property, the first of several. -/
def Row.get? (row : Row) (property : String) : Option Literal := row.values.lookup property

/-- Whether classes of a stereotype carry rows. -/
def Stereotype.hasRows : Stereotype → Bool
  | .plain => false
  | .enumeration => true
  | .reference => true

structure Class where
  name : String
  file : FileId
  parent : Option String := none
  stereotype : Option Stereotype := none
  trigram : Option String := none
  labelProperty : Option String := none
  uniqueKey : Option String := none
  isAbstract : Bool := false
  databaseOnly : Bool := false
  properties : List Property := []
  rows : List Row := []
deriving DecidableEq

namespace Class

/-- The first property of a name. -/
def property? (c : Class) (name : String) : Option Property :=
  c.properties.find? (·.name == name)

/-- The declared primary key, inherited ones aside. -/
def ownPrimaryKey? (c : Class) : Option Property := c.properties.find? Property.isPrimaryKey

/-- The properties that have a column. -/
def persistedProperties (c : Class) : List Property := c.properties.filter Property.isPersisted

/-- The short name for derived names: the trigram, or else the name. -/
def abbreviation (c : Class) : String := c.trigram.getD c.name

def hasRows (c : Class) : Bool := c.stereotype.any Stereotype.hasRows

end Class

end EntityModel
