import EntityModel.FileId
import EntityModel.Literal
import EntityModel.Span

/-!
# Declarations as they are written

The syntax tree of a model file. References to files, classes, domains and properties are names with
the place they are written at; nothing is looked up yet.
-/

namespace EntityModel

/-- What a class is besides an ordinary one: plain, a fixed enumeration, or an administrable list. -/
inductive Stereotype where
  | plain
  | enumeration
  | reference
deriving DecidableEq

/-- How many values a composition holds. -/
inductive Multiplicity where
  | one
  | many
deriving DecidableEq

namespace Declaration

/-- `domain Name { ... }`. No target is mapped twice. -/
structure Domain where
  name : Spanned String
  label : Option String := none
  length : Option Nat := none
  scale : Option Nat := none
  mappings : List (Spanned String × String) := []
  span : Span
deriving DecidableEq

/-- `field Name: DOMAIN ...;` -/
structure Field where
  name : Spanned String
  domain : Spanned String
  primaryKey : Bool := false
  required : Bool := false
  unique : Bool := false
  many : Bool := false
  default : Option (Spanned Literal) := none
  label : Option String := none
  column : Option String := none
  span : Span
deriving DecidableEq

/-- `ref Name -> Target ...;` -/
structure Association where
  name : Spanned String
  target : Spanned String
  role : Option String := none
  required : Bool := false
  many : Bool := false
  label : Option String := none
  span : Span
deriving DecidableEq

/-- `compose Name -> Target one|many ...;` -/
structure Composition where
  name : Spanned String
  target : Spanned String
  multiplicity : Multiplicity
  label : Option String := none
  span : Span
deriving DecidableEq

/-- `alias Class_Property ...;` -/
structure Alias where
  token : Spanned String
  label : Option String := none
  span : Span
deriving DecidableEq

inductive Property where
  | field (declared : Field)
  | association (declared : Association)
  | composition (declared : Composition)
  | alias (declared : Alias)
deriving DecidableEq

namespace Property

/-- The declared name, the token of an alias. -/
def name : Property → Spanned String
  | field p => p.name
  | association p => p.name
  | composition p => p.name
  | .alias p => p.token

def span : Property → Span
  | field p => p.span
  | association p => p.span
  | composition p => p.span
  | .alias p => p.span

end Property

/-- `Name { Field = value, ... }` in a `values` block. -/
structure Row where
  name : Spanned String
  values : List (Spanned String × Spanned Literal)
  span : Span
deriving DecidableEq

/-- `class Name : Parent stereotype { ... }`. -/
structure Class where
  name : Spanned String
  parent : Option (Spanned String) := none
  stereotype : Option (Spanned Stereotype) := none
  trigram : Option (Spanned String) := none
  label : Option (Spanned String) := none
  key : Option (Spanned String) := none
  isAbstract : Bool := false
  databaseOnly : Bool := false
  properties : List Property := []
  rows : List Row := []
  span : Span
deriving DecidableEq

structure File where
  uses : List (Spanned FileId) := []
  domains : List Domain := []
  classes : List Class := []
deriving DecidableEq

end Declaration

end EntityModel
