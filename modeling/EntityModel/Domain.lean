import EntityModel.Declaration
import EntityModel.SortedMap

/-!
# Domains

A domain is a named type that properties share. It says for some targets what type stands for it; for
the others it has no type.
-/

namespace EntityModel

/-- A domain, with its type text for each target it is mapped to. -/
structure Domain where
  name : String
  label : Option String := none
  length : Option Nat := none
  scale : Option Nat := none
  mappings : SortedMap String String := .empty
deriving DecidableEq

namespace Domain

def mapping? (d : Domain) (target : String) : Option String := d.mappings.get? target

def hasMapping (d : Domain) (target : String) : Bool := (d.mapping? target).isSome

def ofDeclaration (declared : Declaration.Domain) : Domain where
  name := declared.name.value
  label := declared.label
  length := declared.length
  scale := declared.scale
  mappings := .ofList (declared.mappings.map fun (target, type) => (target.value, type))

end Domain

end EntityModel
