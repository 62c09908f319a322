/-!
# Identities of model files

A file is known by its module, its kind and its name. Identities are ordered by these three, each as
text by code point.
-/

namespace EntityModel

/-- The identity of a model file. -/
structure FileId where
  module : String
  kind : String
  name : String
deriving DecidableEq

namespace FileId

/-- Identities are compared by module, then kind, then name. -/
instance : Ord FileId where
  compare a b := (compare a.module b.module).then <|
    (compare a.kind b.kind).then (compare a.name b.name)

def le (a b : FileId) : Bool := (compare a b).isLE

/-- Written as `module/kind/name`. -/
def text (id : FileId) : String := s!"{id.module}/{id.kind}/{id.name}"

/-- The namespace of the classes declared in a file, as `module.kind`. -/
def namespaceText (id : FileId) : String := s!"{id.module}.{id.kind}"

end FileId

end EntityModel
