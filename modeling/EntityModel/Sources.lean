import EntityModel.Fault
import EntityModel.SortedMap

/-!
# Where model files come from

Sources list the files of a model and give the text of each. Either may fail.
-/

namespace EntityModel

/-- A supply of model files. -/
structure Sources where
  list : Except Fault (List FileId)
  read : FileId → Except Fault String

/-- Files that are kept in memory, listed in the order of their identities. -/
def Sources.ofFiles (files : SortedMap FileId String) : Sources where
  list := .ok files.keys
  read id := match files.get? id with
    | some text => .ok text
    | none => .error (.source s!"no such file: {id.text}")

end EntityModel
