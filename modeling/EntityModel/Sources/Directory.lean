import EntityModel.FileTree
import EntityModel.Sources

/-!
# Model files in a directory

Under a root directory, a file of the model stands in a directory named for its module and one named for
its kind, as `module/kind/name.tmd`. Everything else in the root directory is passed over.
-/

namespace EntityModel

/-- The name of a model file, from the name that it has in its directory. -/
def FileId.nameOf? (fileName : String) : Option String :=
  match fileName.toList.reverse with
  | 'd' :: 'm' :: 't' :: '.' :: c :: rest => some (String.ofList (c :: rest).reverse)
  | _ => none

def FileId.path (root : String) (id : FileId) : String :=
  FileTree.join (FileTree.join (FileTree.join root id.module) id.kind) (id.name ++ ".tmd")

namespace FileTree

def directoryNames (tree : FileTree) (place : Place) : List String :=
  (tree.names place).filter fun name => tree.isDirectory (place ++ [name])

def modelFiles (tree : FileTree) (root : Place) : List FileId :=
  (tree.directoryNames root).flatMap fun module =>
    (tree.directoryNames (root ++ [module])).flatMap fun kind =>
      ((tree.names (root ++ [module, kind])).filterMap FileId.nameOf?).map (FileId.mk module kind)

/-- The model files under a path, by identity. -/
def listModel (tree : FileTree) (root : String) : Except Fault (List FileId) :=
  match (tree.place? root).filter tree.isDirectory with
  | some place => .ok ((tree.modelFiles place).mergeSort FileId.le)
  | none => .error (.source s!"model directory not found: {root}")

end FileTree

/-- The model files under a root directory. -/
def Sources.ofDirectory (tree : FileTree) (root : String) : Sources where
  list := tree.listModel root
  read id := tree.readText (id.path root)

end EntityModel
