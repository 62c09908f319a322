import EntityModel.Declaration.Parser
import EntityModel.Fault

/-!
# Loaded files

A model file that has been read and parsed.
-/

namespace EntityModel

/-- A file, its text, and what the text declares. -/
structure LoadedFile where
  id : FileId
  text : String
  declared : Declaration.File
deriving DecidableEq

namespace LoadedFile

def parse (id : FileId) (text : String) : Except Fault LoadedFile :=
  match Declaration.File.parse text with
  | .ok declared => .ok { id, text, declared }
  | .error error => .error (.parse id error text)

/-- The files that a file uses, each once, where it is named first. -/
def uses (file : LoadedFile) : List FileId := (file.declared.uses.map Spanned.value).eraseDups

end LoadedFile

end EntityModel
