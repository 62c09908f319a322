import EntityModel.Declaration.ParseError
import EntityModel.FileId

/-!
# What ends a run outright

Problems that leave nothing to resolve. Problems of single classes and properties are diagnostics
instead. A list indexed past its end ends a run too; no run of ordered files comes to that.
-/

namespace EntityModel

/-- A fatal problem. -/
inductive Fault where
  | missingSetting (setting : String)
  | undeclaredModule (file : FileId)
  | dependencyCycle (files : List FileId)
  | unknownDependency (file dependency : FileId)
  | duplicateClass (name : String) (first second : FileId)
  | duplicateDomain (name : String) (first second : FileId)
  | noUniqueKey (klass key : String) (file : FileId)
  | parse (file : FileId) (error : ParseError) (text : String)
  | source (reason : String)
  | invalidSettings (reason : String)
  | unreadable (reason : String)
  | outOfBounds (length index : Nat)
deriving DecidableEq

def Fault.message : Fault → String
  | missingSetting setting => s!"missing required setting: {setting}"
  | undeclaredModule file => s!"file {file.text} belongs to undeclared module '{file.module}'"
  | dependencyCycle files =>
    "dependency cycle between files: " ++ String.intercalate " -> " (files.map FileId.text)
  | unknownDependency file dependency =>
    s!"file {file.text} uses unknown file {dependency.text}"
  | duplicateClass name first second =>
    s!"class '{name}' is declared in both {first.text} and {second.text}"
  | duplicateDomain name first second =>
    s!"domain '{name}' is declared in both {first.text} and {second.text}"
  | noUniqueKey klass key file =>
    s!"key '{key}' of class '{klass}' ({file.text}) is not a unique property"
  | parse file error text => s!"{file.text}: {error.render text}"
  | source reason => s!"source error: {reason}"
  | invalidSettings reason => s!"invalid configuration: {reason}"
  | unreadable reason => s!"I/O error: {reason}"
  | outOfBounds length index => s!"index out of bounds: the len is {length} but the index is {index}"

end EntityModel
