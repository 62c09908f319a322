import EntityModel.CommandLine

/-!
# The program

Reads the command line and the files that it names, carries out the command, and prints the result. The
exit code is 0 for success, 1 for a model with errors or a command without an answer, and 2 for a
command line that is refused.
-/

namespace EntityModel.Program

def usage : String :=
  "usage: entity-model [--root DIR] [--format table|json] [--config FILE] [--app NAME]\n"
    ++ "  [--module NAME]... [--identifier-domain NAME] [--free-alias-domain NAME]\n"
    ++ "  [--persisted-target NAME] [--client-target NAME]\n"
    ++ "  check | classes | describe CLASS | rows CLASS | domains | project SUBJECT --target NAME"

/-- The names in a directory on disk, if the path is one. -/
def namesIn? (path : String) : IO (Option (List String)) := do
  try
    let place ← IO.FS.realPath path
    return some ((← place.readDir).toList.map (·.fileName))
  catch _ => return none

/-- The content of a file on disk, if the path is one that can be read. -/
def contentOf? (path : String) : IO (Option ByteArray) := do
  try return some (← IO.FS.readBinFile path)
  catch _ => return none

/-- What stands at a path on disk and below it, down to a depth, as entries from a place on. -/
def survey (place : Place) (path : String) : Nat → IO (List (Place × Option ByteArray))
  | 0 => do
    if (← namesIn? path).isSome then return [(place, none)]
    return (← contentOf? path).toList.map fun content => (place, some content)
  | depth + 1 => do
    match ← namesIn? path with
    | none => return (← contentOf? path).toList.map fun content => (place, some content)
    | some names =>
      let below ← names.mapM fun name => survey (place ++ [name]) (FileTree.join path name) depth
      return (place, none) :: below.flatten

/-- The paths on the way to a path, itself last. -/
def waysTo (path : String) : List String :=
  let names := FileTree.pathNames path
  (List.range names.length).map fun n => String.intercalate "/" (names.take (n + 1))

/-- A tree with what stands on the way to a path, and below the path down to a depth. -/
def load (tree : FileTree) (path : String) (depth : Nat) : IO FileTree :=
  (waysTo path).foldlM (fun tree way => do
    match tree.place? way with
    | none => return tree
    | some place =>
      let found ← survey place way (if way = path then depth else 0)
      return { tree with entries := tree.entries ++ found }) tree

/-- The files that a run may read: the configuration file, and the directories of modules and kinds under
the root with their files. -/
def loadFor (arguments : Arguments) : IO FileTree := do
  let working := (FileTree.pathNames (← IO.currentDir).toString).filter (· ≠ "")
  let tree ← load { working, entries := [], refusal := fun _ => "no such file" } arguments.root 3
  match arguments.configFile with
  | some path => load tree path 0
  | none => return tree

def refuse (error : UsageError) : IO UInt32 := do
  if error = .help ∨ error = .version then
    IO.println usage
    return 0
  IO.eprintln usage
  return 2

def carryOut (arguments : Arguments) : IO UInt32 := do
  match arguments.run (fun _ => "no settings") (← loadFor arguments) with
  | .ok output =>
    IO.println output.text
    return if output.success then 0 else 1
  | .error error =>
    IO.eprintln (arguments.format.error error.message)
    return 1

end EntityModel.Program

open EntityModel in
def main (words : List String) : IO UInt32 :=
  match Arguments.parse words with
  | .error error => Program.refuse error
  | .ok arguments => Program.carryOut arguments
