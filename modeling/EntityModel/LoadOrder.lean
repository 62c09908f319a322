import EntityModel.LoadedFile
import EntityModel.SortedMap
import EntityModel.Unvisited

/-!
# The order in which files are loaded

Every file follows all files it uses; of several files that may come next the one of the smallest
identity does. So the order depends on the files alone and not on how they are listed. Main definition:
`LoadOrder.order`.
-/

namespace EntityModel.LoadOrder

/-! ### Placing files -/

/-- A file that waits for its turn, with the number of its uses that are not placed yet. -/
structure Waiting where
  file : LoadedFile
  unmet : Nat

/-- Files that wait may be placed when they use nothing that is not placed. -/
def Waiting.isReady (waiting : Waiting) : Bool := waiting.unmet == 0

/-- What remains to wait for once `placed` has been placed: one less if the file uses it. -/
def Waiting.settle (placed : FileId) (waiting : Waiting) : Waiting :=
  { waiting with unmet := waiting.unmet - waiting.file.uses.count placed }

/-- Takes the first ready file out of those that wait, which then wait for it no longer. -/
def step? (waiting : List Waiting) : Option (LoadedFile × List Waiting) :=
  (waiting.find? Waiting.isReady).map fun next =>
    (next.file, (waiting.eraseP Waiting.isReady).map (Waiting.settle next.file.id))

/-- A step leaves one file fewer. -/
theorem length_of_step? {waiting rest : List Waiting} {file : LoadedFile}
    (h : step? waiting = some (file, rest)) : rest.length < waiting.length := by
  unfold step? at h
  obtain ⟨next, found, taken⟩ := Option.map_eq_some_iff.mp h
  have erased := List.length_eraseP_of_mem (List.mem_of_find?_eq_some found) (List.find?_some found)
  have positive := List.length_pos_of_mem (List.mem_of_find?_eq_some found)
  cases taken
  rw [List.length_map, erased]
  omega

/-- Places files as long as one is ready. The result is the files placed, in order, and those left
over, which wait for each other. -/
def place (waiting : List Waiting) : List LoadedFile × List LoadedFile :=
  match taken : step? waiting with
  | none => ([], waiting.map Waiting.file)
  | some (file, rest) =>
    have : rest.length < waiting.length := length_of_step? taken
    let (placed, left) := place rest
    (file :: placed, left)
termination_by waiting.length

/-! ### Cycles -/

def fileOf? (files : List LoadedFile) (id : FileId) : Option LoadedFile :=
  files.find? (·.id == id)

def least? : List FileId → Option FileId
  | [] => none
  | id :: ids => match least? ids with
    | none => some id
    | some other => if id.le other then some id else some other

/-- The smallest of the files that a file uses among `files`. -/
def leastUse? (files : List LoadedFile) (file : LoadedFile) : Option FileId :=
  least? (file.uses.filter fun id => (fileOf? files id).isSome)

/-- Walks from file to file, always on to the smallest one used among `files`, until it comes back to
a file on its path, which holds the latest file first. The result is the part of the path that is a
cycle, or nothing if the walk leaves the files or ends at one that uses none of them. -/
def walk (files : List LoadedFile) (path : List FileId) (current : FileId) : Option (List FileId) :=
  if fresh : path.contains current then
    some (current :: (path.takeWhile (· != current)).reverse)
  else match found : fileOf? files current with
    | none => none
    | some file => match leastUse? files file with
      | none => none
      | some next =>
        have : unvisited (files.map LoadedFile.id) (current :: path)
            < unvisited (files.map LoadedFile.id) path := by
          apply unvisited_cons_lt _ (by simpa using fresh)
          have same : file.id = current := by simpa using List.find?_some found
          exact List.mem_map.mpr ⟨file, List.mem_of_find?_eq_some found, same⟩
        walk files (current :: path) next
termination_by unvisited (files.map LoadedFile.id) path

/-- A cycle among files that wait for each other, found from the smallest one. -/
def cycle? (files : List LoadedFile) : Option (List FileId) :=
  (least? (files.map LoadedFile.id)).bind (walk files [])

/-! ### The order -/

/-- The files by identity; of two with one identity the later counts. -/
def batch (files : List LoadedFile) : SortedMap FileId LoadedFile :=
  .ofList (files.map fun file => (file.id, file))

/-- The first use of a file that is not in a batch, with the file that has it. -/
def missing? (files : SortedMap FileId LoadedFile) : Option (FileId × FileId) :=
  files.values.findSome? fun file =>
    (file.uses.find? (!files.contains ·)).map fun used => (file.id, used)

/-- All files of a batch, waiting for everything they use. -/
def start (files : SortedMap FileId LoadedFile) : List Waiting :=
  files.values.map fun file => ⟨file, file.uses.length⟩

/-- Puts files in their order. It is a fault if one uses a file that is not there, or if some use each
other in a cycle. -/
def order (files : List LoadedFile) : Except Fault (List LoadedFile) :=
  let files := batch files
  match missing? files with
  | some (file, used) => .error (.unknownDependency file used)
  | none =>
    let (placed, left) := place (start files)
    if left.isEmpty then .ok placed else .error (.dependencyCycle ((cycle? left).getD []))

end EntityModel.LoadOrder
