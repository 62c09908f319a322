import EntityModel.Fault
import EntityModel.Text.Blank

/-!
# Trees of files

What stands in some directories at one moment. A place is the list of names that lead to it from the top;
a path is a text, which starts at the working directory unless it starts with a slash.
-/

namespace EntityModel

abbrev Place := List String

/-- A tree of files: the content at each place, nothing for a directory. The directories on the way to
a place need no entry of their own. `refusal` is what the system says of a path that it reads no text at. -/
structure FileTree where
  working : Place := []
  entries : List (Place × Option ByteArray)
  refusal : String → String

namespace FileTree

/-! ### Places -/

/-- Whether a place is a directory: on the way to the working directory or to an entry, or an entry
without content. -/
def isDirectory (tree : FileTree) (place : Place) : Bool :=
  place.isPrefixOf tree.working || tree.entries.any fun (entry, content) =>
    place.isPrefixOf entry && (entry != place || content.isNone)

/-- The content of the file at a place; of two entries the later counts. -/
def content? (tree : FileTree) (place : Place) : Option ByteArray :=
  (tree.entries.reverse.lookup place).join

def names (tree : FileTree) (place : Place) : List String :=
  let below (entry : Place) : Option String :=
    if place.isPrefixOf entry then (entry.drop place.length).head? else none
  (tree.entries.filterMap fun (entry, _) => below entry).eraseDups

/-! ### Paths -/

/-- The names in a path, between its slashes. -/
def pathNames (path : String) : List String :=
  (path.toList.splitOn '/').map String.ofList

/-- Whether a path does not start at the working directory. -/
def isAbsolute (path : String) : Bool := path.toList.head? == some '/'

/-- Follows names from a place. A name that is empty or a point stays, and two points go up, but only a
directory leads on. -/
def follow? (tree : FileTree) (place : Place) : List String → Option Place
  | [] => some place
  | name :: rest =>
    if !tree.isDirectory place then none
    else if name = "" ∨ name = "." then tree.follow? place rest
    else if name = ".." then tree.follow? place.dropLast rest
    else tree.follow? (place ++ [name]) rest

/-- The place that a path leads to, whatever stands there. -/
def place? (tree : FileTree) (path : String) : Option Place :=
  if path.isEmpty then none
  else tree.follow? (if isAbsolute path then [] else tree.working) (pathNames path)

def readText (tree : FileTree) (path : String) : Except Fault String :=
  match ((tree.place? path).bind tree.content?).bind String.fromUTF8? with
  | some text => .ok text
  | none => .error (.unreadable (tree.refusal path))

/-- A path with another one behind it. An absolute path takes the place of what is before it. -/
def join (path next : String) : String :=
  if isAbsolute next || path.isEmpty then next
  else if path.toList.getLast? = some '/' then path ++ next
  else path ++ "/" ++ next

end FileTree

end EntityModel
