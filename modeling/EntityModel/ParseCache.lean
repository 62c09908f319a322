import EntityModel.LoadedFile
import EntityModel.Settings
import EntityModel.SortedMap
import EntityModel.Sources

/-!
# Files parsed in earlier runs

A file is parsed again only when its text has changed. A caller that knows which files have changed
saves reading the others too. Main definition: `ParseCache.readAll`.
-/

namespace EntityModel

/-- The files of earlier runs, with the number of times that one was used again and the number of times
that one was parsed. -/
structure ParseCache where
  files : SortedMap FileId LoadedFile := .empty
  hits : Nat := 0
  misses : Nat := 0
deriving DecidableEq

namespace ParseCache

/-- Forgets a file, so that it is read again. -/
def invalidate (cache : ParseCache) (id : FileId) : ParseCache :=
  { cache with files := cache.files.erase id }

def clear (cache : ParseCache) : ParseCache := { cache with files := .empty }

/-- Forgets the files that are not listed. -/
def retain (cache : ParseCache) (ids : List FileId) : ParseCache :=
  { cache with files := cache.files.filterKeys ids.contains }

/-- Counts one more use of a file that is there. -/
def hit (cache : ParseCache) : ParseCache := { cache with hits := cache.hits + 1 }

/-- Parses a text. A file that does not parse is forgotten, lest what it was before outlive it. -/
def parse (cache : ParseCache) (id : FileId) (text : String) : ParseCache × Except Fault LoadedFile :=
  match LoadedFile.parse id text with
  | .ok file =>
    ({ cache with files := cache.files.insert id file, misses := cache.misses + 1 }, .ok file)
  | .error fault =>
    ({ cache with files := cache.files.erase id, misses := cache.misses + 1 }, .error fault)

/-- The file of a text: the one that is there if its text is the same, or else parsed. -/
def load (cache : ParseCache) (id : FileId) (text : String) : ParseCache × Except Fault LoadedFile :=
  match cache.files.get? id with
  | some file => if file.text = text then (cache.hit, .ok file) else cache.parse id text
  | none => cache.parse id text

/-- Whether a file may be used again unread: when changed files are given and it is not among them. -/
def isUnchanged (changed : Option (List FileId)) (id : FileId) : Bool := changed.any (!·.contains id)

/-- A listed file. -/
def read (sources : Sources) (changed : Option (List FileId)) (cache : ParseCache) (id : FileId) :
    ParseCache × Except Fault LoadedFile :=
  match if isUnchanged changed id then cache.files.get? id else none with
  | some file => (cache.hit, .ok file)
  | none => match sources.read id with
    | .error fault => (cache, .error fault)
    | .ok text => cache.load id text

/-- Some listed files, up to the first fault. -/
def readEach (sources : Sources) (settings : Settings) (changed : Option (List FileId))
    (cache : ParseCache) : List FileId → ParseCache × Except Fault (List LoadedFile)
  | [] => (cache, .ok [])
  | id :: ids =>
    if settings.declares id.module then
      match cache.read sources changed id with
      | (cache, .error fault) => (cache, .error fault)
      | (cache, .ok file) =>
        let (cache, files) := readEach sources settings changed cache ids
        (cache, files.map (file :: ·))
    else (cache, .error (.undeclaredModule id))

/-- All files of the sources in the order of their identities. Without `changed`, every file is read. -/
def readAll (cache : ParseCache) (sources : Sources) (settings : Settings)
    (changed : Option (List FileId)) : ParseCache × Except Fault (List LoadedFile) :=
  match sources.list with
  | .error fault => (cache, .error fault)
  | .ok listed =>
    let ids := (SortedMap.ofList (listed.map fun id => (id, ()))).keys
    (cache.retain ids).readEach sources settings changed ids

end ParseCache

end EntityModel
