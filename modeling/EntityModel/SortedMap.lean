/-!
# Maps in key order

Finite maps kept as lists of entries in increasing key order, so that what is listed does not depend
on the history of the map.
-/

namespace EntityModel

/-- A finite map, its entries in increasing order of their keys. -/
structure SortedMap (κ α : Type) where
  entries : List (κ × α)
deriving DecidableEq

namespace SortedMap

variable {κ α : Type} [Ord κ]

def empty : SortedMap κ α := ⟨[]⟩

/-- The entries with a key set, in its place in the order. -/
def insertEntry (key : κ) (value : α) : List (κ × α) → List (κ × α)
  | [] => [(key, value)]
  | (k, v) :: rest => match compare key k with
    | .lt => (key, value) :: (k, v) :: rest
    | .eq => (key, value) :: rest
    | .gt => (k, v) :: insertEntry key value rest

/-- Sets a key, in place of what it had. -/
def insert (key : κ) (value : α) (m : SortedMap κ α) : SortedMap κ α :=
  ⟨insertEntry key value m.entries⟩

def get? (m : SortedMap κ α) (key : κ) : Option α :=
  (m.entries.find? fun (k, _) => compare k key == .eq).map Prod.snd

def erase (m : SortedMap κ α) (key : κ) : SortedMap κ α :=
  ⟨m.entries.filter fun (k, _) => compare k key != .eq⟩

/-- The entries whose key satisfies `p`. -/
def filterKeys (m : SortedMap κ α) (p : κ → Bool) : SortedMap κ α :=
  ⟨m.entries.filter fun (k, _) => p k⟩

def contains (m : SortedMap κ α) (key : κ) : Bool := (m.get? key).isSome

def keys (m : SortedMap κ α) : List κ := m.entries.map Prod.fst

/-- The values in the order of their keys. -/
def values (m : SortedMap κ α) : List α := m.entries.map Prod.snd

def size (m : SortedMap κ α) : Nat := m.entries.length

/-- The map of a list of entries; of two with one key the later counts. -/
def ofList (entries : List (κ × α)) : SortedMap κ α :=
  entries.foldl (fun m (k, v) => m.insert k v) empty

end SortedMap

end EntityModel
