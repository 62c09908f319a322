import EntityModel.Graph

/-!
# Enumerations that refer to themselves

The rows of an enumeration become constants, so no row may refer to its own enumeration, be it by way of
others. A breadth-first search from every enumeration finds a shortest way back to it. Main definitions:
`Graph.cycleFrom?`, `Graph.cycleDiagnostics`.
-/

namespace EntityModel

namespace Graph

def isEnumeration (g : Graph) (position : Nat) : Bool :=
  (g.nodes[position]?.bind (·.toClass.stereotype)) == some .enumeration

/-- The enumerations that the properties of an enumeration lead to, each once, in the order of its
properties. A class that is no enumeration leads to none. -/
def enumerationTargets (g : Graph) (position : Nat) : List Nat :=
  match g.nodes[position]? with
  | none => []
  | some node =>
    if g.isEnumeration position then
      ((node.properties.filterMap (·.value.linkedClass.bind g.position?)).filter
        g.isEnumeration).eraseDups
    else []

/-- The enumerations that each class leads to, by position. -/
def enumerationEdges (g : Graph) : List (List Nat) :=
  (List.range g.nodes.length).map g.enumerationTargets

end Graph

/-! ### The search -/

/-- Where a search came from at each position that it has reached, the latest first. -/
abbrev Trail := List (Nat × Nat)

namespace Trail

def reached (trail : Trail) : List Nat := trail.map Prod.fst

/-- The way from the start of the search to a position. The position that it was reached from stands
behind it on the trail, but for the start, which is not on the trail. -/
def pathTo : Trail → Nat → List Nat
  | [], position => [position]
  | (reached, source) :: trail, position =>
    if reached = position then pathTo trail source ++ [position] else pathTo trail position

/-- Enters positions as reached from `source`, but for those reached before. The result is the trail and
the positions that are new on it. -/
def enter (source : Nat) (trail : Trail) : List Nat → Trail × List Nat
  | [] => (trail, [])
  | next :: rest =>
    if trail.reached.contains next then enter source trail rest
    else
      let (trail, fresh) := enter source ((next, source) :: trail) rest
      (trail, next :: fresh)

/-- Every position that is new on the trail is one fewer still to visit. -/
theorem unvisited_enter_le (items : List Nat) (source : Nat) (trail : Trail) {targets : List Nat}
    (inside : ∀ next ∈ targets, next ∈ items) :
    unvisited items (trail.enter source targets).1.reached + (trail.enter source targets).2.length
      ≤ unvisited items trail.reached := by
  induction targets generalizing trail with
  | nil => simp [enter]
  | cons next rest ih =>
    have deeper := fun trail => ih trail fun x h => inside x (List.mem_cons_of_mem _ h)
    unfold enter
    split
    · exact deeper trail
    · next fresh =>
      have fewer : unvisited items (next :: trail.reached) < unvisited items trail.reached :=
        unvisited_cons_lt (inside next List.mem_cons_self) (by simpa using fresh)
      have rest := deeper ((next, source) :: trail)
      simp only [reached, List.map_cons, List.length_cons] at rest fewer ⊢
      omega

end Trail

/-- Goes on with a search for a way back to `start`, from the positions in the queue. -/
def Trail.search (edges : List (List Nat)) (start : Nat) (trail : Trail) :
    List Nat → Option (List Nat)
  | [] => none
  | current :: queue =>
    match found : edges[current]? with
    | none => search edges start trail queue
    | some targets =>
      if targets.contains start then some (trail.pathTo current ++ [start])
      else
        have : unvisited edges.flatten (trail.enter current targets).1.reached
            + (queue.length + (trail.enter current targets).2.length)
            < unvisited edges.flatten trail.reached + (queue.length + 1) := by
          have fewer := unvisited_enter_le edges.flatten current trail
            fun next (h : next ∈ targets) =>
              List.mem_flatten.mpr ⟨targets, List.mem_of_getElem? found, h⟩
          omega
        search edges start (trail.enter current targets).1 (queue ++ (trail.enter current targets).2)
termination_by queue => unvisited edges.flatten trail.reached + queue.length

/-- A shortest way from a position back to itself, both ends included. -/
def cycleFrom? (edges : List (List Nat)) (start : Nat) : Option (List Nat) :=
  Trail.search edges start [] [start]

/-! ### The check -/

namespace Graph

/-- A way through classes, by their names. -/
def wayText (g : Graph) (way : List Nat) : String :=
  String.intercalate " -> " (way.map fun position => (g.nodes[position]?.map Node.name).getD "")

/-- The problem of an enumeration that refers to itself. -/
def cycleDiagnostic (g : Graph) (node : Node) (way : List Nat) : Diagnostic :=
  g.diagnostic node .referenceCycle node.declared.name.span
    s!"fixed enumeration '{node.name}' ({node.file.text}) references itself: {g.wayText way}"

def cycleDiagnostics (g : Graph) : List Diagnostic :=
  let edges := g.enumerationEdges
  g.nodes.zipIdx.filterMap fun (node, position) =>
    if g.isEnumeration position then (cycleFrom? edges position).map (g.cycleDiagnostic node)
    else none

end Graph

end EntityModel
