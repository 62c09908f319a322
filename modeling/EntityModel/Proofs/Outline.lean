import EntityModel.Resolution

/-!
# What the stages of a run leave alone

Between the binding of names and the model, stages only add aliases and bind associations and aliases. The
files, the domains, and the classes with their fields stay as they are: two graphs of one `outline` answer
alike who may refer to whom, where a class stands, and what its primary key is.
-/

namespace EntityModel

/-! ### Collecting problems -/

namespace Diagnostic

@[simp] theorem hasErrors_append (first last : List Diagnostic) :
    hasErrors (first ++ last) = (hasErrors first || hasErrors last) :=
  List.any_append

theorem hasErrors_of_flatMap {α : Type} {items : List α} {f : α → List Diagnostic} {item : α}
    (h : hasErrors (items.flatMap f) = false) (hitem : item ∈ items) : hasErrors (f item) = false := by
  rw [hasErrors, List.any_eq_false] at h ⊢
  exact fun d hd => h d (List.mem_flatMap.mpr ⟨item, hitem, hd⟩)

theorem hasErrors_of_subset {first all : List Diagnostic} (hsub : first ⊆ all) (h : hasErrors all = false) :
    hasErrors first = false := by
  rw [hasErrors, List.any_eq_false] at h ⊢
  exact fun d hd => h d (hsub hd)

theorem collect_append {σ α : Type} (step : σ → α → σ × List Diagnostic) (state : σ) (first last : List α) :
    (collect step state (first ++ last)).1 = (collect step (collect step state first).1 last).1 := by
  induction first generalizing state with
  | nil => rfl
  | cons item rest ih => exact ih (step state item).1

/-- What holds at the start and is kept by each step holds of the state and the problems at the end. -/
theorem collect_induction {σ α : Type} {step : σ → α → σ × List Diagnostic}
    (holds : List α → σ → List Diagnostic → Prop) {all : List α}
    (hstep : ∀ before item after state found, all = before ++ item :: after → holds before state found →
      holds (before ++ [item]) (step state item).1 (found ++ (step state item).2))
    {state : σ} (hstart : holds [] state []) : holds all (collect step state all).1 (collect step state all).2 := by
  suffices h : ∀ before items state found, all = before ++ items → holds before state found →
      holds (before ++ items) (collect step state items).1 (found ++ (collect step state items).2) from
    h [] all state [] rfl hstart
  intro before items
  induction items generalizing before with
  | nil =>
    intro state found hall hholds
    simpa [collect] using hholds
  | cons item after ih =>
    intro state found hall hholds
    have hnext := ih (before ++ [item]) (step state item).1 (found ++ (step state item).2) (by simp [hall])
      (hstep before item after state found hall hholds)
    simpa [collect] using hnext

end Diagnostic

/-! ### Outlines -/

def Property.isField : Property → Bool
  | field _ => true
  | _ => false

theorem Property.isField_of_isPrimaryKey {p : Property} (h : p.isPrimaryKey = true) : p.isField = true := by
  cases p with
  | field p => rfl
  | _ => cases h

/-- The class with its fields only. -/
def Node.outline (node : Node) : Node :=
  { node with properties := node.properties.filter (·.value.isField) }

@[simp] theorem Node.name_outline (node : Node) : node.outline.name = node.name := rfl

@[simp] theorem Node.file_outline (node : Node) : node.outline.file = node.file := rfl

@[simp] theorem Node.parent_outline (node : Node) : node.outline.parent = node.parent := rfl

@[simp] theorem Node.declared_outline (node : Node) : node.outline.declared = node.declared := rfl

section congr

variable {node node' : Node} (h : node.outline = node'.outline)
include h

theorem Node.file_congr : node.file = node'.file := by simpa using congrArg Node.file h

theorem Node.name_congr : node.name = node'.name := by simpa using congrArg Node.name h

theorem Node.declared_congr : node.declared = node'.declared := by simpa using congrArg Node.declared h

end congr

@[simp] theorem Node.ownPrimaryKey?_outline (node : Node) :
    node.outline.toClass.ownPrimaryKey? = node.toClass.ownPrimaryKey? := by
  simp only [Class.ownPrimaryKey?, toClass, outline, List.find?_map, List.find?_filter]
  congr 2
  funext p
  by_cases h : p.value.isPrimaryKey = true
  · simp [h, Property.isField_of_isPrimaryKey h]
  · simp [h]

namespace Graph

/-- What the stages of a run leave alone of a graph. -/
def outline (g : Graph) : Graph := { g with nodes := g.nodes.map Node.outline, pending := [] }

theorem isVisible_outline (g : Graph) : g.outline.isVisible = g.isVisible := rfl

theorem position?_outline (g : Graph) (name : String) : g.outline.position? name = g.position? name := by
  rw [position?, position?, outline, List.findIdx?_map]
  rfl

theorem node?_outline (g : Graph) (name : String) : g.outline.node? name = (g.node? name).map Node.outline := by
  rw [node?, node?, outline, List.find?_map]
  rfl

theorem getElem?_nodes_outline (g : Graph) (position : Nat) :
    g.outline.nodes[position]? = g.nodes[position]?.map Node.outline := by
  rw [outline, List.getElem?_map]

/-- The search for a primary key, without the reason why it ends. -/
theorem primaryKeyAbove?_eq (g : Graph) (visited : List Nat) (position : Nat) :
    g.primaryKeyAbove? visited position = if visited.contains position then none
      else g.nodes[position]?.bind fun node =>
        (node.toClass.ownPrimaryKey?.map fun key => (position, key)).or
          (node.parent.bind (g.primaryKeyAbove? (position :: visited))) := by
  rw [primaryKeyAbove?]
  split
  · rfl
  · split
    · next hnode => rw [hnode, Option.bind_none]
    · next node hnode =>
      simp only [hnode, Option.bind_some]
      split
      · next key hkey => rw [hkey, Option.map_some, Option.some_or]
      · next hkey =>
        rw [hkey, Option.map_none, Option.none_or]
        split
        · next hparent => rw [hparent, Option.bind_none]
        · next parent hparent => rw [hparent, Option.bind_some]

/-- A search for a primary key that ends with one: it is in the class itself or above it. -/
theorem primaryKeyAbove?_eq_some {g : Graph} {visited : List Nat} {position : Nat} {found : Nat × Property}
    (h : g.primaryKeyAbove? visited position = some found) :
    ∃ node, g.nodes[position]? = some node
      ∧ unvisited (List.range g.nodes.length) (position :: visited)
        < unvisited (List.range g.nodes.length) visited
      ∧ (node.toClass.ownPrimaryKey? = some found.2
        ∨ node.toClass.ownPrimaryKey? = none ∧ ∃ parent, node.parent = some parent
          ∧ g.primaryKeyAbove? (position :: visited) parent = some found) := by
  rw [primaryKeyAbove?_eq] at h
  split at h
  · cases h
  · next hfresh =>
    obtain ⟨node, hnode, hfound⟩ := Option.bind_eq_some_iff.mp h
    refine ⟨node, hnode, unvisited_cons_lt
      (List.mem_range.mpr (List.getElem?_eq_some_iff.mp hnode).1) (by simpa using hfresh), ?_⟩
    rcases hown : node.toClass.ownPrimaryKey? with _ | own
    · rw [hown, Option.map_none, Option.none_or] at hfound
      exact Or.inr ⟨rfl, Option.bind_eq_some_iff.mp hfound⟩
    · rw [hown, Option.map_some, Option.some_or] at hfound
      cases hfound
      exact Or.inl rfl

theorem isPrimaryKey_of_primaryKeyAbove? {g : Graph} {visited : List Nat} {position : Nat}
    {found : Nat × Property} (h : g.primaryKeyAbove? visited position = some found) :
    found.2.isPrimaryKey = true ∧ ∃ node ∈ g.nodes, ∃ p ∈ node.properties, p.value = found.2 := by
  obtain ⟨n, hn⟩ : ∃ n, unvisited (List.range g.nodes.length) visited = n := ⟨_, rfl⟩
  induction n using Nat.strongRecOn generalizing visited position with
  | ind n ih =>
    obtain ⟨node, hnode, hlt, hown | ⟨-, parent, -, habove⟩⟩ := primaryKeyAbove?_eq_some h
    · obtain ⟨p, hp, hvalue⟩ := List.mem_map.mp (List.mem_of_find?_eq_some hown)
      exact ⟨List.find?_some hown, node, List.mem_of_getElem? hnode, p, hp, hvalue⟩
    · exact ih _ (hn ▸ hlt) habove rfl

theorem primaryKeyAbove?_outline (g : Graph) (visited : List Nat) (position : Nat) :
    g.outline.primaryKeyAbove? visited position = g.primaryKeyAbove? visited position := by
  obtain ⟨n, hn⟩ : ∃ n, unvisited (List.range g.nodes.length) visited = n := ⟨_, rfl⟩
  induction n using Nat.strongRecOn generalizing visited position with
  | ind n ih =>
    rw [primaryKeyAbove?_eq, primaryKeyAbove?_eq g, getElem?_nodes_outline]
    split
    · rfl
    · next hvisited =>
      rcases hnode : g.nodes[position]? with _ | node
      · rfl
      · simp only [Option.map_some, Option.bind_some, Node.ownPrimaryKey?_outline, Node.parent_outline]
        congr 2
        funext parent
        have hlt : unvisited (List.range g.nodes.length) (position :: visited) < n :=
          hn ▸ unvisited_cons_lt (List.mem_range.mpr (List.getElem?_eq_some_iff.mp hnode).1)
            (by simpa using hvisited)
        exact ih _ hlt _ parent rfl

theorem primaryKey?_outline (g : Graph) (position : Nat) :
    g.outline.primaryKey? position = g.primaryKey? position := g.primaryKeyAbove?_outline [] position

def propertyAt? (g : Graph) (place : PropertyPosition) : Option (Spanned Property) :=
  g.nodes[place.owner]?.bind fun node => node.properties[place.index]?

/-! ### Graphs of one outline -/

variable {g g' : Graph}

theorem isVisible_congr (h : g.outline = g'.outline) : g.isVisible = g'.isVisible := by
  rw [← isVisible_outline, h, isVisible_outline]

theorem position?_congr (h : g.outline = g'.outline) (name : String) : g.position? name = g'.position? name := by
  rw [← position?_outline, h, position?_outline]

theorem domain?_congr (h : g.outline = g'.outline) (name : String) : g.domain? name = g'.domain? name := by
  change g.outline.domain? name = g'.outline.domain? name
  rw [h]

theorem primaryKey?_congr (h : g.outline = g'.outline) (position : Nat) :
    g.primaryKey? position = g'.primaryKey? position := by
  rw [← primaryKey?_outline, h, primaryKey?_outline]

theorem getElem?_nodes_congr (h : g.outline = g'.outline) (position : Nat) :
    g.nodes[position]?.map Node.outline = g'.nodes[position]?.map Node.outline := by
  rw [← getElem?_nodes_outline, h, getElem?_nodes_outline]

theorem exists_node_of_outline_eq (h : g.outline = g'.outline) {position : Nat} {node : Node}
    (hnode : g.nodes[position]? = some node) :
    ∃ node', g'.nodes[position]? = some node' ∧ node.outline = node'.outline := by
  have hcongr := getElem?_nodes_congr h position
  rw [hnode, Option.map_some] at hcongr
  obtain ⟨node', hnode', heq⟩ := Option.map_eq_some_iff.mp hcongr.symm
  exact ⟨node', hnode', heq.symm⟩

theorem outline_node_congr (h : g.outline = g'.outline) {position : Nat} {node node' : Node}
    (hnode : g.nodes[position]? = some node) (hnode' : g'.nodes[position]? = some node') :
    node.outline = node'.outline := by
  have hcongr := getElem?_nodes_congr h position
  rw [hnode, hnode', Option.map_some, Option.map_some] at hcongr
  exact Option.some.inj hcongr

theorem mem_nodes_congr (h : g.outline = g'.outline) {node : Node} (hnode : node ∈ g.nodes) :
    ∃ node' ∈ g'.nodes, node.outline = node'.outline := by
  obtain ⟨position, hposition⟩ := List.mem_iff_getElem?.mp hnode
  obtain ⟨node', hnode', heq⟩ := exists_node_of_outline_eq h hposition
  exact ⟨node', List.mem_of_getElem? hnode', heq⟩

theorem fieldDiagnostic_congr (h : g.outline = g'.outline) {node node' : Node} (hnode : node.outline = node'.outline) :
    g.fieldDiagnostic node = g'.fieldDiagnostic node' := by
  have hscopes : g.scopes = g'.scopes := congrArg (fun g => g.scopes) h
  have hfile : node.file = node'.file := Node.file_congr hnode
  have hname : node.name = node'.name := Node.name_congr hnode
  funext kind span field message
  simp only [fieldDiagnostic, diagnostic, locate, scope?, hscopes, hfile, hname]

theorem map_set_of_eq {α β : Type} {f : α → β} {l : List α} {i : Nat} {a b : α} (ha : l[i]? = some a)
    (hsame : f b = f a) : (l.set i b).map f = l.map f := by
  obtain ⟨hlt, rfl⟩ := List.getElem?_eq_some_iff.mp ha
  rw [List.map_set, hsame, ← List.map_set, List.set_getElem_self]

theorem exists_mem_set {α : Type} (related : α → α → Prop) (hself : ∀ a, related a a) {l : List α} {i : Nat} {a b : α}
    (ha : l[i]? = some a) (hab : related a b) {c : α} (hc : c ∈ l) : ∃ c' ∈ l.set i b, related c c' := by
  obtain ⟨j, hj⟩ := List.mem_iff_getElem?.mp hc
  by_cases hsame : i = j
  · subst hsame
    obtain rfl : a = c := Option.some.inj (ha.symm.trans hj)
    exact ⟨b, List.mem_of_getElem? (List.getElem?_set_self (List.getElem?_eq_some_iff.mp ha).1), hab⟩
  · exact ⟨c, List.mem_of_getElem? ((List.getElem?_set_ne hsame).trans hj), hself c⟩

theorem outline_set_nodes {position : Nat} {node node' : Node} (hnode : g.nodes[position]? = some node)
    (hsame : node'.outline = node.outline) :
    { g with nodes := g.nodes.set position node' }.outline = g.outline := by
  rw [outline, outline]
  exact congrArg (fun nodes => ({ g with nodes, pending := [] } : Graph)) (map_set_of_eq hnode hsame)

end Graph

end EntityModel
