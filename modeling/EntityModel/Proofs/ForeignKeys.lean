import EntityModel.Proofs.Outline

/-!
# What the binding of foreign keys establishes

Every property is bound once, in a graph of the same outline as the one before any is bound
(`bindForeignKeys_spec`). So a clean run leaves each with a target that is there and may be referred to, and with what
it takes from the target's key (`BindsSome.property`).
-/

namespace EntityModel

open Diagnostic (hasErrors)

namespace Graph

variable {settings : Settings} {g g' : Graph}

theorem mem_propertyPositions {place : PropertyPosition} {p : Spanned Property}
    (h : g.propertyAt? place = some p) : place ∈ g.propertyPositions := by
  obtain ⟨node, hnode, hp⟩ := Option.bind_eq_some_iff.mp h
  refine List.mem_flatMap.mpr ⟨(node, place.owner), List.mem_zipIdx_iff_getElem?.mpr hnode, ?_⟩
  exact List.mem_map.mpr ⟨place.index, List.mem_range.mpr (List.getElem?_eq_some_iff.mp hp).1, rfl⟩

theorem nodup_propertyPositions (g : Graph) : g.propertyPositions.Nodup := by
  refine List.pairwise_flatMap.mpr ⟨fun (node, owner) _ => ?_, ?_⟩
  · refine List.pairwise_map.mpr (List.pairwise_lt_range.imp fun {i j} hlt heq => ?_)
    cases heq
    exact Nat.lt_irrefl _ hlt
  · have hsnd : (g.nodes.zipIdx.map Prod.snd).Pairwise (· < ·) := by
      rw [List.zipIdx_map_snd]
      exact List.pairwise_lt_range'
    refine (List.pairwise_map.mp hsnd).imp fun {a b} hlt p hp q hq heq => ?_
    obtain ⟨i, -, rfl⟩ := List.mem_map.mp hp
    obtain ⟨j, -, rfl⟩ := List.mem_map.mp hq
    exact Nat.ne_of_lt hlt (congrArg PropertyPosition.owner heq)

/-! ### One property -/

/-- What the binding of a property of a file, which leads to a class of a name, has found if there is no
problem. -/
def BindsTo (settings : Settings) (g : Graph) (file : FileId) (p bound : Property) (name : String) : Prop :=
  ∃ position target, g.position? name = some position ∧ g.node? name = some target
    ∧ g.isVisible file target.file = true
    ∧ match p with
      | .composition _ => bound = p
      | _ => ∃ key binding, g.boundKey? position p = some key
          ∧ KeyBinding.toKey? settings target.toClass key p.role = some binding ∧ bound = p.bound binding

theorem binding?_of_clean {node target : Node} {p : Spanned Property} {position : Nat}
    (hclean : hasErrors (g.binding? settings node p position target).2 = false) :
    ∃ key binding, g.boundKey? position p.value = some key
      ∧ KeyBinding.toKey? settings target.toClass key p.value.role = some binding
      ∧ (g.binding? settings node p position target).1 = some binding := by
  unfold binding? at hclean ⊢
  dsimp only at hclean ⊢
  rcases hkey : g.boundKey? position p.value with _ | key
  · simp only [hkey] at hclean
    cases hclean
  · rcases hbinding : KeyBinding.toKey? settings target.toClass key p.value.role with _ | binding
    · simp only [hkey, hbinding] at hclean
      cases hclean
    · exact ⟨key, binding, rfl, hbinding, by simp only [hbinding]⟩

theorem toKey?_of_binding? {node target : Node} {p : Spanned Property} {position : Nat} {binding : KeyBinding}
    (h : (g.binding? settings node p position target).1 = some binding) :
    ∃ key, KeyBinding.toKey? settings target.toClass key p.value.role = some binding := by
  unfold binding? at h
  dsimp only at h
  split at h
  · cases h
  · next key _ =>
    split at h
    · cases h
    · next found hfound => exact ⟨key, hfound.trans h⟩

theorem isVisible_of_clean {node target : Node} {p : Spanned Property}
    (hclean : hasErrors (g.visibilityDiagnostics node p target) = false) :
    g.isVisible node.file target.file = true := by
  unfold visibilityDiagnostics at hclean
  split at hclean
  · assumption
  · cases hclean

theorem bindsTo_of_clean {node : Node} {p : Spanned Property} {name : String}
    (htarget : p.value.target? = some name) (hclean : hasErrors (g.boundProperty settings node p).2 = false) :
    BindsTo settings g node.file p.value (g.boundProperty settings node p).1 name := by
  unfold boundProperty at hclean ⊢
  simp only [htarget] at hclean ⊢
  rcases hposition : g.position? name with _ | position
  · simp only [hposition] at hclean
    cases hclean
  · rcases hnode : g.node? name with _ | target
    · simp only [hposition, hnode] at hclean
      cases hclean
    · simp only [hposition, hnode] at hclean ⊢
      obtain ⟨value, span⟩ := p
      cases value with
      | composition c =>
        exact ⟨position, target, hposition, hnode, isVisible_of_clean hclean, rfl⟩
      | _ =>
        simp only [Diagnostic.hasErrors_append, Bool.or_eq_false_iff] at hclean
        obtain ⟨key, binding, hkey, hbinding, hbound⟩ := binding?_of_clean hclean.2
        refine ⟨position, target, hposition, hnode, isVisible_of_clean hclean.1, key, binding, hkey, hbinding, ?_⟩
        simp only [hbound, Option.map_some, Option.getD_some]

/-- What the binding makes of a property of a file, if there is no problem. -/
def BoundFrom (settings : Settings) (g : Graph) (file : FileId) (p bound : Property) : Prop :=
  (p.target? = none → bound = p) ∧ ∀ name, p.target? = some name → BindsTo settings g file p bound name

theorem boundFrom_of_clean {node : Node} {p : Spanned Property}
    (hclean : hasErrors (g.boundProperty settings node p).2 = false) :
    BoundFrom settings g node.file p.value (g.boundProperty settings node p).1 := by
  refine ⟨fun hnone => ?_, fun name hname => bindsTo_of_clean hname hclean⟩
  rw [boundProperty, hnone]

theorem boundProperty_of_isField {node : Node} {p : Spanned Property} (h : p.value.isField = true) :
    (g.boundProperty settings node p).1 = p.value := by
  obtain ⟨value, span⟩ := p
  cases value with
  | field field => rfl
  | _ => cases h

theorem isField_bound (binding : KeyBinding) (p : Property) : (p.bound binding).isField = p.isField := by
  cases p with
  | «alias» p =>
    unfold Property.bound
    dsimp only
    split <;> rfl
  | _ => rfl

theorem name_bound (binding : KeyBinding) (p : Property) : (p.bound binding).name = p.name := by
  cases p with
  | «alias» p =>
    unfold Property.bound
    dsimp only
    split <;> rfl
  | _ => rfl

theorem boundProperty_cases (node : Node) (p : Spanned Property) :
    (g.boundProperty settings node p).1 = p.value
      ∨ ∃ target key binding, KeyBinding.toKey? settings target key p.value.role = some binding
        ∧ (g.boundProperty settings node p).1 = p.value.bound binding := by
  obtain ⟨value, span⟩ := p
  unfold boundProperty
  split
  · exact Or.inl rfl
  · split
    · next position target _ _ =>
      dsimp only
      split
      · exact Or.inl rfl
      · rcases hbinding : (g.binding? settings node ⟨value, span⟩ position target).1 with _ | binding
        · exact Or.inl rfl
        · obtain ⟨key, hkey⟩ := toKey?_of_binding? hbinding
          exact Or.inr ⟨target.toClass, key, binding, hkey, rfl⟩
    · exact Or.inl rfl

theorem isField_boundProperty (node : Node) (p : Spanned Property) :
    (g.boundProperty settings node p).1.isField = p.value.isField := by
  rcases g.boundProperty_cases node p with h | ⟨_, _, binding, -, h⟩
  · rw [h]
  · rw [h, isField_bound]

theorem name_boundProperty (node : Node) (p : Spanned Property) :
    (g.boundProperty settings node p).1.name = p.value.name := by
  rcases g.boundProperty_cases node p with h | ⟨_, _, binding, -, h⟩
  · rw [h]
  · rw [h, name_bound]

/-! ### All properties -/

theorem filter_set {α : Type} {q : α → Bool} {l : List α} {i : Nat} {a b : α} (ha : l[i]? = some a)
    (hsame : b = a ∨ q a = false ∧ q b = false) : (l.set i b).filter q = l.filter q := by
  induction l generalizing i with
  | nil => rfl
  | cons first rest ih =>
    cases i with
    | zero =>
      obtain rfl : first = a := by simpa using ha
      rcases hsame with rfl | ⟨hfirst, hb⟩
      · rfl
      · simp [hfirst, hb]
    | succ i =>
      rw [List.set_cons_succ, List.filter_cons, List.filter_cons, ih (by simpa using ha)]

theorem bindProperty_eq {place : PropertyPosition} {node : Node} {p : Spanned Property}
    (hnode : g.nodes[place.owner]? = some node) (hp : node.properties[place.index]? = some p) :
    g.bindProperty settings place = ({ g with nodes := g.nodes.set place.owner { node with
      properties := node.properties.set place.index { p with value := (g.boundProperty settings node p).1 } } },
      (g.boundProperty settings node p).2) := by
  simp only [bindProperty, hnode, hp]

theorem outline_bindProperty (place : PropertyPosition) :
    (g.bindProperty settings place).1.outline = g.outline := by
  rcases hnode : g.nodes[place.owner]? with _ | node
  · simp only [bindProperty, hnode]
  · rcases hp : node.properties[place.index]? with _ | p
    · simp only [bindProperty, hnode, hp]
    · rw [bindProperty_eq hnode hp]
      refine outline_set_nodes hnode ?_
      rw [Node.outline, Node.outline]
      congr 1
      refine filter_set hp ?_
      by_cases hfield : p.value.isField = true
      · exact Or.inl (by rw [boundProperty_of_isField hfield])
      · refine Or.inr ⟨by simpa using hfield, ?_⟩
        rw [isField_boundProperty]
        simpa using hfield

theorem outline_bindForeignKeys (g : Graph) : (g.bindForeignKeys settings).1.outline = g.outline := by
  refine Diagnostic.collect_induction (fun _ (state : Graph) _ => state.outline = g.outline) ?_ rfl
  intro _ place _ state _ _ hstate
  exact (outline_bindProperty place).trans hstate

/-- The names of the properties of all classes, in order. -/
def propertyNames (g : Graph) : List (List String) := g.nodes.map fun node => node.properties.map (·.value.name)

theorem propertyNames_bindProperty (place : PropertyPosition) :
    (g.bindProperty settings place).1.propertyNames = g.propertyNames := by
  rcases hnode : g.nodes[place.owner]? with _ | node
  · simp only [bindProperty, hnode]
  · rcases hp : node.properties[place.index]? with _ | p
    · simp only [bindProperty, hnode, hp]
    · rw [bindProperty_eq hnode hp, propertyNames, propertyNames]
      exact map_set_of_eq hnode (map_set_of_eq hp (name_boundProperty node p))

theorem propertyNames_bindForeignKeys (g : Graph) :
    (g.bindForeignKeys settings).1.propertyNames = g.propertyNames := by
  refine Diagnostic.collect_induction (fun _ (state : Graph) _ => state.propertyNames = g.propertyNames) ?_ rfl
  intro _ place _ state _ _ hstate
  exact (propertyNames_bindProperty place).trans hstate

theorem propertyAt?_set {place other : PropertyPosition} {node : Node} (p : Spanned Property)
    (hnode : g.nodes[place.owner]? = some node) :
    ({ g with nodes := g.nodes.set place.owner { node with
      properties := node.properties.set place.index p } } : Graph).propertyAt? other
      = if place = other then (g.propertyAt? other).map fun _ => p else g.propertyAt? other := by
  obtain ⟨owner, index⟩ := place
  obtain ⟨owner', index'⟩ := other
  obtain ⟨hlt, hget⟩ := List.getElem?_eq_some_iff.mp hnode
  simp only [propertyAt?, List.getElem?_set, PropertyPosition.mk.injEq]
  by_cases howner : owner = owner'
  · subst howner
    simp only [if_true, hlt, true_and, Option.bind_some, hnode, List.getElem?_set]
    by_cases hindex : index = index'
    · subst hindex
      by_cases hbound : index < node.properties.length <;> simp [hbound]
    · simp [hindex]
  · simp [howner]

theorem propertyAt?_bindProperty_self {place : PropertyPosition} {p : Spanned Property}
    (hp : (g.bindProperty settings place).1.propertyAt? place = some p) :
    ∃ node p₁, g.propertyAt? place = some p₁ ∧ g.nodes[place.owner]? = some node
      ∧ p = { p₁ with value := (g.boundProperty settings node p₁).1 }
      ∧ (g.bindProperty settings place).2 = (g.boundProperty settings node p₁).2 := by
  rcases hnode : g.nodes[place.owner]? with _ | node
  · simp only [bindProperty, hnode, propertyAt?, Option.bind_none] at hp
    cases hp
  · rcases hp₁ : node.properties[place.index]? with _ | p₁
    · simp only [bindProperty, hnode, propertyAt?, Option.bind_some, hp₁] at hp
      cases hp
    · have hat : g.propertyAt? place = some p₁ := by rw [propertyAt?, hnode, Option.bind_some, hp₁]
      rw [bindProperty_eq hnode hp₁, propertyAt?_set _ hnode, if_pos rfl, hat] at hp
      exact ⟨node, p₁, hat, rfl, (Option.some.inj hp).symm, by rw [bindProperty_eq hnode hp₁]⟩

theorem propertyAt?_bindProperty_of_ne {place other : PropertyPosition} (hne : place ≠ other) :
    (g.bindProperty settings place).1.propertyAt? other = g.propertyAt? other := by
  rcases hnode : g.nodes[place.owner]? with _ | node
  · simp only [bindProperty, hnode]
  · rcases hp : node.properties[place.index]? with _ | p
    · simp only [bindProperty, hnode, hp]
    · rw [bindProperty_eq hnode hp, propertyAt?_set _ hnode, if_neg hne]

/-- The state of the binding when the properties at some positions have been bound, with the problems found. -/
structure BindsSome (settings : Settings) (g : Graph) (before : List PropertyPosition) (state : Graph)
    (found : List Diagnostic) : Prop where
  outline : state.outline = g.outline
  left : ∀ place, place ∉ before → state.propertyAt? place = g.propertyAt? place
  bound : ∀ place ∈ before, ∀ p, state.propertyAt? place = some p →
    ∃ (g' : Graph) (node : Node) (p₁ : Spanned Property), g.propertyAt? place = some p₁
      ∧ g'.outline = g.outline ∧ g'.nodes[place.owner]? = some node
      ∧ p = { p₁ with value := (g'.boundProperty settings node p₁).1 }
      ∧ (g'.boundProperty settings node p₁).2 ⊆ found

theorem BindsSome.step {before : List PropertyPosition} {state : Graph} {place : PropertyPosition}
    {found : List Diagnostic} (hstate : BindsSome settings g before state found) (hnew : place ∉ before) :
    BindsSome settings g (before ++ [place]) (state.bindProperty settings place).1
      (found ++ (state.bindProperty settings place).2) where
  outline := (outline_bindProperty place).trans hstate.outline
  left other hother := by
    simp only [List.mem_append, List.mem_singleton, not_or] at hother
    rw [propertyAt?_bindProperty_of_ne (Ne.symm hother.2), hstate.left other hother.1]
  bound other hother p hp := by
    by_cases hsame : place = other
    · subst hsame
      obtain ⟨node, p₁, hp₁, hnode, hvalue, hproblems⟩ := propertyAt?_bindProperty_self hp
      refine ⟨state, node, p₁, hstate.left place hnew ▸ hp₁, hstate.outline, hnode, hvalue, ?_⟩
      rw [hproblems]
      exact List.subset_append_right _ _
    · rw [propertyAt?_bindProperty_of_ne hsame] at hp
      rcases List.mem_append.mp hother with hother | hother
      · obtain ⟨g', node, p₁, hp₁, houtline, hnode, hvalue, hsub⟩ := hstate.bound other hother p hp
        exact ⟨g', node, p₁, hp₁, houtline, hnode, hvalue, List.subset_append_of_subset_left _ hsub⟩
      · exact absurd (List.mem_singleton.mp hother).symm hsame

section all

variable {state : Graph} {found : List Diagnostic} (hstate : BindsSome settings g g.propertyPositions state found)
include hstate

theorem BindsSome.propertyAt? {place : PropertyPosition} {p : Spanned Property}
    (hp : state.propertyAt? place = some p) :
    ∃ (g' : Graph) (node : Node) (p₁ : Spanned Property), g.propertyAt? place = some p₁
      ∧ g'.outline = g.outline ∧ g'.nodes[place.owner]? = some node
      ∧ p = { p₁ with value := (g'.boundProperty settings node p₁).1 }
      ∧ (g'.boundProperty settings node p₁).2 ⊆ found := by
  refine hstate.bound place (Decidable.byContradiction fun habsent => habsent ?_) p hp
  exact mem_propertyPositions (hstate.left _ habsent ▸ hp)

/-- A property of a graph that is bound without an error has been bound from one of the graph before, of the same
name. -/
theorem BindsSome.property (hclean : hasErrors found = false) {node : Node} (hnode : node ∈ state.nodes)
    {p : Spanned Property} (hp : p ∈ node.properties) :
    ∃ before ∈ g.nodes, ∃ p₁ ∈ before.properties, before.outline = node.outline ∧ p₁.value.name = p.value.name
      ∧ ∃ g' : Graph, g'.outline = state.outline ∧ BoundFrom settings g' node.file p₁.value p.value := by
  obtain ⟨owner, howner⟩ := List.mem_iff_getElem?.mp hnode
  obtain ⟨index, hindex⟩ := List.mem_iff_getElem?.mp hp
  have hat : state.propertyAt? ⟨owner, index⟩ = some p := by
    rw [Graph.propertyAt?, howner, Option.bind_some, hindex]
  obtain ⟨g', node', p₁, hat₁, hg', hnode', rfl, hsub⟩ := hstate.propertyAt? hat
  obtain ⟨before, hbefore, hp₁⟩ := Option.bind_eq_some_iff.mp hat₁
  have houtline : g'.outline = state.outline := hg'.trans hstate.outline.symm
  have hsame : before.outline = node.outline := outline_node_congr hstate.outline.symm hbefore howner
  have hfile : node'.file = node.file := Node.file_congr (outline_node_congr houtline hnode' howner)
  have hbound := boundFrom_of_clean (Diagnostic.hasErrors_of_subset hsub hclean)
  rw [hfile] at hbound
  exact ⟨before, List.mem_of_getElem? hbefore, p₁, List.mem_of_getElem? hp₁, hsame,
    (name_boundProperty node' p₁).symm, g', houtline, hbound⟩

end all

/-- **The binding has bound every property**, each in a graph of the same outline. -/
theorem bindForeignKeys_spec (settings : Settings) (g : Graph) :
    BindsSome settings g g.propertyPositions (g.bindForeignKeys settings).1 (g.bindForeignKeys settings).2 := by
  refine Diagnostic.collect_induction (BindsSome settings g) ?_ ?_
  · intro before place after state found hall hstate
    refine hstate.step fun hmem => ?_
    have hnodup := nodup_propertyPositions g
    rw [hall, List.nodup_append] at hnodup
    exact hnodup.2.2 place hmem place List.mem_cons_self rfl
  · exact ⟨rfl, fun _ _ => rfl, fun _ h => absurd h List.not_mem_nil⟩

end Graph

end EntityModel
