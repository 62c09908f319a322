import EntityModel.Proofs.Outline

/-!
# What the expansion of aliases establishes

Expansion adds aliases and leaves all else as it is. An alias that it adds without a problem names a class
that its file may refer to, and has the domain of some field or none (`expandAliases_spec`).
-/

namespace EntityModel

open Diagnostic (hasErrors)

theorem filter_insertIdx {α : Type} {q : α → Bool} {a : α} (ha : q a = false) (l : List α) (i : Nat) :
    (l.insertIdx i a).filter q = l.filter q := by
  induction l generalizing i with
  | nil => cases i <;> simp [ha]
  | cons first rest ih =>
    cases i with
    | zero => simp [ha]
    | succ i => rw [List.insertIdx_succ_cons, List.filter_cons, List.filter_cons, ih]

theorem mem_of_mem_insertIdx {α : Type} {a b : α} {l : List α} {i : Nat} (h : b ∈ l.insertIdx i a) :
    b = a ∨ b ∈ l := by
  by_cases hi : i ≤ l.length
  · exact (List.mem_insertIdx hi).mp h
  · rw [List.insertIdx_of_length_lt (Nat.lt_of_not_le hi)] at h
    exact Or.inr h

namespace Graph

variable {settings : Settings} {g g' : Graph}

theorem outline_insertAlias (node : Node) (position : Nat) {p : Spanned Property}
    (hp : p.value.isField = false) : (Node.insertAlias node position p).outline = node.outline := by
  have hfilter := @filter_insertIdx _ (fun p : Spanned Property => p.value.isField) p hp node.properties
    (position + node.properties.countP (·.value.isAlias))
  exact congrArg (fun properties => ({ node with properties } : Node)) hfilter

/-! ### One alias -/

theorem modify_eq_set {α : Type} {l : List α} {i : Nat} {a : α} (h : l[i]? = some a) (f : α → α) :
    l.modify i f = l.set i (f a) := by
  have : Inhabited α := ⟨a⟩
  rw [List.modify_eq_set, h, Option.getD_some]

theorem expandAlias_eq_some {index : SourceIndex} {pending : PendingAlias} {node : Node} {a : Property.Alias}
    (hnode : g.nodes[pending.owner]? = some node)
    (ha : (g.aliasProperty? index node pending.declared).1 = some a) :
    (expandAlias index g pending).1 = { g with
      nodes := g.nodes.set pending.owner
        (Node.insertAlias node pending.position ⟨.alias a, pending.declared.span⟩) } := by
  simp only [expandAlias, hnode, ha, modify_eq_set hnode]

theorem expandAlias_eq_none {index : SourceIndex} {pending : PendingAlias} {node : Node}
    (hnode : g.nodes[pending.owner]? = some node)
    (ha : (g.aliasProperty? index node pending.declared).1 = none) :
    (expandAlias index g pending).1 = g := by
  simp only [expandAlias, hnode, ha]

theorem expandAlias_snd {index : SourceIndex} {pending : PendingAlias} {node : Node}
    (hnode : g.nodes[pending.owner]? = some node) :
    (expandAlias index g pending).2 = (g.aliasProperty? index node pending.declared).2 := by
  rcases ha : (g.aliasProperty? index node pending.declared).1 with _ | a <;> simp only [expandAlias, hnode, ha]

theorem pending_expandAlias (index : SourceIndex) (pending : PendingAlias) :
    (expandAlias index g pending).1.pending = g.pending := by
  unfold expandAlias
  split
  · rfl
  · dsimp only
    split <;> rfl

theorem outline_expandAlias (index : SourceIndex) (pending : PendingAlias) :
    (expandAlias index g pending).1.outline = g.outline := by
  rcases hnode : g.nodes[pending.owner]? with _ | node
  · simp only [expandAlias, hnode]
  · rcases ha : (g.aliasProperty? index node pending.declared).1 with _ | a
    · rw [expandAlias_eq_none hnode ha]
    · rw [expandAlias_eq_some hnode ha]
      exact outline_set_nodes hnode (outline_insertAlias node pending.position rfl)

theorem outline_collect_expandAlias (index : SourceIndex) (g : Graph) (items : List PendingAlias) :
    (Diagnostic.collect (expandAlias index) g items).1.outline = g.outline := by
  refine Diagnostic.collect_induction (fun _ (state : Graph) _ => state.outline = g.outline) ?_ rfl
  intro _ pending _ state _ _ hstate
  exact (outline_expandAlias _ pending).trans hstate

theorem outline_expandAliases (g : Graph) : (g.expandAliases settings).1.outline = g.outline :=
  outline_collect_expandAlias _ _ _

theorem pending_expandAliases (g : Graph) : (g.expandAliases settings).1.pending = [] := by
  refine Diagnostic.collect_induction (fun _ (state : Graph) _ => state.pending = []) ?_ rfl
  intro _ pending _ state _ _ hstate
  exact (pending_expandAlias _ pending).trans hstate

/-- Where an alias of a file may come from: it names a class that the file may refer to, and its domain, if it
has one, is that of a field. -/
structure AliasFrom (g : Graph) (file : FileId) (a : Property.Alias) : Prop where
  source : ∃ owner ∈ g.nodes, owner.name = a.source.klass ∧ g.isVisible file owner.file = true
  domain : ∀ domain, a.domain = some domain → a.column.isSome
    ∧ ∃ node ∈ g.nodes, ∃ p ∈ node.properties, ∃ field, p.value = .field field ∧ field.domain = domain

theorem mem_properties_congr (h : g.outline = g'.outline) {node : Node} (hnode : node ∈ g.nodes)
    {p : Spanned Property} (hp : p ∈ node.properties) (hfield : p.value.isField = true) :
    ∃ node' ∈ g'.nodes, node'.outline = node.outline ∧ p ∈ node'.properties := by
  obtain ⟨node', hnode', heq⟩ := mem_nodes_congr h hnode
  have hmem : p ∈ node.outline.properties := List.mem_filter.mpr ⟨hp, hfield⟩
  rw [heq] at hmem
  exact ⟨node', hnode', heq.symm, (List.mem_filter.mp hmem).1⟩

theorem AliasFrom.congr {file : FileId} {a : Property.Alias} (ha : AliasFrom g file a)
    (h : g.outline = g'.outline) : AliasFrom g' file a where
  source := by
    obtain ⟨owner, howner, hname, hvisible⟩ := ha.source
    obtain ⟨owner', howner', heq⟩ := mem_nodes_congr h howner
    refine ⟨owner', howner', ?_, ?_⟩
    · rw [← Node.name_outline, ← heq, Node.name_outline, hname]
    · rw [← Node.file_outline, ← heq, Node.file_outline, ← isVisible_congr h]
      exact hvisible
  domain domain hdomain := by
    obtain ⟨hcolumn, node, hnode, p, hp, field, hvalue, hfield⟩ := ha.domain domain hdomain
    obtain ⟨node', hnode', -, hp'⟩ := mem_properties_congr h hnode hp (by rw [hvalue]; rfl)
    exact ⟨hcolumn, node', hnode', p, hp', field, hvalue, hfield⟩

theorem source?_eq_some {index : SourceIndex} {token : AliasToken} {owner : Node} {source : Property}
    (h : g.source? index token = some (owner, source)) :
    owner ∈ g.nodes ∧ ∃ p ∈ owner.properties, p.value = source := by
  simp only [source?, Option.bind_eq_bind, Option.bind_eq_some_iff] at h
  obtain ⟨place, -, owner', howner, p, hp, heq⟩ := h
  cases heq
  exact ⟨List.mem_of_getElem? howner, p, List.mem_of_getElem? hp, rfl⟩

theorem aliasFrom_of_clean {index : SourceIndex} {node : Node} {declared : Declaration.Alias}
    {a : Property.Alias} (ha : (g.aliasProperty? index node declared).1 = some a)
    (hclean : hasErrors (g.aliasProperty? index node declared).2 = false) : AliasFrom g node.file a := by
  obtain ⟨⟨text, span⟩, label, whole⟩ := declared
  unfold aliasProperty? at ha hclean
  dsimp only at ha hclean
  rcases htoken : AliasToken.parse? text with _ | token
  · simp only [htoken] at ha
    cases ha
  · rcases hsource : g.source? index token with _ | ⟨owner, source⟩
    · simp only [htoken, hsource] at ha
      cases ha
    · simp only [htoken, hsource] at ha hclean
      cases ha
      obtain ⟨howner, p, hp, rfl⟩ := source?_eq_some hsource
      have hvisible : g.isVisible node.file owner.file = true := by
        split at hclean
        · assumption
        · cases hclean
      refine ⟨⟨owner, howner, rfl, hvisible⟩, fun domain hdomain => ?_⟩
      unfold aliasOf at hdomain ⊢
      dsimp only at hdomain ⊢
      rcases hvalue : p.value with field | _ | _ | _
      · rw [hvalue] at hdomain
        cases hdomain
        exact ⟨rfl, owner, howner, p, hp, field, hvalue, rfl⟩
      all_goals
        rw [hvalue] at hdomain
        cases hdomain

/-! ### All aliases -/

/-- Every alias of every class comes from somewhere. -/
def AliasesFrom (g state : Graph) : Prop :=
  state.outline = g.outline ∧ ∀ node ∈ state.nodes, ∀ p ∈ node.properties, ∀ a, p.value = .alias a →
    AliasFrom g node.file a

/-- A property of a class after a step has been one of the class before, or is the alias of the step. -/
theorem mem_properties_expandAlias {index : SourceIndex} {pending : PendingAlias} {node' : Node}
    (hnode' : node' ∈ (expandAlias index g pending).1.nodes) {p : Spanned Property} (hp : p ∈ node'.properties) :
    ∃ node ∈ g.nodes, node.file = node'.file ∧ (p ∈ node.properties
      ∨ ∃ a, p.value = .alias a ∧ g.nodes[pending.owner]? = some node
        ∧ (g.aliasProperty? index node pending.declared).1 = some a) := by
  rcases hnode : g.nodes[pending.owner]? with _ | node
  · simp only [expandAlias, hnode] at hnode'
    exact ⟨node', hnode', rfl, Or.inl hp⟩
  · rcases ha : (g.aliasProperty? index node pending.declared).1 with _ | a
    · rw [expandAlias_eq_none hnode ha] at hnode'
      exact ⟨node', hnode', rfl, Or.inl hp⟩
    · rw [expandAlias_eq_some hnode ha] at hnode'
      rcases List.mem_or_eq_of_mem_set hnode' with hnode' | rfl
      · exact ⟨node', hnode', rfl, Or.inl hp⟩
      · refine ⟨node, List.mem_of_getElem? hnode, rfl, ?_⟩
        rcases mem_of_mem_insertIdx hp with rfl | hp
        · exact Or.inr ⟨a, rfl, rfl, ha⟩
        · exact Or.inl hp

theorem AliasesFrom.expandAlias {state : Graph} (hstate : AliasesFrom g state) {index : SourceIndex}
    {pending : PendingAlias} (hclean : hasErrors (expandAlias index state pending).2 = false) :
    AliasesFrom g (expandAlias index state pending).1 := by
  refine ⟨(outline_expandAlias index pending).trans hstate.1, fun node' hnode' p hp a hvalue => ?_⟩
  obtain ⟨node, hnode, hfile, hold | ⟨a', hnew, hat, ha⟩⟩ := mem_properties_expandAlias hnode' hp
  · rw [← hfile]
    exact hstate.2 node hnode p hold a hvalue
  · have hfound : hasErrors (state.aliasProperty? index node pending.declared).2 = false := by
      simpa only [Graph.expandAlias, hat, ha] using hclean
    obtain rfl := Property.alias.inj (hvalue.symm.trans hnew)
    rw [← hfile]
    exact (aliasFrom_of_clean ha hfound).congr hstate.1

/-- **Expansion without a problem adds only aliases that come from somewhere.** -/
theorem expandAliases_spec (hnone : ∀ node ∈ g.nodes, ∀ p ∈ node.properties, p.value.isAlias = false)
    (hclean : hasErrors (g.expandAliases settings).2 = false) :
    AliasesFrom g (g.expandAliases settings).1 := by
  unfold expandAliases at hclean ⊢
  dsimp only at hclean ⊢
  rw [Diagnostic.hasErrors_append, Bool.or_eq_false_iff] at hclean
  refine Diagnostic.collect_induction (fun _ state found => hasErrors found = false → AliasesFrom g state)
    ?_ ?_ hclean.2
  · intro before pending after state found _ hholds hfound
    rw [Diagnostic.hasErrors_append, Bool.or_eq_false_iff] at hfound
    exact (hholds hfound.1).expandAlias hfound.2
  · refine fun _ => ⟨rfl, fun node hnode p hp a hvalue => ?_⟩
    have hp' := hnone node hnode p hp
    rw [hvalue] at hp'
    cases hp'

end Graph

end EntityModel
