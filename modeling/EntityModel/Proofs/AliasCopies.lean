import EntityModel.Proofs.Aliases
import EntityModel.Proofs.AliasSources
import EntityModel.Proofs.Binding

/-!
# What an alias copies

The index holds the places of sources as they are declared, and each alias that is inserted moves what stands
behind it by one. So an alias copies the source that its token names if and only if no alias before it has been
inserted at the place of the source or before (`expandAliases_copies`).
-/

namespace EntityModel

/-! ### Insertions into one class -/

/-- What the properties of a class become when some aliases are inserted, each behind as many properties of other
kinds as it says. -/
structure Expands (inserted : List PendingAlias) (before after : List (Spanned Property)) : Prop where
  length : after.length = before.length + inserted.length
  aliases : after.countP (·.value.isAlias) = inserted.length
  kept : ∀ i, (∀ b ∈ inserted, i < b.position) → after[i]? = before[i]?
  moved : ∀ i p, (∃ b ∈ inserted, b.position ≤ i) → after[i]? = some p →
    p.value.isAlias = true ∨ ∃ j < i, before[j]? = some p

namespace Expands

theorem refl {properties : List (Spanned Property)}
    (hnone : ∀ p ∈ properties, p.value.isAlias = false) : Expands [] properties properties where
  length := rfl
  aliases := List.countP_eq_zero.mpr fun p hp => by rw [hnone p hp]; exact Bool.false_ne_true
  kept _ _ := rfl
  moved _ _ h _ := by
    obtain ⟨b, hb, -⟩ := h
    exact absurd hb List.not_mem_nil

theorem insert {inserted : List PendingAlias} {before after : List (Spanned Property)}
    (h : Expands inserted before after) {a : PendingAlias} (hplaced : a.position ≤ before.length)
    (hordered : ∀ b ∈ inserted, b.position ≤ a.position) {entry : Spanned Property}
    (hentry : entry.value.isAlias = true) :
    Expands (inserted ++ [a]) before (after.insertIdx (a.position + inserted.length) entry) := by
  have hbound : a.position + inserted.length ≤ after.length := by
    rw [h.length]
    omega
  refine ⟨?_, ?_, fun i hi => ?_, fun i p hi hp => ?_⟩
  · rw [List.length_insertIdx_of_le_length hbound, h.length, List.length_append, List.length_singleton, Nat.add_assoc]
  · rw [(List.perm_insertIdx entry after hbound).countP_eq, List.countP_cons, if_pos hentry, h.aliases,
      List.length_append, List.length_singleton]
  · have hlt := hi a (List.mem_append_right _ (List.mem_singleton.mpr rfl))
    rw [List.getElem?_insertIdx_of_lt (by omega)]
    exact h.kept i fun b hb => hi b (List.mem_append_left _ hb)
  · rcases Nat.lt_trichotomy i (a.position + inserted.length) with hlt | heq | hgt
    · rw [List.getElem?_insertIdx_of_lt hlt] at hp
      refine h.moved i p ?_ hp
      obtain ⟨b, hb, hle⟩ := hi
      rcases List.mem_append.mp hb with hb | hb
      · exact ⟨b, hb, hle⟩
      · obtain rfl := List.mem_singleton.mp hb
        obtain ⟨c, hc⟩ := List.exists_mem_of_length_pos (show 0 < inserted.length by omega)
        exact ⟨c, hc, Nat.le_trans (hordered c hc) hle⟩
    · subst heq
      rw [List.getElem?_insertIdx_self, if_pos hbound] at hp
      cases hp
      exact Or.inl hentry
    · rw [List.getElem?_insertIdx_of_gt hgt] at hp
      by_cases hmoved : ∃ b ∈ inserted, b.position ≤ i - 1
      · refine (h.moved (i - 1) p hmoved hp).imp_right fun ⟨j, hlt, hj⟩ => ⟨j, by omega, hj⟩
      · have hkept := h.kept (i - 1) fun b hb => Nat.lt_of_not_le fun hle => hmoved ⟨b, hb, hle⟩
        exact Or.inr ⟨i - 1, by omega, hkept ▸ hp⟩

end Expands

/-! ### Sources while aliases are expanded -/

namespace Graph

variable {settings : Settings} {g : Graph}

/-- The source that a waiting alias names. -/
def namedSource? (settings : Settings) (g : Graph) (a : PendingAlias) : Option PropertyPosition :=
  (AliasToken.parse? a.declared.token.value).bind (g.sourcePlace? settings)

/-- Of some aliases those that the class at `owner` gets: the ones that name a source. -/
def insertedAt (settings : Settings) (g : Graph) (owner : Nat) (aliases : List PendingAlias) :
    List PendingAlias :=
  aliases.filter fun a => a.owner == owner && (g.namedSource? settings a).isSome

/-- The state of the expansion of a graph when some aliases have been expanded. -/
def Expanding (settings : Settings) (g : Graph) (done : List PendingAlias) (state : Graph) : Prop :=
  ∀ owner node, g.nodes[owner]? = some node → ∃ node', state.nodes[owner]? = some node'
    ∧ node'.declared = node.declared
    ∧ Expands (g.insertedAt settings owner done) node.properties node'.properties

theorem aliasProperty?_fst (index : SourceIndex) (node : Node) (declared : Declaration.Alias) :
    (g.aliasProperty? index node declared).1 = (AliasToken.parse? declared.token.value).bind fun token =>
      (g.source? index token).map fun (owner, source) => aliasOf declared token owner.toClass source := by
  obtain ⟨⟨text, span⟩, label, whole⟩ := declared
  unfold aliasProperty?
  dsimp only
  rcases AliasToken.parse? text with _ | token
  · rfl
  · dsimp only [Option.bind_some]
    rcases g.source? index token with _ | ⟨owner, source⟩ <;> rfl

variable {done : List PendingAlias} {state : Graph}

theorem source?_of_none {token : AliasToken} {text : String} (htoken : AliasToken.parse? text = some token)
    (hnames : (g.nodes.map Node.name).Nodup) (hplace : g.sourcePlace? settings token = none) :
    state.source? (sourceIndex settings g).1 token = none := by
  rw [source?, lookup_sourceIndex hnames htoken, hplace]
  rfl

theorem aliasProperty?_of_none {a : PendingAlias} (hnames : (g.nodes.map Node.name).Nodup)
    (hsource : g.namedSource? settings a = none) (node : Node) :
    (state.aliasProperty? (sourceIndex settings g).1 node a.declared).1 = none := by
  rw [aliasProperty?_fst]
  rcases htoken : AliasToken.parse? a.declared.token.value with _ | token
  · rfl
  · rw [namedSource?, htoken, Option.bind_some] at hsource
    rw [Option.bind_some, source?_of_none htoken hnames hsource]
    rfl

theorem Expanding.source?_of_some (hstate : g.Expanding settings done state)
    (hnames : (g.nodes.map Node.name).Nodup) {text : String} {token : AliasToken}
    (htoken : AliasToken.parse? text = some token) {place : PropertyPosition}
    (hplace : g.sourcePlace? settings token = some place) :
    ∃ owner p, state.nodes[place.owner]? = some owner ∧ owner.name = token.klass
      ∧ owner.properties[place.index]? = some p
      ∧ state.source? (sourceIndex settings g).1 token = some (owner, p.value) := by
  obtain ⟨first, hfirst, hname, hindex⟩ := sourcePlace?_eq_some hplace
  obtain ⟨owner, howner, hdeclared, hexpands⟩ := hstate place.owner first hfirst
  obtain ⟨hlt, -⟩ := List.findIdx?_eq_some_iff_getElem.mp hindex
  have hlength := hexpands.length
  obtain ⟨p, hp⟩ : ∃ p, owner.properties[place.index]? = some p :=
    ⟨_, List.getElem?_eq_getElem (by omega)⟩
  refine ⟨owner, p, howner, ?_, hp, ?_⟩
  · rw [Node.name, hdeclared, ← Node.name, hname]
  · rw [source?, lookup_sourceIndex hnames htoken, hplace]
    simp only [Option.bind_eq_bind, Option.bind_some, howner, hp, Option.pure_def]

theorem Expanding.aliasProperty?_of_some (hstate : g.Expanding settings done state)
    (hnames : (g.nodes.map Node.name).Nodup) {declared : Declaration.Alias} {token : AliasToken}
    (htoken : AliasToken.parse? declared.token.value = some token) {place : PropertyPosition}
    (hplace : g.sourcePlace? settings token = some place) (node : Node) :
    ∃ owner p, state.nodes[place.owner]? = some owner ∧ owner.name = token.klass
      ∧ owner.properties[place.index]? = some p
      ∧ (state.aliasProperty? (sourceIndex settings g).1 node declared).1
        = some (aliasOf declared token owner.toClass p.value) := by
  obtain ⟨owner, p, howner, hname, hp, hsource⟩ := hstate.source?_of_some hnames htoken hplace
  refine ⟨owner, p, howner, hname, hp, ?_⟩
  rw [aliasProperty?_fst, htoken, Option.bind_some, hsource, Option.map_some]

theorem insertedAt_concat (owner : Nat) (a : PendingAlias) :
    g.insertedAt settings owner (done ++ [a]) = g.insertedAt settings owner done
      ++ if a.owner = owner ∧ (g.namedSource? settings a).isSome then [a] else [] := by
  rw [insertedAt, List.filter_append, List.filter_cons, List.filter_nil]
  simp only [Bool.and_eq_true, beq_iff_eq]
  rfl

/-! ### The expansion of all aliases -/

theorem Expanding.start {g : Graph} (hnone : ∀ node ∈ g.nodes, ∀ p ∈ node.properties, p.value.isAlias = false) :
    g.Expanding settings [] { g with pending := [] } := fun _ node hnode =>
  ⟨node, hnode, rfl, .refl (hnone node (List.mem_of_getElem? hnode))⟩

theorem Expanding.step_none (hstate : g.Expanding settings done state) (hnames : (g.nodes.map Node.name).Nodup)
    {a : PendingAlias} {node : Node} (hnode : state.nodes[a.owner]? = some node)
    (hsource : g.namedSource? settings a = none) :
    g.Expanding settings (done ++ [a]) (expandAlias (sourceIndex settings g).1 state a).1 := by
  rw [expandAlias_eq_none hnode (aliasProperty?_of_none hnames hsource node)]
  intro owner first hfirst
  rw [insertedAt_concat, if_neg (fun h => by rw [hsource] at h; cases h.2), List.append_nil]
  exact hstate owner first hfirst

theorem namedSource?_eq_some {a : PendingAlias} {place : PropertyPosition}
    (h : g.namedSource? settings a = some place) :
    ∃ token, AliasToken.parse? a.declared.token.value = some token ∧ g.sourcePlace? settings token = some place :=
  Option.bind_eq_some_iff.mp h

theorem Expanding.step_some (hstate : g.Expanding settings done state) {a : PendingAlias} {node first : Node}
    (hnode : state.nodes[a.owner]? = some node) (hfirst : g.nodes[a.owner]? = some first)
    (hplaced : a.position ≤ first.properties.length)
    (hordered : ∀ b ∈ done, b.owner = a.owner → b.position ≤ a.position)
    (hsource : (g.namedSource? settings a).isSome) {index : SourceIndex} {copy : Property.Alias}
    (hcopy : (state.aliasProperty? index node a.declared).1 = some copy) :
    g.Expanding settings (done ++ [a]) (expandAlias index state a).1 := by
  rw [expandAlias_eq_some hnode hcopy]
  intro owner first' hfirst'
  obtain ⟨node', hnode', hdeclared, hexpands⟩ := hstate owner first' hfirst'
  rw [insertedAt_concat]
  by_cases howner : a.owner = owner
  · subst howner
    obtain rfl : first' = first := Option.some.inj (hfirst'.symm.trans hfirst)
    obtain rfl : node' = node := Option.some.inj (hnode'.symm.trans hnode)
    refine ⟨_, List.getElem?_set_self (List.getElem?_eq_some_iff.mp hnode).1, hdeclared, ?_⟩
    rw [if_pos ⟨rfl, hsource⟩, Node.insertAlias, hexpands.aliases]
    refine hexpands.insert hplaced (fun b hb => ?_) rfl
    obtain ⟨hmem, howner⟩ := List.mem_filter.mp hb
    rw [Bool.and_eq_true, beq_iff_eq] at howner
    exact hordered b hmem howner.1
  · refine ⟨node', ?_, hdeclared, ?_⟩
    · rw [List.getElem?_set_ne howner, hnode']
    · rw [if_neg (fun h => howner h.1), List.append_nil]
      exact hexpands

theorem Expanding.step (hg : g.Waiting) (hnames : (g.nodes.map Node.name).Nodup)
    (hstate : g.Expanding settings done state) {a : PendingAlias} {after : List PendingAlias}
    (hpending : g.pending = done ++ a :: after) :
    g.Expanding settings (done ++ [a]) (expandAlias (sourceIndex settings g).1 state a).1 := by
  obtain ⟨first, hfirst, hplaced⟩ := hg.placed a (hpending ▸ List.mem_append_right _ List.mem_cons_self)
  obtain ⟨node, hnode, -, -⟩ := hstate a.owner first hfirst
  rcases hsource : g.namedSource? settings a with _ | place
  · exact hstate.step_none hnames hnode hsource
  · obtain ⟨token, htoken, hplace⟩ := namedSource?_eq_some hsource
    obtain ⟨owner, p, -, -, -, hcopy⟩ := hstate.aliasProperty?_of_some hnames htoken hplace node
    refine hstate.step_some hnode hfirst hplaced (fun b hb => ?_) (by rw [hsource, Option.isSome_some]) hcopy
    exact (List.pairwise_append.mp (hpending ▸ hg.ordered)).2.2 b hb a List.mem_cons_self

theorem Expanding.collect (hg : g.Waiting) (hnames : (g.nodes.map Node.name).Nodup) {items rest : List PendingAlias}
    (hpending : g.pending = done ++ (items ++ rest)) (hstate : g.Expanding settings done state) :
    g.Expanding settings (done ++ items)
      (Diagnostic.collect (expandAlias (sourceIndex settings g).1) state items).1 := by
  induction items generalizing done state with
  | nil => rwa [List.append_nil]
  | cons a items ih =>
    have hnext := hstate.step hg hnames hpending
    have hrest := ih (by rw [hpending, List.cons_append, List.append_assoc, List.singleton_append]) hnext
    rwa [List.append_assoc, List.singleton_append] at hrest

theorem Expanding.propertyAt?_step (hg : g.Waiting) (hstate : g.Expanding settings done state) {a : PendingAlias}
    (ha : a ∈ g.pending) {place : PropertyPosition}
    (hbehind : a.owner = place.owner → place.index < a.position + (g.insertedAt settings a.owner done).length)
    (index : SourceIndex) : (expandAlias index state a).1.propertyAt? place = state.propertyAt? place := by
  obtain ⟨first, hfirst, -⟩ := hg.placed a ha
  obtain ⟨node, hnode, -, hexpands⟩ := hstate a.owner first hfirst
  rcases hcopy : (state.aliasProperty? index node a.declared).1 with _ | copy
  · rw [expandAlias_eq_none hnode hcopy]
  · rw [expandAlias_eq_some hnode hcopy, propertyAt?, propertyAt?]
    by_cases howner : a.owner = place.owner
    · rw [← howner, List.getElem?_set_self (List.getElem?_eq_some_iff.mp hnode).1, hnode, Option.bind_some,
        Option.bind_some, Node.insertAlias, hexpands.aliases, List.getElem?_insertIdx_of_lt (hbehind howner)]
    · rw [List.getElem?_set_ne howner]

theorem Expanding.propertyAt?_collect (hg : g.Waiting) (hnames : (g.nodes.map Node.name).Nodup)
    {items : List PendingAlias} (hpending : g.pending = done ++ items) (hstate : g.Expanding settings done state)
    {place : PropertyPosition} (hbehind : ∀ a ∈ items, a.owner = place.owner →
      place.index < a.position + (g.insertedAt settings place.owner done).length) :
    (Diagnostic.collect (expandAlias (sourceIndex settings g).1) state items).1.propertyAt? place
      = state.propertyAt? place := by
  induction items generalizing done state with
  | nil => rfl
  | cons a items ih =>
    have hmem : a ∈ g.pending := hpending ▸ List.mem_append_right _ List.mem_cons_self
    have hnext := hstate.step hg hnames hpending
    have hkept := hstate.propertyAt?_step hg hmem
      (fun howner => howner ▸ hbehind a List.mem_cons_self howner) (sourceIndex settings g).1
    refine (ih (by rw [hpending, List.append_assoc, List.singleton_append]) hnext ?_).trans hkept
    intro b hb howner
    have hlt := hbehind b (List.mem_cons_of_mem _ hb) howner
    rw [insertedAt_concat, List.length_append]
    omega

theorem Expanding.propertyAt?_self (hstate : g.Expanding settings done state) {a : PendingAlias} {node first : Node}
    (hnode : state.nodes[a.owner]? = some node) (hfirst : g.nodes[a.owner]? = some first)
    (hplaced : a.position ≤ first.properties.length) {index : SourceIndex} {copy : Property.Alias}
    (hcopy : (state.aliasProperty? index node a.declared).1 = some copy) :
    (expandAlias index state a).1.propertyAt?
        ⟨a.owner, a.position + (g.insertedAt settings a.owner done).length⟩
      = some ⟨.alias copy, a.declared.span⟩ := by
  obtain ⟨node', hnode', -, hexpands⟩ := hstate a.owner first hfirst
  obtain rfl : node' = node := Option.some.inj (hnode'.symm.trans hnode)
  have hlength := hexpands.length
  rw [expandAlias_eq_some hnode hcopy, propertyAt?,
    List.getElem?_set_self (List.getElem?_eq_some_iff.mp hnode).1, Option.bind_some, Node.insertAlias,
    hexpands.aliases, List.getElem?_insertIdx_self, if_pos (by omega)]

end Graph

/-! ### What is copied -/

/-- An alias copies a property of the class that its token names: the source and the name are those of the token,
and what it has of its own is that of the property. -/
structure Property.Alias.Copies (a : Property.Alias) (token : AliasToken) (p : Property) : Prop where
  source : a.source = ⟨token.klass, token.property⟩
  name : a.name = token.before.getD "" ++ token.property ++ token.after.getD ""
  required : a.required = p.isRequired
  many : a.many = p.isMany
  role : a.role = p.role
  field : ∀ field, p = .field field → a.domain = some field.domain
    ∧ a.column = some (Naming.affixColumn field.column token.before token.after)
  association : ∀ association, p = .association association →
    a.linkedClass = some association.target ∧ a.domain = none ∧ a.column = none

namespace Graph

variable {settings : Settings} {declared : Declaration.Alias} {token : AliasToken} {owner : Class}

theorem copies_aliasOf (howner : owner.name = token.klass) {p : Property} (hp : p.name = token.property) :
    (aliasOf declared token owner p).Copies token p where
  source := by rw [← howner, ← hp]; rfl
  name := by rw [← hp]; rfl
  required := rfl
  many := rfl
  role := rfl
  field field hfield := by
    subst hfield
    exact ⟨rfl, rfl⟩
  association association hassociation := by
    subst hassociation
    exact ⟨rfl, rfl, rfl⟩

/-- A property that may not be copied is told from a source by its domain or by the class it leads to. -/
theorem not_copies_aliasOf {p q : Property} (hp : isAliasSource settings p = true)
    (hq : isAliasSource settings q = false)
    (hunbound : ∀ association, q = .association association → association.domain = none) :
    ¬ (aliasOf declared token owner q).Copies token p := by
  intro hcopies
  cases p with
  | field f =>
    have hdomain := (hcopies.field f rfl).1
    cases q with
    | field other =>
      have hsame : some other.domain = some f.domain := hdomain
      have hsource : isAliasSource settings (.field other) = isAliasSource settings (.field f) := by
        simp only [isAliasSource, Property.isAlias, Property.isPersisted, Property.domain, hsame]
      rw [hsource, hp] at hq
      cases hq
    | _ => cases hdomain
  | association a =>
    obtain ⟨hlink, hdomain, -⟩ := hcopies.association a rfl
    cases q with
    | field other => cases hdomain
    | association other =>
      have hnone : (Property.association other).domain = none := hunbound other rfl
      rw [isAliasSource, hnone] at hq
      cases hq
    | _ => cases hlink
  | _ => cases hp

theorem domain_of_bind {files : List LoadedFile} {g : Graph} {problems : List Diagnostic}
    (hbind : Graph.bind files = .ok (g, problems)) {node : Node} (hnode : node ∈ g.nodes) {p : Spanned Property}
    (hp : p ∈ node.properties) {association : Property.Association} (hvalue : p.value = .association association) :
    association.domain = none := by
  obtain ⟨trigram, property, hdeclared⟩ := ofDeclaration?_of_bind hbind hnode hp
  rw [hvalue] at hdeclared
  cases property with
  | association declared => cases hdeclared; rfl
  | _ => cases hdeclared

/-- A source is copied if it stands where it has been declared, and nothing that has moved there is like it. -/
theorem copies_aliasOf_iff {inserted : List PendingAlias} {first node : Node}
    (hexpands : Expands inserted first.properties node.properties) (hname : node.name = token.klass) {index : Nat}
    (hindex : first.sourceIndex? settings token.property = some index) {p q : Spanned Property}
    (hp : first.properties[index]? = some p) (hq : node.properties[index]? = some q)
    (hunbound : ∀ r ∈ first.properties, ∀ association, r.value = .association association →
      association.domain = none) :
    (aliasOf declared token node.toClass q.value).Copies token p.value ↔ ∀ b ∈ inserted, index < b.position := by
  obtain ⟨hlt, hfound, hfirst⟩ := List.findIdx?_eq_some_iff_getElem.mp hindex
  obtain rfl : first.properties[index] = p := Option.some.inj ((List.getElem?_eq_getElem hlt).symm.trans hp)
  rw [Bool.and_eq_true, beq_iff_eq] at hfound
  refine ⟨fun hcopies b hb => Nat.lt_of_not_le fun hle => ?_, fun hbehind => ?_⟩
  · rcases hexpands.moved index q ⟨b, hb, hle⟩ hq with halias | ⟨j, hj, hmoved⟩
    · refine not_copies_aliasOf hfound.1 ?_ (fun association hvalue => ?_) hcopies
      · rw [isAliasSource, halias]
        rfl
      · rw [hvalue] at halias
        cases halias
    · obtain ⟨hjlt, hq'⟩ := List.getElem?_eq_some_iff.mp hmoved
      have hproperty : q.value.name = token.property := congrArg PropertyPath.property hcopies.source
      have hnot := hfirst j hj
      rw [hq', hproperty, beq_self_eq_true, Bool.and_true, Bool.not_eq_true] at hnot
      exact not_copies_aliasOf hfound.1 hnot (hunbound q (List.mem_of_getElem? hmoved)) hcopies
  · rw [hexpands.kept index hbehind, hp] at hq
    cases hq
    exact copies_aliasOf hname hfound.2

theorem forall_insertedAt_iff {g : Graph} {owner index : Nat} {aliases : List PendingAlias} :
    (∀ b ∈ g.insertedAt settings owner aliases, index < b.position)
      ↔ ∀ b ∈ aliases, b.owner = owner → b.position ≤ index → g.namedSource? settings b = none := by
  simp only [insertedAt, List.mem_filter, Bool.and_eq_true, beq_iff_eq, Option.isSome_iff_ne_none]
  refine ⟨fun h b hb howner hle => ?_, fun h b ⟨hb, howner, hsome⟩ => ?_⟩
  · exact Classical.not_not.mp fun hsome => absurd (h b ⟨hb, howner, hsome⟩) (Nat.not_lt_of_le hle)
  · exact Nat.lt_of_not_le fun hle => hsome (h b hb howner hle)

/-- **An alias copies the source that its token names** if and only if no alias before it is inserted in the class
of the source, at the place of the source or before. In any case it is inserted where it is declared. -/
theorem expandAliases_copies {files : List LoadedFile} {g : Graph} {problems : List Diagnostic}
    (hbind : Graph.bind files = .ok (g, problems)) {before after : List PendingAlias} {a : PendingAlias}
    (hpending : g.pending = before ++ a :: after) (htoken : AliasToken.parse? a.declared.token.value = some token)
    {place : PropertyPosition} (hplace : g.sourcePlace? settings token = some place) {p : Spanned Property}
    (hp : g.propertyAt? place = some p) :
    ∃ copy, (g.expandAliases settings).1.propertyAt?
        ⟨a.owner, a.position + (g.insertedAt settings a.owner before).length⟩ = some ⟨.alias copy, a.declared.span⟩
      ∧ (copy.Copies token p.value ↔ ∀ b ∈ before, b.owner = place.owner → b.position ≤ place.index →
        g.namedSource? settings b = none) := by
  have hwaiting := waiting_of_bind hbind
  have hnames := (bound_of_bind hbind).names
  have hstart : g.Expanding settings [] { g with pending := [] } :=
    .start fun _ hnode _ hp => isAlias_of_bind hbind hnode hp
  have hstate := hstart.collect hwaiting hnames hpending
  rw [List.nil_append] at hstate
  have hcollect : (g.expandAliases settings).1 = (Diagnostic.collect (expandAlias (sourceIndex settings g).1)
      { g with pending := [] } (before ++ a :: after)).1 := by
    rw [← hpending]
    rfl
  rw [Diagnostic.collect_append] at hcollect
  generalize (Diagnostic.collect (expandAlias (sourceIndex settings g).1) { g with pending := [] } before).1
    = state at hstate hcollect
  obtain ⟨target, htarget, hplaced⟩ := hwaiting.placed a (hpending ▸ List.mem_append_right _ List.mem_cons_self)
  obtain ⟨node, hnode, -, -⟩ := hstate a.owner target htarget
  obtain ⟨owner, q, howner, hname, hq, hcopy⟩ := hstate.aliasProperty?_of_some hnames htoken hplace node
  refine ⟨aliasOf a.declared token owner.toClass q.value, ?_, ?_⟩
  · rw [hcollect, ← hstate.propertyAt?_self hnode htarget hplaced hcopy]
    refine (hstate.step hwaiting hnames hpending).propertyAt?_collect hwaiting hnames
      (by rw [hpending, List.append_assoc, List.singleton_append]) fun b hb hsame => ?_
    have hordered := (List.pairwise_append.mp (hpending ▸ hwaiting.ordered)).2.1
    have hle := (List.pairwise_cons.mp hordered).1 b hb hsame.symm
    rw [insertedAt_concat, if_pos ⟨rfl, by rw [namedSource?, htoken, Option.bind_some, hplace, Option.isSome_some]⟩,
      List.length_append, List.length_singleton]
    exact Nat.lt_succ_of_le (Nat.add_le_add_right hle _)
  · obtain ⟨first, hfirst, -, hindex⟩ := sourcePlace?_eq_some hplace
    obtain ⟨owner', howner', -, hexpands⟩ := hstate place.owner first hfirst
    obtain rfl : owner' = owner := Option.some.inj (howner'.symm.trans howner)
    rw [propertyAt?, hfirst, Option.bind_some] at hp
    rw [copies_aliasOf_iff hexpands hname hindex hp hq fun r hr association hvalue =>
      domain_of_bind hbind (List.mem_of_getElem? hfirst) hr hvalue, forall_insertedAt_iff]

open Written (copy field dataFile plain)

/-- Two classes that alias each other, the first before its fields. The second has an alias of its own key too. -/
def crossed : List LoadedFile :=
  [dataFile "M" [] [] [
    plain "A" [copy "B_Code" ⟨0, 0⟩, field "Id" "DO_ID" ⟨0, 0⟩, field "Name" "DO_TEXT" ⟨0, 0⟩] ⟨0, 0⟩,
    plain "B" [field "Key" "DO_ID" ⟨0, 0⟩, field "Code" "DO_TEXT" ⟨0, 0⟩, copy "A_Name" ⟨0, 0⟩,
      copy "B_Key_Own" ⟨0, 0⟩] ⟨0, 0⟩]]

def crossedGraph : Graph := ((Graph.bind crossed).toOption.map Prod.fst).getD {}

def crossedAlias (token : String) : PendingAlias := ⟨1, 2, ⟨⟨token, ⟨0, 0⟩⟩, none, ⟨0, 0⟩⟩⟩

theorem bind_crossed : ∃ problems, Graph.bind crossed = .ok (crossedGraph, problems) := by
  rcases hbind : Graph.bind crossed with fault | ⟨g, problems⟩
  · have hok : (Graph.bind crossed).isOk = true := by decide +kernel
    rw [hbind] at hok
    cases hok
  · exact ⟨problems, by rw [crossedGraph, hbind]; rfl⟩

theorem expandAliases_copies_own_key :
    ∃ problems p copy, Graph.bind crossed = .ok (crossedGraph, problems)
      ∧ crossedGraph.propertyAt? ⟨1, 0⟩ = some p
      ∧ (crossedGraph.expandAliases {}).1.propertyAt? ⟨1, 3⟩ = some ⟨.alias copy, ⟨0, 0⟩⟩
      ∧ copy.Copies ⟨"B", "Key", some "Own", none⟩ p.value := by
  obtain ⟨problems, hbind⟩ := bind_crossed
  obtain ⟨p, hp⟩ := Option.isSome_iff_exists.mp
    (show (crossedGraph.propertyAt? ⟨1, 0⟩).isSome = true by decide +kernel)
  have hpending : crossedGraph.pending = crossedGraph.pending.take 2 ++ crossedAlias "B_Key_Own" :: [] := by
    decide +kernel
  have htoken : AliasToken.parse? (crossedAlias "B_Key_Own").declared.token.value
      = some ⟨"B", "Key", some "Own", none⟩ := by decide +kernel
  have hplace : crossedGraph.sourcePlace? {} ⟨"B", "Key", some "Own", none⟩ = some ⟨1, 0⟩ := by decide +kernel
  obtain ⟨copy, hcopy, hiff⟩ := expandAliases_copies hbind hpending htoken hplace hp
  have hinserted : (crossedGraph.insertedAt {} 1 (crossedGraph.pending.take 2)).length = 1 := by decide +kernel
  rw [crossedAlias, hinserted] at hcopy
  exact ⟨problems, p, copy, hbind, hp, hcopy, hiff.mpr (by decide +kernel)⟩

/-- The other alias names a source behind an alias of the first class, and copies the property before it. -/
theorem expandAliases_misses_source :
    ∃ (settings : Settings) (files : List LoadedFile) (g : Graph) (problems : List Diagnostic)
      (before after : List PendingAlias) (a : PendingAlias) (token : AliasToken) (place : PropertyPosition)
      (p : Spanned Property), Graph.bind files = .ok (g, problems) ∧ g.pending = before ++ a :: after
        ∧ AliasToken.parse? a.declared.token.value = some token ∧ g.sourcePlace? settings token = some place
        ∧ g.propertyAt? place = some p
        ∧ ¬ ∃ copy, (g.expandAliases settings).1.propertyAt?
            ⟨a.owner, a.position + (g.insertedAt settings a.owner before).length⟩ = some ⟨.alias copy, a.declared.span⟩
          ∧ copy.Copies token p.value := by
  obtain ⟨problems, hbind⟩ := bind_crossed
  obtain ⟨p, hp⟩ := Option.isSome_iff_exists.mp
    (show (crossedGraph.propertyAt? ⟨0, 1⟩).isSome = true by decide +kernel)
  refine ⟨{}, crossed, crossedGraph, problems, crossedGraph.pending.take 1, crossedGraph.pending.drop 2,
    crossedAlias "A_Name", ⟨"A", "Name", none, none⟩, ⟨0, 1⟩, p, hbind, by decide +kernel, by decide +kernel,
    by decide +kernel, hp, ?_⟩
  rintro ⟨copy, hcopy, hcopies⟩
  have hnone : crossedGraph.insertedAt {} 1 (crossedGraph.pending.take 1) = [] := by decide +kernel
  have hname : ((crossedGraph.expandAliases {}).1.propertyAt? ⟨1, 2⟩).map (·.value.name) = some "Id" := by
    decide +kernel
  rw [crossedAlias, hnone, List.length_nil, Nat.add_zero] at hcopy
  rw [hcopy, Option.map_some] at hname
  exact absurd ((Option.some.inj hname).symm.trans hcopies.name) (by decide)

end Graph

end EntityModel
