import EntityModel.Proofs.Outline

/-!
# The sources of aliases

The class and the property in the key of a token have no underscore, so that no other property has this key.
What the index holds for it is then the place of the first such property that may be copied
(`lookup_sourceIndex`).
-/

namespace EntityModel

/-! ### Keys of tokens -/

theorem not_mem_of_mem_splitOn {c : Char} {text piece : List Char} (h : piece ∈ text.splitOn c) : c ∉ piece := by
  induction text generalizing piece with
  | nil =>
    obtain rfl := List.mem_singleton.mp h
    exact List.not_mem_nil
  | cons first rest ih =>
    rw [List.splitOn_cons_eq_if_modifyHead] at h
    split at h
    · rcases List.mem_cons.mp h with rfl | h
      · exact List.not_mem_nil
      · exact ih h
    · next hfirst =>
      obtain ⟨head, pieces, hpieces⟩ := List.exists_cons_of_ne_nil (List.splitOn_ne_nil c rest)
      rw [hpieces, List.modifyHead_cons] at h
      rw [hpieces] at ih
      rcases List.mem_cons.mp h with rfl | h
      · rw [List.mem_cons, not_or]
        exact ⟨fun heq => hfirst (heq ▸ beq_self_eq_true c), ih List.mem_cons_self⟩
      · exact ih (List.mem_cons_of_mem _ h)

theorem append_cons_inj {α : Type} {c : α} {a b a' b' : List α} (ha : c ∉ a') (hb : c ∉ b')
    (h : a ++ c :: b = a' ++ c :: b') : a = a' ∧ b = b' := by
  rcases List.append_eq_append_iff.mp h with ⟨mid, hmid, hrest⟩ | ⟨mid, hmid, hrest⟩
  · cases mid with
    | nil =>
      rw [List.append_nil] at hmid
      exact ⟨hmid.symm, (List.cons.inj hrest).2⟩
    | cons first mid =>
      obtain ⟨rfl, -⟩ := List.cons.inj hrest
      exact absurd (hmid ▸ List.mem_append_right _ List.mem_cons_self) ha
  · cases mid with
    | nil =>
      rw [List.append_nil] at hmid
      exact ⟨hmid, (List.cons.inj hrest).2.symm⟩
    | cons first mid =>
      have htail : b' = mid ++ c :: b := (List.cons.inj hrest).2
      exact absurd (htail ▸ List.mem_append_right _ List.mem_cons_self) hb

namespace AliasToken

theorem not_mem_of_parse? {text : String} {token : AliasToken} (h : parse? text = some token) :
    '_' ∉ token.klass.toList ∧ '_' ∉ token.property.toList := by
  unfold parse? at h
  split at h
  · next klass property affixes hsplit =>
    split at h
    · cases h
    · cases h
      have hpart : ∀ piece ∈ klass :: property :: affixes, '_' ∉ piece := fun piece hpiece =>
        not_mem_of_mem_splitOn (hsplit ▸ hpiece)
      rw [String.toList_ofList, String.toList_ofList]
      exact ⟨hpart klass List.mem_cons_self, hpart property (List.mem_cons_of_mem _ List.mem_cons_self)⟩
  · cases h

theorem toList_indexKey (klass property : String) :
    (indexKey klass property).toList = klass.toList ++ '_' :: property.toList := by
  rw [indexKey, String.toList_append, String.toList_append, List.append_assoc]
  rfl

theorem indexKey_eq_key_iff {text : String} {token : AliasToken} (h : parse? text = some token)
    {klass property : String} :
    indexKey klass property = token.key ↔ klass = token.klass ∧ property = token.property := by
  refine ⟨fun heq => ?_, fun ⟨hklass, hproperty⟩ => by rw [hklass, hproperty, key]⟩
  have hlist := congrArg String.toList heq
  rw [key, toList_indexKey, toList_indexKey] at hlist
  obtain ⟨hklass, hproperty⟩ := not_mem_of_parse? h
  obtain ⟨hsame, hsame'⟩ := append_cons_inj hklass hproperty hlist
  exact ⟨String.toList_inj.mp hsame, String.toList_inj.mp hsame'⟩

end AliasToken

/-! ### The index as a list of entries -/

namespace Graph

variable {settings : Settings} {g : Graph}

/-- The entries that a class has for the index, the first of a key before the others. -/
def nodeEntries (settings : Settings) (place : Node × Nat) : SourceIndex :=
  (place.1.properties.zipIdx.filter fun (p, _) => isAliasSource settings p.value).map fun (p, index) =>
    (AliasToken.indexKey place.1.name p.value.name, ⟨place.2, index⟩)

/-- Where each step enters what has no entry yet, the first entries of all steps are there in the end. -/
theorem lookup_collect {α : Type} {step : SourceIndex → α → SourceIndex × List Diagnostic}
    {entries : α → SourceIndex} {key : String}
    (hstep : ∀ index item, (step index item).1.lookup key
      = (index.lookup key).or ((entries item).lookup key))
    (index : SourceIndex) (items : List α) :
    (Diagnostic.collect step index items).1.lookup key
      = (index.lookup key).or ((items.flatMap entries).lookup key) := by
  induction items generalizing index with
  | nil => rw [Diagnostic.collect, List.flatMap_nil, List.lookup_nil, Option.or_none]
  | cons item rest ih =>
    rw [Diagnostic.collect, ih, hstep, List.flatMap_cons, List.lookup_append, Option.or_assoc]

theorem lookup_or_lookup_singleton {index : SourceIndex} {first place : PropertyPosition} {key key' : String}
    (h : index.lookup key' = some first) :
    (index.lookup key).or (List.lookup key [(key', place)]) = index.lookup key := by
  by_cases hkey : key = key'
  · rw [hkey, h, Option.some_or]
  · rw [List.lookup_cons, beq_false_of_ne hkey, List.lookup_nil, Option.or_none]

theorem lookup_indexProperty (owner : Nat) (node : Node) (key : String) (index : SourceIndex)
    (place : Spanned Property × Nat) :
    (g.indexProperty owner node index place).1.lookup key = (index.lookup key).or
      (List.lookup key [(AliasToken.indexKey node.name place.1.value.name, ⟨owner, place.2⟩)]) := by
  obtain ⟨p, position⟩ := place
  unfold indexProperty
  dsimp only
  split
  · rw [List.lookup_append]
  · next first hfirst =>
    rw [lookup_or_lookup_singleton hfirst]
    split <;> rfl

theorem lookup_indexNode (key : String) (index : SourceIndex) (place : Node × Nat) :
    (g.indexNode settings index place).1.lookup key
      = (index.lookup key).or ((nodeEntries settings place).lookup key) := by
  rw [indexNode, lookup_collect (fun index p => lookup_indexProperty place.2 place.1 key index p), nodeEntries,
    List.map_eq_flatMap]

/-! ### Places of sources -/

end Graph

/-- The position of the first property of a name that aliases may copy. -/
def Node.sourceIndex? (settings : Settings) (node : Node) (name : String) : Option Nat :=
  node.properties.findIdx? fun p => Graph.isAliasSource settings p.value && p.value.name == name

namespace Graph

variable {settings : Settings} {g : Graph}

/-- The place of the first property that a token may stand for, in the class of its name. -/
def sourcePlace? (settings : Settings) (g : Graph) (token : AliasToken) : Option PropertyPosition :=
  (g.position? token.klass).bind fun owner => (g.nodes[owner]?).bind fun node =>
    (node.sourceIndex? settings token.property).map (PropertyPosition.mk owner)

theorem sourcePlace?_eq_some {token : AliasToken} {place : PropertyPosition}
    (h : g.sourcePlace? settings token = some place) :
    ∃ owner, g.nodes[place.owner]? = some owner ∧ owner.name = token.klass
      ∧ owner.sourceIndex? settings token.property = some place.index := by
  obtain ⟨position, hposition, hrest⟩ := Option.bind_eq_some_iff.mp h
  obtain ⟨owner, howner, hsource⟩ := Option.bind_eq_some_iff.mp hrest
  obtain ⟨index, hindex, rfl⟩ := Option.map_eq_some_iff.mp hsource
  obtain ⟨hlt, hname, -⟩ := List.findIdx?_eq_some_iff_getElem.mp hposition
  obtain rfl : g.nodes[position] = owner := Option.some.inj ((List.getElem?_eq_getElem hlt).symm.trans howner)
  exact ⟨_, howner, by simpa using hname, hindex⟩

variable {text : String} {token : AliasToken}

theorem lookup_nodeEntries_of_ne (htoken : AliasToken.parse? text = some token) {place : Node × Nat}
    (hname : place.1.name ≠ token.klass) : (nodeEntries settings place).lookup token.key = none := by
  refine List.lookup_eq_none_iff.mpr fun entry hentry => ?_
  obtain ⟨p, -, rfl⟩ := List.mem_map.mp hentry
  refine bne_iff_ne.mpr fun heq => ?_
  exact hname ((AliasToken.indexKey_eq_key_iff htoken).mp heq.symm).1

theorem lookup_nodeEntries (htoken : AliasToken.parse? text = some token) {node : Node} (owner : Nat)
    (hname : node.name = token.klass) :
    (nodeEntries settings (node, owner)).lookup token.key
      = (node.sourceIndex? settings token.property).map (PropertyPosition.mk owner) := by
  suffices h : ∀ (properties : List (Spanned Property)) (n : Nat),
      (((properties.zipIdx n).filter fun (p, _) => isAliasSource settings p.value).map fun (p, index) =>
        (AliasToken.indexKey node.name p.value.name, PropertyPosition.mk owner index)).lookup token.key
      = (properties.findIdx? fun p => isAliasSource settings p.value && p.value.name == token.property).map
        fun index => ⟨owner, index + n⟩ from h node.properties 0
  intro properties
  induction properties with
  | nil => exact fun n => rfl
  | cons p rest ih =>
    intro n
    have hrest := ih (n + 1)
    have hshift : (fun index => PropertyPosition.mk owner (index + n)) ∘ (· + 1)
        = fun index => ⟨owner, index + (n + 1)⟩ := by
      funext index
      simp only [Function.comp_apply, Nat.add_assoc, Nat.add_comm 1 n]
    rw [List.zipIdx_cons, List.filter_cons, List.findIdx?_cons]
    by_cases hsource : isAliasSource settings p.value = true
    · rw [if_pos hsource, List.map_cons, List.lookup_cons]
      by_cases hproperty : p.value.name = token.property
      · rw [hname, hproperty]
        simp [hsource, AliasToken.key]
      · have hkey : token.key ≠ AliasToken.indexKey node.name p.value.name := fun heq =>
          hproperty ((AliasToken.indexKey_eq_key_iff htoken).mp heq.symm).2
        rw [beq_false_of_ne hkey, beq_false_of_ne hproperty, Bool.and_false, if_neg Bool.false_ne_true,
          Option.map_map, hshift]
        exact hrest
    · rw [if_neg hsource, Bool.eq_false_iff.mpr hsource, Bool.false_and, if_neg Bool.false_ne_true,
        Option.map_map, hshift]
      exact hrest

/-- **The index holds the first property that a token may stand for**, and nothing else for it. -/
theorem lookup_sourceIndex (hnames : (g.nodes.map Node.name).Nodup)
    (htoken : AliasToken.parse? text = some token) :
    (sourceIndex settings g).1.lookup token.key = g.sourcePlace? settings token := by
  suffices h : ∀ (nodes : List Node) (n : Nat), (nodes.map Node.name).Nodup →
      ((nodes.zipIdx n).flatMap (nodeEntries settings)).lookup token.key
      = (nodes.findIdx? (·.name == token.klass)).bind fun owner => (nodes[owner]?).bind fun node =>
        (node.sourceIndex? settings token.property).map (PropertyPosition.mk (owner + n)) by
    rw [sourceIndex, lookup_collect (fun index place => lookup_indexNode token.key index place)]
    exact h g.nodes 0 hnames
  intro nodes
  induction nodes with
  | nil => exact fun n _ => rfl
  | cons node rest ih =>
    intro n hnames
    obtain ⟨hnew, hnames⟩ := List.nodup_cons.mp hnames
    rw [List.zipIdx_cons, List.flatMap_cons, List.lookup_append, List.findIdx?_cons]
    by_cases hname : node.name = token.klass
    · have hrest : ((rest.zipIdx (n + 1)).flatMap (nodeEntries settings)).lookup token.key = none := by
        rw [ih (n + 1) hnames, List.findIdx?_eq_none_iff.mpr ?_, Option.bind_none]
        refine fun other hother => beq_false_of_ne fun heq => hnew ?_
        exact hname ▸ heq ▸ List.mem_map_of_mem hother
      rw [lookup_nodeEntries htoken n hname, hrest, Option.or_none, hname, beq_self_eq_true, if_pos rfl,
        Option.bind_some, List.getElem?_cons_zero, Option.bind_some, Nat.zero_add]
    · rw [lookup_nodeEntries_of_ne htoken hname, Option.none_or, ih (n + 1) hnames, beq_false_of_ne hname,
        if_neg Bool.false_ne_true, Option.bind_map]
      congr 1
      funext owner
      simp only [Function.comp_apply, List.getElem?_cons_succ, Nat.add_assoc, Nat.add_comm 1 n]

end Graph

end EntityModel
