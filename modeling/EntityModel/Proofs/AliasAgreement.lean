import EntityModel.Proofs.AliasCopies
import EntityModel.Proofs.Published

/-!
# Aliases agree with their sources

The expansion fills in what an alias of a field takes from it, and the binding of foreign keys what an alias of an
association takes: it binds both to the key of one class, in graphs that differ in nothing that the binding looks at
(`agrees_of_association`). Names of properties are distinct in a published model, so that the source that an alias
tells is the property it has been made from. Main result: `alias_agrees_of_run`.
-/

namespace EntityModel

open Diagnostic (hasErrors)

/-- An alias agrees with a property of a class: its name and its column are those of the property between the affixes
of the alias, it refers to what an association refers to, and to a field if that keys the rows of its class. -/
structure Property.Alias.AgreesWith (a : Property.Alias) (owner : Class) (p : Property) : Prop where
  name : a.name = a.before.getD "" ++ p.name ++ a.after.getD ""
  domain : a.domain = p.domain
  required : a.required = p.isRequired
  many : a.many = p.isMany
  role : a.role = p.role
  column : ∃ column, p.column = some column ∧ a.column = some (Naming.affixColumn column a.before a.after)
  association : ∀ s, p = .association s → a.reference = s.reference
  field : ∀ f, p = .field f → (a.reference.isSome = true
    ↔ (owner.stereotype = some .enumeration ∨ owner.stereotype = some .reference)
      ∧ (f.primaryKey = true ∨ owner.uniqueKey = some f.name))

theorem Class.hasRows_iff {c : Class} :
    c.hasRows = true ↔ c.stereotype = some .enumeration ∨ c.stereotype = some .reference := by
  rw [hasRows]
  rcases c.stereotype with _ | _ | _ | _ <;> decide

namespace Graph

variable {settings : Settings} {g g' : Graph}

/-! ### Names of properties -/

theorem nodup_of_repeatedNames {seen : List String} {properties : List (Spanned Property)}
    (h : repeatedNames seen properties = []) :
    (properties.map (·.value.name)).Nodup ∧ ∀ p ∈ properties, p.value.name ∉ seen := by
  induction properties generalizing seen with
  | nil => exact ⟨List.nodup_nil, fun _ hp => absurd hp List.not_mem_nil⟩
  | cons p rest ih =>
    rw [repeatedNames] at h
    split at h
    · cases h
    · next hnew =>
      obtain ⟨hnodup, hseen⟩ := ih h
      refine ⟨List.nodup_cons.mpr ⟨fun hmem => ?_, hnodup⟩, fun q hq => ?_⟩
      · obtain ⟨q, hq, hname⟩ := List.mem_map.mp hmem
        exact hseen q hq (hname ▸ List.mem_cons_self)
      · rcases List.mem_cons.mp hq with rfl | hq
        · exact mt List.contains_iff_mem.mpr hnew
        · exact fun hmem => hseen q hq (List.mem_cons_of_mem _ hmem)

theorem nodup_names_of_clean (hclean : hasErrors (g.propertyDiagnostics settings) = false) {node : Node}
    (hnode : node ∈ g.nodes) : (node.properties.map (·.value.name)).Nodup := by
  have hfound := Diagnostic.hasErrors_of_flatMap hclean hnode
  simp only [Diagnostic.hasErrors_append, Bool.or_eq_false_iff] at hfound
  have hnames := hfound.1.1
  unfold nameDiagnostics at hnames
  rcases hrepeated : repeatedNames [] node.properties with _ | ⟨p, rest⟩
  · exact (nodup_of_repeatedNames hrepeated).1
  · rw [hrepeated] at hnames
    cases hnames

theorem nodup_names_before (hclean : hasErrors ((g.bindForeignKeys settings).1.propertyDiagnostics settings) = false)
    {node : Node} (hnode : node ∈ g.nodes) : (node.properties.map (·.value.name)).Nodup := by
  have hmem : node.properties.map (·.value.name) ∈ (g.bindForeignKeys settings).1.propertyNames := by
    rw [propertyNames_bindForeignKeys]
    exact List.mem_map_of_mem hnode
  obtain ⟨bound, hbound, hsame⟩ := List.mem_map.mp hmem
  exact hsame ▸ nodup_names_of_clean hclean hbound

/-! ### What an alias is made from -/

/-- An alias is the copy that a declaration makes of a property of a class. -/
def Copied (g : Graph) (a : Property.Alias) : Prop :=
  ∃ declared token, ∃ owner ∈ g.nodes, ∃ p ∈ owner.properties, a = aliasOf declared token owner.toClass p.value

theorem aliasOf_congr {owner owner' : Node} (h : owner.declared = owner'.declared) (declared : Declaration.Alias)
    (token : AliasToken) (p : Property) :
    aliasOf declared token owner.toClass p = aliasOf declared token owner'.toClass p := by
  obtain ⟨_, _, _, _⟩ := owner
  obtain ⟨_, _, _, _⟩ := owner'
  obtain rfl := h
  rfl

theorem Copied.mono {a : Property.Alias} (ha : Copied g a)
    (h : ∀ owner ∈ g.nodes, ∃ owner' ∈ g'.nodes, owner.declared = owner'.declared
      ∧ ∀ p ∈ owner.properties, p ∈ owner'.properties) : Copied g' a := by
  obtain ⟨declared, token, owner, howner, p, hp, rfl⟩ := ha
  obtain ⟨owner', howner', hdeclared, hsub⟩ := h owner howner
  exact ⟨declared, token, owner', howner', p, hsub p hp, aliasOf_congr hdeclared declared token p.value⟩

theorem copied_of_aliasProperty? {index : SourceIndex} {node : Node} {declared : Declaration.Alias}
    {a : Property.Alias} (ha : (g.aliasProperty? index node declared).1 = some a) : Copied g a := by
  rw [aliasProperty?_fst] at ha
  obtain ⟨token, -, hcopy⟩ := Option.bind_eq_some_iff.mp ha
  obtain ⟨⟨owner, source⟩, hsource, rfl⟩ := Option.map_eq_some_iff.mp hcopy
  obtain ⟨howner, p, hp, rfl⟩ := source?_eq_some hsource
  exact ⟨declared, token, owner, howner, p, hp, rfl⟩

/-- Every alias of every class is a copy. -/
def AliasesCopied (g : Graph) : Prop :=
  ∀ node ∈ g.nodes, ∀ p ∈ node.properties, ∀ a, p.value = .alias a → Copied g a

theorem mem_properties_insertAlias {node : Node} {p : Spanned Property} (hp : p ∈ node.properties) (position : Nat)
    (entry : Spanned Property) : p ∈ (Node.insertAlias node position entry).properties := by
  rw [Node.insertAlias]
  by_cases hbound : position + node.properties.countP (·.value.isAlias) ≤ node.properties.length
  · exact (List.mem_insertIdx hbound).mpr (Or.inr hp)
  · rw [List.insertIdx_of_length_lt (Nat.lt_of_not_le hbound)]
    exact hp

theorem exists_node_expandAlias (index : SourceIndex) (pending : PendingAlias) {other : Node}
    (hother : other ∈ g.nodes) :
    ∃ other' ∈ (expandAlias index g pending).1.nodes, other.outline = other'.outline
      ∧ other.properties ⊆ other'.properties := by
  rcases hnode : g.nodes[pending.owner]? with _ | node
  · simp only [expandAlias, hnode]
    exact ⟨other, hother, rfl, List.Subset.refl _⟩
  · rcases ha : (g.aliasProperty? index node pending.declared).1 with _ | a
    · rw [expandAlias_eq_none hnode ha]
      exact ⟨other, hother, rfl, List.Subset.refl _⟩
    · rw [expandAlias_eq_some hnode ha]
      refine exists_mem_set (fun before after => before.outline = after.outline ∧ before.properties ⊆ after.properties)
        (fun _ => ⟨rfl, List.Subset.refl _⟩) hnode ⟨?_, fun p hp => ?_⟩ hother
      · exact (outline_insertAlias node pending.position rfl).symm
      · exact mem_properties_insertAlias hp pending.position _

theorem AliasesCopied.expandAlias (hg : AliasesCopied g) (index : SourceIndex) (pending : PendingAlias) :
    AliasesCopied (expandAlias index g pending).1 := by
  intro node' hnode' p hp a hvalue
  have hkept (owner : Node) (howner : owner ∈ g.nodes) : ∃ owner' ∈ (Graph.expandAlias index g pending).1.nodes,
      owner.declared = owner'.declared ∧ ∀ p ∈ owner.properties, p ∈ owner'.properties := by
    obtain ⟨owner', howner', hsame, hsub⟩ := exists_node_expandAlias index pending howner
    exact ⟨owner', howner', Node.declared_congr hsame, fun p hp => hsub hp⟩
  obtain ⟨node, hnode, -, hold | ⟨a', hnew, -, ha⟩⟩ := mem_properties_expandAlias hnode' hp
  · exact (hg node hnode p hold a hvalue).mono hkept
  · obtain rfl := Property.alias.inj (hvalue.symm.trans hnew)
    exact (copied_of_aliasProperty? ha).mono hkept

theorem aliasesCopied_expandAliases (hnone : ∀ node ∈ g.nodes, ∀ p ∈ node.properties, p.value.isAlias = false) :
    AliasesCopied (g.expandAliases settings).1 := by
  unfold expandAliases
  dsimp only
  refine Diagnostic.collect_induction (fun _ (state : Graph) _ => AliasesCopied state) ?_ ?_
  · intro _ pending _ state _ _ hstate
    exact hstate.expandAlias _ pending
  · intro node hnode p hp a hvalue
    have hp' := hnone node hnode p hp
    rw [hvalue] at hp'
    cases hp'

/-! ### What a property is bound to -/

theorem toKey?_congr {target target' : Node} (h : target.declared = target'.declared) (key : Property)
    (role : Option String) :
    KeyBinding.toKey? settings target.toClass key role = KeyBinding.toKey? settings target'.toClass key role := by
  obtain ⟨_, _, _, _⟩ := target
  obtain ⟨_, _, _, _⟩ := target'
  obtain rfl := h
  rfl

variable {declared : Declaration.Alias} {token : AliasToken} {owner : Class} {file file' : FileId}
  {a : Property.Alias} {p : Property}

theorem BoundFrom.exists_alias (h : BoundFrom settings g file (.alias a) p) :
    ∃ b, p = .alias b ∧ b.source = a.source := by
  rcases hlink : a.linkedClass with _ | name
  · exact ⟨a, h.1 hlink, rfl⟩
  · obtain ⟨_, _, -, -, -, _, binding, -, -, rfl⟩ := h.2 name hlink
    unfold Property.bound
    dsimp only
    split
    · exact ⟨_, rfl, rfl⟩
    · exact ⟨_, rfl, rfl⟩

theorem BoundFrom.of_alias (h : BoundFrom settings g file p (.alias a)) :
    ∃ b, p = .alias b ∧ b.source = a.source := by
  cases p with
  | field f => cases h.1 rfl
  | association s =>
    obtain ⟨_, _, -, -, -, _, _, -, -, hbound⟩ := h.2 s.target rfl
    cases hbound
  | composition c =>
    obtain ⟨_, _, -, -, -, hbound⟩ := h.2 c.target rfl
    cases hbound
  | «alias» b =>
    obtain ⟨a', hsame, hsource⟩ := h.exists_alias
    cases hsame
    exact ⟨b, rfl, hsource.symm⟩

theorem isSome_linkedClass_of_field {f : Property.Field} :
    (aliasOf declared token owner (.field f)).linkedClass.isSome = true
      ↔ (owner.stereotype = some .enumeration ∨ owner.stereotype = some .reference)
        ∧ (f.primaryKey = true ∨ owner.uniqueKey = some f.name) := by
  have hlink : (aliasOf declared token owner (.field f)).linkedClass
      = if owner.hasRows && (f.primaryKey || owner.uniqueKey == some f.name) then some owner.name else none := rfl
  rw [hlink, ← Class.hasRows_iff]
  by_cases hkeys : (owner.hasRows && (f.primaryKey || owner.uniqueKey == some f.name)) = true
  · rw [if_pos hkeys]
    simpa using hkeys
  · rw [if_neg hkeys]
    simpa using hkeys

theorem agrees_of_field {f : Property.Field}
    (ha : BoundFrom settings g file (.alias (aliasOf declared token owner (.field f))) (.alias a)) :
    a.AgreesWith owner (.field f) := by
  obtain ⟨reference, rfl, hreference⟩ : ∃ reference,
      a = { aliasOf declared token owner (.field f) with reference }
        ∧ (reference.isSome = true ↔ (aliasOf declared token owner (.field f)).linkedClass.isSome = true) := by
    rcases htarget : (aliasOf declared token owner (.field f)).linkedClass with _ | name
    · exact ⟨none, Property.alias.inj (ha.1 htarget), Iff.rfl⟩
    · obtain ⟨position, target, -, -, -, key, binding, -, -, hbound⟩ := ha.2 name htarget
      exact ⟨some binding.reference, Property.alias.inj hbound, Iff.rfl⟩
  refine ⟨rfl, rfl, rfl, rfl, rfl, ⟨f.column, rfl, rfl⟩, fun s hs => ?_, fun f' hf => ?_⟩
  · cases hs
  · cases hf
    exact hreference.trans isSome_linkedClass_of_field

/-- In graphs of one outline, what leads to one class is bound to one key. -/
theorem binding_unique (h : g.outline = g'.outline) {name : String} {position position' : Nat}
    {target target' : Node} (hposition : g.position? name = some position)
    (hposition' : g'.position? name = some position') (htarget : g.node? name = some target)
    (htarget' : g'.node? name = some target') {key key' : Property}
    (hkey : (g.primaryKey? position).map Prod.snd = some key)
    (hkey' : (g'.primaryKey? position').map Prod.snd = some key') {role : Option String} {binding binding' : KeyBinding}
    (hbinding : KeyBinding.toKey? settings target.toClass key role = some binding)
    (hbinding' : KeyBinding.toKey? settings target'.toClass key' role = some binding') : binding = binding' := by
  rw [position?_congr h, hposition'] at hposition
  cases hposition
  rw [primaryKey?_congr h, hkey'] at hkey
  cases hkey
  obtain ⟨other, hother, houtline⟩ := node?_congr h htarget
  rw [htarget'] at hother
  cases hother
  have hdeclared : target'.declared = target.declared := Node.declared_congr houtline
  rw [toKey?_congr hdeclared, hbinding] at hbinding'
  exact Option.some.inj hbinding'

theorem agrees_of_association {s : Property.Association} (h : g.outline = g'.outline)
    (ha : BoundFrom settings g file (.alias (aliasOf declared token owner (.association s))) (.alias a))
    (hp : BoundFrom settings g' file' (.association s) p) : a.AgreesWith owner p := by
  obtain ⟨position, target, hposition, htarget, -, key, binding, hkey, hbinding, hbound⟩ := ha.2 s.target rfl
  obtain ⟨position', target', hposition', htarget', -, key', binding', hkey', hbinding', rfl⟩ := hp.2 s.target rfl
  obtain rfl := binding_unique h hposition hposition' htarget htarget' hkey hkey' hbinding hbinding'
  obtain rfl := Property.alias.inj hbound
  refine ⟨rfl, rfl, rfl, rfl, rfl, ⟨binding.column, rfl, rfl⟩, fun s' hs => ?_, fun f hf => ?_⟩
  · cases hs
    rfl
  · cases hf

theorem agrees_of_boundFrom (h : g.outline = g'.outline) {source : Property}
    (ha : BoundFrom settings g file (.alias (aliasOf declared token owner source)) (.alias a))
    (hp : BoundFrom settings g' file' source p) (hkind : (∃ f, p = .field f) ∨ ∃ s, p = .association s) :
    a.AgreesWith owner p := by
  cases source with
  | field f =>
    obtain rfl := hp.1 rfl
    exact agrees_of_field ha
  | association s => exact agrees_of_association h ha hp
  | composition c =>
    obtain ⟨_, _, -, -, -, rfl⟩ := hp.2 c.target rfl
    rcases hkind with ⟨_, hf⟩ | ⟨_, hs⟩
    · cases hf
    · cases hs
  | «alias» b =>
    obtain ⟨_, rfl, -⟩ := hp.exists_alias
    rcases hkind with ⟨_, hf⟩ | ⟨_, hs⟩
    · cases hf
    · cases hs

/-! ### The graph that is published -/

namespace Clean

variable {files : List LoadedFile} {problems : List Diagnostic} (hclean : g.Clean settings problems)
include hclean

/-- When aliases are expanded, a class and a property are told by their names. -/
theorem eq_of_names (hbind : Graph.bind files = .ok (g, problems)) {node node' : Node}
    (hnode : node ∈ (g.expandAliases settings).1.nodes) (hnode' : node' ∈ (g.expandAliases settings).1.nodes)
    (hname : node.name = node'.name) {p p' : Spanned Property} (hp : p ∈ node.properties)
    (hp' : p' ∈ node'.properties) (hproperty : p.value.name = p'.value.name) : node = node' ∧ p = p' := by
  have hsources := expandAliases_spec (fun _ hnode _ hp => isAlias_of_bind hbind hnode hp) hclean.aliases
  have hnames := ((bound_of_bind hbind).congr hsources.1.symm).names
  obtain rfl := List.inj_on_of_nodup_map hnames hnode hnode' hname
  exact ⟨rfl, List.inj_on_of_nodup_map (nodup_names_before hclean.properties hnode) hp hp' hproperty⟩

theorem agrees (hbind : Graph.bind files = .ok (g, problems)) {node target : Node}
    (hnode : node ∈ (g.resolve settings).nodes) (htarget : target ∈ (g.resolve settings).nodes)
    {entry source : Spanned Property} (hentry : entry ∈ node.properties) (ha : entry.value = .alias a)
    (hsource : source ∈ target.properties) (hpath : a.source = ⟨target.name, source.value.name⟩)
    (hkind : (∃ f, source.value = .field f) ∨ ∃ s, source.value = .association s) :
    a.AgreesWith target.toClass source.value := by
  have hcopied : AliasesCopied (g.expandAliases settings).1 :=
    aliasesCopied_expandAliases fun _ hnode _ hp => isAlias_of_bind hbind hnode hp
  have hbinds := bindForeignKeys_spec settings (g.expandAliases settings).1
  obtain ⟨before, hbefore, entry₁, hentry₁, -, -, g₁, hg₁, hbound⟩ := hbinds.property hclean.foreignKeys hnode hentry
  rw [ha] at hbound
  obtain ⟨copy, hcopy, hsame⟩ := hbound.of_alias
  obtain ⟨declared, token, owner, howner, original, horiginal, rfl⟩ :=
    hcopied before hbefore entry₁ hentry₁ copy hcopy
  obtain ⟨owner', howner', source₁, hsource₁, houtline, hname₁, g₂, hg₂, hbound₂⟩ :=
    hbinds.property hclean.foreignKeys htarget hsource
  -- the alias tells the names of what it has been made from, and no other property has these names
  have hnames : PropertyPath.mk owner.name original.value.name = ⟨target.name, source.value.name⟩ :=
    hsame.trans hpath
  obtain ⟨hname, hproperty⟩ := PropertyPath.mk.inj hnames
  have hname' : owner'.name = target.name := Node.name_congr houtline
  obtain ⟨rfl, rfl⟩ := hclean.eq_of_names hbind howner howner' (hname.trans hname'.symm) horiginal hsource₁
    (hproperty.trans hname₁.symm)
  have hdeclared : owner.declared = target.declared := Node.declared_congr houtline
  rw [hcopy, aliasOf_congr hdeclared] at hbound
  exact agrees_of_boundFrom (hg₁.trans hg₂.symm) hbound hbound₂ hkind

end Clean

end Graph

namespace Resolution

/-- **An alias of a published model agrees with the property that it says it copies**, if that is a field or an
association there. -/
theorem alias_agrees_of_run {sources : Sources} {settings : Settings} {changed : Option (List FileId)}
    {version : Nat} {cache : ParseCache} {m : Model} {diagnostics : List Diagnostic}
    (h : (run sources settings changed version cache).2 = .ok ⟨some m, diagnostics⟩) {c owner : Class}
    (hc : c ∈ m.classes) {a : Property.Alias} (ha : .alias a ∈ c.properties) (howner : owner ∈ m.classes)
    (hname : owner.name = a.source.klass) {p : Property} (hp : p ∈ owner.properties)
    (hproperty : p.name = a.source.property) (hkind : (∃ f, p = .field f) ∨ ∃ s, p = .association s) :
    a.AgreesWith owner p := by
  obtain ⟨files, ordered, g, problems, -, -, hbind, hclean, warnings, rfl⟩ := run_eq_ok_some h
  obtain ⟨node, hnode, rfl⟩ := List.mem_map.mp hc
  obtain ⟨entry, hentry, hvalue⟩ := List.mem_map.mp ha
  obtain ⟨target, htarget, rfl⟩ := List.mem_map.mp howner
  obtain ⟨source, hsource, rfl⟩ := List.mem_map.mp hp
  have hpath : a.source = ⟨target.name, source.value.name⟩ := by
    rw [hproperty, show target.name = a.source.klass from hname]
  exact hclean.agrees hbind hnode htarget hentry hvalue hsource hpath hkind

/-- A reference list, a class that refers to it in a role, and a class with an alias of that. -/
def kinds : Sources := .ofFiles <| .ofList [(⟨"App", "Data", "Item"⟩,
  "domain DO_ID \x7b map sql = \"int\"; \x7d class Kind reference \x7b field Code: DO_ID primary; \x7d "
    ++ "class Item \x7b field Id: DO_ID primary; ref KindCode -> Kind role \"Old\"; \x7d "
    ++ "class Part \x7b abstract; alias Item_KindCode_My; \x7d")]

def oldKind : Property.Association :=
  { name := "KindCode", target := "Kind", role := some "Old", domain := some "DO_ID", column := some "CODE_OLD",
    reference := some ⟨"Kind", "Code", .scalar⟩, accessor := some "KindCodeOld" }

def myOldKind : Property.Alias :=
  { name := "MyKindCode", source := ⟨"Item", "KindCode"⟩, before := some "My", domain := some "DO_ID",
    column := some "MY_CODE_OLD", role := some "Old", linkedClass := some "Kind",
    reference := some ⟨"Kind", "Code", .scalar⟩ }

theorem alias_agrees_of_run_kinds :
    ∃ m diagnostics, (run kinds { appName := some "App" } none 1 {}).2 = .ok ⟨some m, diagnostics⟩
      ∧ ∃ c ∈ m.classes, .alias myOldKind ∈ c.properties ∧ ∃ owner ∈ m.classes, owner.name = "Item"
        ∧ .association oldKind ∈ owner.properties ∧ myOldKind.AgreesWith owner (.association oldKind) := by
  obtain ⟨m, diagnostics, hrun, hfound⟩ := exists_ok_of_any_model
    (show ((run kinds { appName := some "App" } none 1 {}).2.toOption.bind Resolution.model).any (fun m => decide
      ((∃ c ∈ m.classes, .alias myOldKind ∈ c.properties)
        ∧ ∃ owner ∈ m.classes, owner.name = "Item" ∧ .association oldKind ∈ owner.properties)) = true by
      decide +kernel)
  obtain ⟨⟨c, hc, ha⟩, owner, howner, hname, hp⟩ := of_decide_eq_true hfound
  exact ⟨m, diagnostics, hrun, c, hc, ha, owner, howner, hname, hp,
    alias_agrees_of_run hrun hc ha howner hname hp rfl (Or.inr ⟨oldKind, rfl⟩)⟩

end Resolution

end EntityModel
