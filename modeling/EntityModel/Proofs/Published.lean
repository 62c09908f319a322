import EntityModel.Proofs.Aliases
import EntityModel.Proofs.Binding
import EntityModel.Proofs.ForeignKeys
import EntityModel.Proofs.LoadOrder
import EntityModel.Proofs.SortedMap

/-!
# Published models are closed

Whatever a class of a published model refers to is in the model and in a file that its own file reaches, and
all that it takes from there is bound (`Model.Closed`). The stages establish this one by one, each for what
it adds, and each with a problem for what it leaves undone: that a model is published says that no stage has
found one (`closed_of_run`).
-/

namespace EntityModel

open Diagnostic (hasErrors)

/-! ### Closed models -/

/-- A class may refer to the class of a name: it is in the model, and in the file of the class or in one that
this uses, directly or not. -/
def Model.Refers (m : Model) (files : List LoadedFile) (c : Class) (name : String) : Prop :=
  ∃ target, m.class? name = some target ∧ Reaches files c.file target.file

/-- An association is bound to the primary key of its target. -/
def Model.BindsAssociation (m : Model) (a : Property.Association) : Prop :=
  ∃ target key domain column reference, m.class? a.target = some target ∧ m.primaryKey? target = some key
    ∧ key.domain = some domain ∧ key.column = some column
    ∧ a.domain = some domain
    ∧ a.column = some (match a.role with
      | some role => column ++ "_" ++ Naming.roleSuffix role
      | none => column)
    ∧ a.reference = some reference ∧ reference.klass = a.target ∧ reference.key = key.name
    ∧ a.accessor.isSome

/-- What a property of a class refers to is there, and what it takes from there is bound. -/
def Property.Closed (m : Model) (files : List LoadedFile) (c : Class) : Property → Prop
  | .field _ => True
  | .association p => m.Refers files c p.target ∧ m.BindsAssociation p
  | .composition p => m.Refers files c p.target
  | .alias p => m.Refers files c p.source.klass
    ∧ ∀ name, p.linkedClass = some name →
      m.Refers files c name ∧ p.domain.isSome ∧ p.column.isSome ∧ p.reference.isSome

/-- A model is closed over the files it is made from: each class is declared in its file, and what it refers to
is there. -/
structure Model.Closed (m : Model) (files : List LoadedFile) : Prop where
  declared : ∀ c ∈ m.classes, ∃ file ∈ files, file.id = c.file
    ∧ ∃ written ∈ file.declared.classes, written.name.value = c.name
  parent : ∀ c ∈ m.classes, ∀ name, c.parent = some name → m.Refers files c name
  property : ∀ c ∈ m.classes, ∀ p ∈ c.properties, p.Closed m files c
  domain : ∀ c ∈ m.classes, ∀ p ∈ c.properties, ∀ domain, p.domain = some domain → (m.domain? domain).isSome

/-! ### Key bindings -/

theorem KeyBinding.toKey?_eq_some {settings : Settings} {target : Class} {key : Property}
    {role : Option String} {binding : KeyBinding} (h : toKey? settings target key role = some binding) :
    ∃ domain column, key.domain = some domain ∧ key.column = some column
      ∧ binding = ⟨domain, ForeignKey.column column role, ⟨target.name, key.name,
        ForeignKey.clientType target key settings⟩, ForeignKey.accessor target key role⟩ := by
  simp only [toKey?, Option.bind_eq_bind, Option.bind_eq_some_iff] at h
  obtain ⟨domain, hdomain, column, hcolumn, heq⟩ := h
  cases heq
  exact ⟨domain, column, hdomain, hcolumn, rfl⟩

theorem Property.exists_field_of_isPrimaryKey {p : Property} (h : p.isPrimaryKey = true) :
    ∃ field, p = .field field ∧ field.primaryKey = true := by
  cases p with
  | field field => exact ⟨field, rfl, h⟩
  | _ => cases h

/-! ### The model of a graph -/

namespace Graph

variable {settings : Settings} {g : Graph} (version : Nat) (warnings : List Diagnostic)

theorem class?_toModel (name : String) :
    (g.toModel version settings warnings).class? name = (g.node? name).map Node.toClass := by
  rw [Model.class?, toModel, List.find?_map]
  rfl

theorem domain?_toModel (name : String) :
    (g.toModel version settings warnings).domain? name = g.domain? name :=
  SortedMap.get?_mapValues (fun _ (entry : DomainEntry) => entry.domain) g.domains name

theorem node?_eq_bind_position? (g : Graph) (name : String) :
    g.node? name = (g.position? name).bind (g.nodes[·]?) := by
  rw [node?, List.find?_eq_bind_findIdx?_getElem?, position?]

theorem nodes_of_position? {name : String} {position : Nat} (h : g.position? name = some position) :
    g.nodes[position]? = g.node? name := by
  rw [node?_eq_bind_position?, h, Option.bind_some]

theorem parent?_toModel {files : List LoadedFile} (hg : g.Bound files) {node : Node} (hnode : node ∈ g.nodes) :
    (g.toModel version settings warnings).parent? node.toClass
      = (node.parent.bind (g.nodes[·]?)).map Node.toClass := by
  rw [hg.parent node hnode, Model.parent?, Node.toClass]
  rcases node.declared.parent with _ | name
  · rfl
  · rw [Option.map_some, Option.bind_some, Option.bind_some, class?_toModel, node?_eq_bind_position?]

theorem primaryKeyWithin?_toModel {files : List LoadedFile} (hg : g.Bound files) {visited : List Nat}
    {position owner : Nat} {key : Property} (h : g.primaryKeyAbove? visited position = some (owner, key))
    {node : Node} (hnode : g.nodes[position]? = some node) {n : Nat}
    (hn : unvisited (List.range g.nodes.length) visited ≤ n) :
    (g.toModel version settings warnings).primaryKeyWithin? n node.toClass = some key := by
  induction n generalizing visited position node with
  | zero =>
    obtain ⟨-, -, hlt, -⟩ := primaryKeyAbove?_eq_some h
    omega
  | succ n ih =>
    obtain ⟨node', hnode', hlt, hcases⟩ := primaryKeyAbove?_eq_some h
    obtain rfl : node' = node := Option.some.inj (hnode'.symm.trans hnode)
    rw [Model.primaryKeyWithin?]
    rcases hcases with hown | ⟨hown, parent, hparent, habove⟩
    · rw [hown]
    · obtain ⟨above, hnode'', -, -⟩ := primaryKeyAbove?_eq_some habove
      rw [hown, parent?_toModel version warnings hg (List.mem_of_getElem? hnode), hparent, Option.bind_some, hnode'',
        Option.map_some]
      exact ih habove hnode'' (by omega)

theorem primaryKey?_toModel {files : List LoadedFile} (hg : g.Bound files) {position : Nat} {key : Property}
    (h : (g.primaryKey? position).map Prod.snd = some key) {node : Node}
    (hnode : g.nodes[position]? = some node) :
    (g.toModel version settings warnings).primaryKey? node.toClass = some key := by
  obtain ⟨⟨owner, key⟩, hkey, rfl⟩ := Option.map_eq_some_iff.mp h
  refine primaryKeyWithin?_toModel version warnings hg hkey hnode ?_
  calc unvisited (List.range g.nodes.length) []
      ≤ (List.range g.nodes.length).length := List.countP_le_length
    _ ≤ (g.toModel version settings warnings).classes.length + 1 := by simp [toModel]

/-! ### The graph that is published -/

/-- All fields are of declared domains. -/
def DomainsDeclared (g : Graph) : Prop :=
  ∀ node ∈ g.nodes, ∀ p ∈ node.properties, ∀ field, p.value = .field field → (g.domain? field.domain).isSome

theorem domainsDeclared_of_clean (hclean : hasErrors (g.propertyDiagnostics settings) = false) :
    g.DomainsDeclared := by
  intro node hnode ⟨value, span⟩ hp field hvalue
  have hfound := Diagnostic.hasErrors_of_flatMap hclean hnode
  simp only [Diagnostic.hasErrors_append, Bool.or_eq_false_iff] at hfound
  have hdomain := Diagnostic.hasErrors_of_flatMap hfound.1.2 hp
  obtain rfl : value = .field field := hvalue
  unfold domainDiagnostics at hdomain
  dsimp only at hdomain
  split at hdomain
  · cases hdomain
  · next domain hsome => rw [hsome, Option.isSome_some]

theorem DomainsDeclared.primaryKey (hg : g.DomainsDeclared) {position : Nat} {key : Property}
    (h : (g.primaryKey? position).map Prod.snd = some key) {domain : String} (hdomain : key.domain = some domain) :
    (g.domain? domain).isSome := by
  obtain ⟨found, hfound, rfl⟩ := Option.map_eq_some_iff.mp h
  obtain ⟨hkey, node, hnode, p, hp, hvalue⟩ := isPrimaryKey_of_primaryKeyAbove? hfound
  obtain ⟨field, hfield, -⟩ := Property.exists_field_of_isPrimaryKey hkey
  rw [hfield] at hvalue hdomain
  cases hdomain
  exact hg node hnode p hp field hvalue

/-- A graph that the stages leave without a problem: every property is what the binding in a graph of the same
outline makes of a property, and aliases come from somewhere. -/
structure Resolved (settings : Settings) (files : List LoadedFile) (g : Graph) : Prop where
  bound : g.Bound files
  parents : g.ParentsVisible
  domains : g.DomainsDeclared
  property : ∀ node ∈ g.nodes, ∀ p ∈ node.properties, ∃ p₁ : Property,
    (∀ a, p₁ = .alias a → AliasFrom g node.file a)
      ∧ (p₁.target? = none → p.value = p₁)
      ∧ ∀ name, p₁.target? = some name →
        ∃ g' : Graph, g'.outline = g.outline ∧ BindsTo settings g' node.file p₁ p.value name

variable {files : List LoadedFile}

theorem Bound.refers (hg : g.Bound files) {node target : Node} {name : String}
    (htarget : g.node? name = some target) (hvisible : g.isVisible node.file target.file = true) :
    (g.toModel version settings warnings).Refers files node.toClass name :=
  ⟨target.toClass, by rw [class?_toModel, htarget, Option.map_some], hg.visible hvisible⟩

theorem AliasFrom.refers (hg : g.Bound files) {node : Node} {a : Property.Alias} (ha : AliasFrom g node.file a) :
    (g.toModel version settings warnings).Refers files node.toClass a.source.klass := by
  obtain ⟨owner, howner, hname, hvisible⟩ := ha.source
  exact hg.refers version warnings (hname ▸ hg.node?_of_mem howner) hvisible

theorem BindsTo.refers (hg : g.Bound files) {g' : Graph} (h : g'.outline = g.outline) {node : Node}
    {p bound : Property} {name : String} (hbinds : BindsTo settings g' node.file p bound name) :
    (g.toModel version settings warnings).Refers files node.toClass name := by
  obtain ⟨-, target, -, htarget, hvisible, -⟩ := hbinds
  obtain ⟨target', htarget', heq⟩ := node?_congr h htarget
  refine hg.refers version warnings htarget' ?_
  rw [← isVisible_congr h, ← Node.file_outline target', heq]
  exact hvisible

theorem BindsTo.association_bound (hg : g.Bound files) {g' : Graph} (h : g'.outline = g.outline) {file : FileId}
    {a : Property.Association} {bound : Property}
    (hbinds : BindsTo settings g' file (.association a) bound a.target) :
    ∃ b, bound = .association b ∧ b.target = a.target
      ∧ (g.toModel version settings warnings).BindsAssociation b
      ∧ ∃ position key, (g.primaryKey? position).map Prod.snd = some key ∧ b.domain = key.domain := by
  obtain ⟨position, target, hposition, htarget, -, key, binding, hkey, hbinding, rfl⟩ := hbinds
  obtain ⟨domain, column, hdomain, hcolumn, rfl⟩ := KeyBinding.toKey?_eq_some hbinding
  obtain ⟨target', htarget', heq⟩ := node?_congr h htarget
  have hposition' : g.position? a.target = some position := by rw [← position?_congr h, hposition]
  have hkey' : (g.primaryKey? position).map Prod.snd = some key := by rw [← primaryKey?_congr h]; exact hkey
  have hname : target.name = a.target := by simpa using List.find?_some htarget
  refine ⟨_, rfl, rfl, ⟨target'.toClass, key, domain, column, _, ?_, ?_, hdomain, hcolumn, rfl, rfl, rfl, hname, rfl,
    rfl⟩, position, key, hkey', hdomain.symm⟩
  · rw [class?_toModel, htarget', Option.map_some]
  · exact primaryKey?_toModel version warnings hg hkey' ((nodes_of_position? hposition').trans htarget')

theorem BindsTo.alias_bound {g' : Graph} (h : g'.outline = g.outline) {file : FileId} {a : Property.Alias}
    {bound : Property} {name : String} (ha : AliasFrom g file a)
    (hbinds : BindsTo settings g' file (.alias a) bound name) :
    ∃ b, bound = .alias b ∧ b.source = a.source ∧ b.linkedClass = a.linkedClass
      ∧ b.domain.isSome ∧ b.column.isSome ∧ b.reference.isSome
      ∧ (b.domain = a.domain
        ∨ ∃ position key, (g.primaryKey? position).map Prod.snd = some key ∧ b.domain = key.domain) := by
  obtain ⟨position, target, -, -, -, key, binding, hkey, hbinding, rfl⟩ := hbinds
  obtain ⟨domain, column, hdomain, hcolumn, rfl⟩ := KeyBinding.toKey?_eq_some hbinding
  unfold Property.bound
  dsimp only
  split
  · next hsome =>
    obtain ⟨own, hown⟩ := Option.isSome_iff_exists.mp hsome
    exact ⟨_, rfl, rfl, rfl, hsome, (ha.domain own hown).1, rfl, Or.inl rfl⟩
  · next hnone =>
    refine ⟨_, rfl, rfl, rfl, rfl, rfl, rfl, Or.inr ⟨position, key, ?_, hdomain.symm⟩⟩
    rw [boundKey?, if_neg hnone, primaryKey?_congr h] at hkey
    exact hkey

namespace Resolved

variable (hg : g.Resolved settings files)
include hg

theorem refers_parent {node : Node} (hnode : node ∈ g.nodes) {name : String}
    (hname : node.toClass.parent = some name) :
    (g.toModel version settings warnings).Refers files node.toClass name := by
  obtain ⟨declared, hdeclared, rfl⟩ := Option.map_eq_some_iff.mp hname
  obtain ⟨parent, hparent, hvisible⟩ := hg.parents node hnode declared hdeclared
  exact hg.bound.refers version warnings hparent hvisible

theorem closed_property {node : Node} (hnode : node ∈ g.nodes) {p : Spanned Property} (hp : p ∈ node.properties) :
    p.value.Closed (g.toModel version settings warnings) files node.toClass := by
  obtain ⟨p₁, hsource, hsame, hbinds⟩ := hg.property node hnode p hp
  cases p₁ with
  | field field =>
    rw [hsame rfl]
    trivial
  | association a =>
    obtain ⟨g', houtline, hbinds⟩ := hbinds a.target rfl
    have hrefers := hbinds.refers version warnings hg.bound houtline
    obtain ⟨b, hb, htarget, hbound, -⟩ := hbinds.association_bound version warnings hg.bound houtline
    rw [hb]
    exact ⟨htarget ▸ hrefers, hbound⟩
  | composition c =>
    obtain ⟨g', houtline, hbinds⟩ := hbinds c.target rfl
    have hrefers := hbinds.refers version warnings hg.bound houtline
    obtain ⟨_, _, _, _, _, hvalue⟩ := hbinds
    rw [hvalue]
    exact hrefers
  | «alias» a =>
    have hfrom : (g.toModel version settings warnings).Refers files node.toClass a.source.klass :=
      (hsource a rfl).refers version warnings hg.bound
    rcases hlink : a.linkedClass with _ | name
    · rw [hsame hlink]
      exact ⟨hfrom, fun name hname => by rw [hlink] at hname; cases hname⟩
    · obtain ⟨g', houtline, hbinds⟩ := hbinds name hlink
      have hrefers := hbinds.refers version warnings hg.bound houtline
      obtain ⟨b, hb, hkeeps, hlinked, hdomain, hcolumn, hreference, -⟩ := hbinds.alias_bound houtline (hsource a rfl)
      rw [hb]
      refine ⟨hkeeps ▸ hfrom, fun name' hname' => ?_⟩
      obtain rfl : name = name' := by
        rw [hlinked, hlink] at hname'
        exact Option.some.inj hname'
      exact ⟨hrefers, hdomain, hcolumn, hreference⟩

theorem domain_property {node : Node} (hnode : node ∈ g.nodes) {p : Spanned Property} (hp : p ∈ node.properties)
    {domain : String} (hdomain : p.value.domain = some domain) : (g.domain? domain).isSome := by
  obtain ⟨p₁, hsource, hsame, hbinds⟩ := hg.property node hnode p hp
  have hcopied : ∀ a : Property.Alias, AliasFrom g node.file a → a.domain = some domain →
      (g.domain? domain).isSome := by
    intro a ha hname
    obtain ⟨-, node', hnode', p', hp', field, hfield, rfl⟩ := ha.domain domain hname
    exact hg.domains node' hnode' p' hp' field hfield
  cases p₁ with
  | field field =>
    rw [hsame rfl] at hdomain
    cases hdomain
    exact hg.domains node hnode p hp field (hsame rfl)
  | association a =>
    obtain ⟨g', houtline, hbinds⟩ := hbinds a.target rfl
    obtain ⟨b, hb, -, -, position, key, hkey, hsame⟩ := hbinds.association_bound 0 [] hg.bound houtline
    rw [hb] at hdomain
    exact hg.domains.primaryKey hkey (hsame ▸ hdomain)
  | composition c =>
    obtain ⟨g', -, hbinds⟩ := hbinds c.target rfl
    obtain ⟨_, _, _, _, _, hvalue⟩ := hbinds
    rw [hvalue] at hdomain
    cases hdomain
  | «alias» a =>
    rcases hlink : a.linkedClass with _ | name
    · rw [hsame hlink] at hdomain
      exact hcopied a (hsource a rfl) hdomain
    · obtain ⟨g', houtline, hbinds⟩ := hbinds name hlink
      obtain ⟨b, hb, -, -, -, -, -, hcases⟩ := hbinds.alias_bound houtline (hsource a rfl)
      rw [hb] at hdomain
      rcases hcases with hsame | ⟨position, key, hkey, hsame⟩
      · exact hcopied a (hsource a rfl) (hsame ▸ hdomain)
      · exact hg.domains.primaryKey hkey (hsame ▸ hdomain)

theorem closed : (g.toModel version settings warnings).Closed files where
  declared c hc := by
    obtain ⟨node, hnode, rfl⟩ := List.mem_map.mp hc
    obtain ⟨file, hfile, hid, hwritten⟩ := hg.bound.declared node hnode
    exact ⟨file, hfile, hid, node.declared, hwritten, rfl⟩
  parent c hc name hname := by
    obtain ⟨node, hnode, rfl⟩ := List.mem_map.mp hc
    exact hg.refers_parent version warnings hnode hname
  property c hc p hp := by
    obtain ⟨node, hnode, rfl⟩ := List.mem_map.mp hc
    obtain ⟨p', hp', rfl⟩ := List.mem_map.mp hp
    exact hg.closed_property version warnings hnode hp'
  domain c hc p hp domain hdomain := by
    obtain ⟨node, hnode, rfl⟩ := List.mem_map.mp hc
    obtain ⟨p', hp', rfl⟩ := List.mem_map.mp hp
    rw [domain?_toModel]
    exact hg.domain_property hnode hp' hdomain

end Resolved

/-! ### The stages together -/

theorem resolved_of_stages (hg : g.Bound files) (hparents : g.ParentsVisible)
    (hnone : ∀ node ∈ g.nodes, ∀ p ∈ node.properties, p.value.isAlias = false)
    (haliases : hasErrors (g.expandAliases settings).2 = false) {expanded bound : Graph}
    (hexpanded : (g.expandAliases settings).1 = expanded)
    (hkeys : hasErrors (expanded.bindForeignKeys settings).2 = false)
    (hbound : (expanded.bindForeignKeys settings).1 = bound)
    (hdomains : hasErrors (bound.propertyDiagnostics settings) = false) : bound.Resolved settings files := by
  have hsources := expandAliases_spec hnone haliases
  have hbinds := bindForeignKeys_spec settings expanded
  rw [hexpanded] at hsources
  rw [hbound] at hbinds
  have houtline : g.outline = bound.outline := (hbinds.outline.trans hsources.1).symm
  refine ⟨hg.congr houtline, hparents.congr houtline, domainsDeclared_of_clean hdomains, ?_⟩
  intro node hnode p hp
  obtain ⟨before, hbefore, p₁, hp₁, hsame, -, g', houtline', hunbound, hbound⟩ := hbinds.property hkeys hnode hp
  have hfile : before.file = node.file := Node.file_congr hsame
  refine ⟨p₁.value, fun a ha => ?_, hunbound, fun name hname => ⟨g', houtline', hbound name hname⟩⟩
  rw [← hfile]
  exact (hsources.2 before hbefore p₁ hp₁ a ha).congr houtline

/-- The graph that the stages after the binding of names make of one. -/
def resolve (settings : Settings) (g : Graph) : Graph :=
  ((g.expandAliases settings).1.bindForeignKeys settings).1

theorem outline_resolve (settings : Settings) (g : Graph) : (g.resolve settings).outline = g.outline :=
  (outline_bindForeignKeys _).trans (outline_expandAliases g)

/-- Neither the binding of names nor a later stage finds an error. -/
structure Clean (settings : Settings) (g : Graph) (problems : List Diagnostic) : Prop where
  names : hasErrors problems = false
  aliases : hasErrors (g.expandAliases settings).2 = false
  foreignKeys : hasErrors ((g.expandAliases settings).1.bindForeignKeys settings).2 = false
  checks : hasErrors ((g.resolve settings).checkDiagnostics settings) = false

namespace Clean

variable {problems : List Diagnostic} (hclean : g.Clean settings problems)
include hclean

theorem properties : hasErrors ((g.resolve settings).propertyDiagnostics settings) = false := by
  have hchecks := hclean.checks
  simp only [checkDiagnostics, Diagnostic.hasErrors_append, Bool.or_eq_false_iff] at hchecks
  exact hchecks.1.1.1

theorem primaryKeys : hasErrors (g.resolve settings).primaryKeyDiagnostics = false := by
  have hchecks := hclean.checks
  simp only [checkDiagnostics, Diagnostic.hasErrors_append, Bool.or_eq_false_iff] at hchecks
  exact hchecks.1.1.2

theorem resolved {ordered : List LoadedFile} (hsub : ordered ⊆ files)
    (hbind : Graph.bind ordered = .ok (g, problems)) : (g.resolve settings).Resolved settings files :=
  resolved_of_stages ((bound_of_bind hbind).mono hsub) (parentsVisible_of_bind hbind hclean.names)
    (fun _ hnode _ hp => isAlias_of_bind hbind hnode hp) hclean.aliases rfl hclean.foreignKeys rfl hclean.properties

end Clean

end Graph

namespace Resolution

variable {settings : Settings} {version : Nat} {files : List LoadedFile}

theorem ofGraph_eq_ok {g : Graph} {problems : List Diagnostic} {resolution : Resolution}
    (h : ofGraph settings version g problems = .ok resolution) :
    ∃ diagnostics,
      diagnostics = problems ++ (g.expandAliases settings).2
        ++ ((g.expandAliases settings).1.bindForeignKeys settings).2
        ++ ((g.expandAliases settings).1.bindForeignKeys settings).1.checkDiagnostics settings
      ∧ resolution = ⟨if hasErrors diagnostics then none else some
        (((g.expandAliases settings).1.bindForeignKeys settings).1.toModel version settings
          (Diagnostic.warnings diagnostics)), diagnostics⟩ := by
  obtain ⟨-, -, hrest⟩ := bind_eq_ok_iff.mp h
  exact ⟨_, rfl, (Except.ok.inj hrest).symm⟩

/-- Only a graph in which no error is found is published. -/
theorem clean_of_ofGraph {g : Graph} {problems diagnostics : List Diagnostic} {m : Model}
    (h : ofGraph settings version g problems = .ok ⟨some m, diagnostics⟩) :
    g.Clean settings problems ∧ ∃ warnings, m = (g.resolve settings).toModel version settings warnings := by
  obtain ⟨all, hall, hmodel⟩ := ofGraph_eq_ok h
  rw [Resolution.mk.injEq] at hmodel
  have hsome := hmodel.1
  split at hsome
  · cases hsome
  · next hclean =>
    rw [hall, Bool.not_eq_true] at hclean
    simp only [Diagnostic.hasErrors_append, Bool.or_eq_false_iff] at hclean
    obtain ⟨⟨⟨hnames, haliases⟩, hkeys⟩, hchecks⟩ := hclean
    exact ⟨⟨hnames, haliases, hkeys, hchecks⟩, _, Option.some.inj hsome⟩

theorem ofFiles_eq_ok {files : List LoadedFile} {resolution : Resolution}
    (h : ofFiles settings version files = .ok resolution) :
    ∃ ordered g problems, LoadOrder.order files = .ok ordered ∧ Graph.bind ordered = .ok (g, problems)
      ∧ ofGraph settings version g problems = .ok resolution := by
  obtain ⟨ordered, horder, hordered⟩ := bind_eq_ok_iff.mp h
  obtain ⟨⟨g, problems⟩, hbind, hgraph⟩ := bind_eq_ok_iff.mp hordered
  exact ⟨ordered, g, problems, horder, hbind, hgraph⟩

theorem run_eq_ok {sources : Sources} {changed : Option (List FileId)} {cache : ParseCache}
    {resolution : Resolution} (h : (run sources settings changed version cache).2 = .ok resolution) :
    ∃ files ordered g problems, (cache.readAll sources settings changed).2 = .ok files
      ∧ LoadOrder.order files = .ok ordered ∧ Graph.bind ordered = .ok (g, problems)
      ∧ ofGraph settings version g problems = .ok resolution := by
  unfold run at h
  split at h
  · cases h
  · obtain ⟨files, hread, hfiles⟩ := bind_eq_ok_iff.mp h
    obtain ⟨ordered, g, problems, hrest⟩ := ofFiles_eq_ok hfiles
    exact ⟨files, ordered, g, problems, hread, hrest⟩

theorem run_eq_ok_some {sources : Sources} {changed : Option (List FileId)} {cache : ParseCache} {m : Model}
    {diagnostics : List Diagnostic}
    (h : (run sources settings changed version cache).2 = .ok ⟨some m, diagnostics⟩) :
    ∃ files ordered g problems, (cache.readAll sources settings changed).2 = .ok files
      ∧ LoadOrder.order files = .ok ordered ∧ Graph.bind ordered = .ok (g, problems)
      ∧ g.Clean settings problems
      ∧ ∃ warnings, m = (g.resolve settings).toModel version settings warnings := by
  obtain ⟨files, ordered, g, problems, hread, horder, hbind, hgraph⟩ := run_eq_ok h
  exact ⟨files, ordered, g, problems, hread, horder, hbind, clean_of_ofGraph hgraph⟩

theorem closed_of_ofGraph {ordered : List LoadedFile} (hsub : ordered ⊆ files) {g : Graph}
    {problems diagnostics : List Diagnostic} {m : Model} (hbind : Graph.bind ordered = .ok (g, problems))
    (h : ofGraph settings version g problems = .ok ⟨some m, diagnostics⟩) : m.Closed files := by
  obtain ⟨hclean, warnings, rfl⟩ := clean_of_ofGraph h
  exact (hclean.resolved hsub hbind).closed version warnings

/-- **A published model is closed** over the files that are read for it. -/
theorem closed_of_run {sources : Sources} {changed : Option (List FileId)} {cache : ParseCache} {m : Model}
    {diagnostics : List Diagnostic}
    (h : (run sources settings changed version cache).2 = .ok ⟨some m, diagnostics⟩) :
    ∃ files, (cache.readAll sources settings changed).2 = .ok files ∧ m.Closed files := by
  unfold run at h
  split at h
  · cases h
  · obtain ⟨files, hfiles, hresolved⟩ := bind_eq_ok_iff.mp h
    obtain ⟨ordered, hordered, hrest⟩ := bind_eq_ok_iff.mp hresolved
    obtain ⟨⟨g, problems⟩, hbind, hgraph⟩ := bind_eq_ok_iff.mp hrest
    exact ⟨files, hfiles, closed_of_ofGraph (LoadOrder.order_subset hordered) hbind hgraph⟩

theorem eq_ok_of_stage {ended : Except Fault Resolution} (h : stage ended = .validated) :
    ∃ m diagnostics, ended = .ok ⟨some m, diagnostics⟩ := by
  unfold stage at h
  split at h
  · exact ⟨_, _, rfl⟩
  · cases h

theorem exists_ok_of_any_model {ended : Except Fault Resolution} {holds : Model → Bool}
    (h : (ended.toOption.bind Resolution.model).any holds = true) :
    ∃ m diagnostics, ended = .ok ⟨some m, diagnostics⟩ ∧ holds m = true := by
  rcases ended with fault | ⟨model, diagnostics⟩
  · cases h
  · rcases model with _ | m
    · cases h
    · exact ⟨m, diagnostics, rfl, h⟩

/-- Two files, one of which uses the other: a class with a parent, an association, a composition and an alias. -/
def pair : Sources := .ofFiles <| .ofList [
  (⟨"App", "Data", "Key"⟩, "domain DO_ID \x7b map sql = \"int\"; \x7d class Key \x7b field Id: DO_ID primary; \x7d"),
  (⟨"App", "Data", "Part"⟩, "uses App::Data::Key; class Part : Key \x7b "
    ++ "ref Of -> Key role \"of\"; compose Rest -> Part many; alias Key_Id_Old; \x7d")]

theorem closed_of_run_pair :
    ∃ m diagnostics, (run pair { appName := some "App" } none 1 {}).2 = .ok ⟨some m, diagnostics⟩
      ∧ ∃ files, (({} : ParseCache).readAll pair { appName := some "App" } none).2 = .ok files ∧ m.Closed files := by
  obtain ⟨m, diagnostics, hrun⟩ := eq_ok_of_stage
    (show stage (run pair { appName := some "App" } none 1 {}).2 = .validated by decide +kernel)
  exact ⟨m, diagnostics, hrun, closed_of_run hrun⟩

end Resolution

end EntityModel
