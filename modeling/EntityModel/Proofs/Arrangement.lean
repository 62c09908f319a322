import EntityModel.Proofs.AliasCopies
import EntityModel.Proofs.Published
import Mathlib.Data.List.Forall2

/-!
# The order of declarations

The aliases of a class wait with the number of other properties before them, and each is inserted behind the
aliases that are there by then. As the aliases of a class are expanded in the order of their declarations, every
property comes to stand where it is declared, and an alias that names no source leaves no gap
(`bind_arranged`).
-/

namespace EntityModel

/-! ### What declarations make -/

/-- A property is what a declared one makes: a field, an association or a composition as it is written, and an alias
a copy of a property of the class that its token names. -/
inductive Property.MadeBy (trigram : Option String) : Declaration.Property → Property → Prop
  | own {d : Declaration.Property} {p : Property} : ofDeclaration? trigram d = some p → MadeBy trigram d p
  | copy {d : Declaration.Alias} {token : AliasToken} {owner : Class} (source : Property) :
      AliasToken.parse? d.token.value = some token → owner.name = token.klass →
        MadeBy trigram (.alias d) (.alias (Graph.aliasOf d token owner source))

/-- A property is what a declared one makes once foreign keys are bound: the same as before, or with the binding to a
key. -/
def Property.MadeBoundBy (settings : Settings) (trigram : Option String) (d : Declaration.Property) (p : Property) :
    Prop :=
  ∃ made, MadeBy trigram d made ∧ (p = made ∨ ∃ target key binding,
    KeyBinding.toKey? settings target key made.role = some binding ∧ p = made.bound binding)

/-- A row is what a declared one makes: it has the same name, and for each value the same field and literal. -/
def Row.MadeBy (d : Declaration.Row) (row : Row) : Prop :=
  row.name = d.name.value
    ∧ List.Forall₂ (fun written value => value = (written.1.value, written.2.value)) d.values row.values

theorem Row.madeBy_ofDeclaration (d : Declaration.Row) : Row.MadeBy d (.ofDeclaration d) :=
  ⟨rfl, List.forall₂_map_right_iff.mpr (List.forall₂_same.mpr fun _ _ => rfl)⟩

/-- A property stands at the declaration that makes it. -/
def MadeAt (makes : Declaration.Property → Property → Prop) (d : Declaration.Property) (p : Spanned Property) : Prop :=
  p.span = d.span ∧ makes d p.value

/-- The properties of a class are made by those of its declared properties that are kept, in their order. -/
def Node.InOrder (kept : Declaration.Property → Bool)
    (makes : Option String → Declaration.Property → Property → Prop) (node : Node) : Prop :=
  List.Forall₂ (MadeAt (makes (node.declared.trigram.map Spanned.value))) (node.declared.properties.filter kept)
    node.properties

namespace Graph

/-- The classes of a graph are those that files declare, in their order, and so are the properties and the rows of
each class. -/
structure Arranged (files : List LoadedFile) (kept : Declaration.Property → Bool)
    (makes : Option String → Declaration.Property → Property → Prop) (g : Graph) : Prop where
  classes : g.nodes.map (fun node => (node.file, node.declared))
    = files.flatMap fun file => file.declared.classes.map (file.id, ·)
  properties : ∀ node ∈ g.nodes, node.InOrder kept makes
  rows : ∀ node ∈ g.nodes, List.Forall₂ Row.MadeBy node.declared.rows node.toClass.rows

/-- Whether a declared property becomes one of its class: it does unless it is an alias that names no source. -/
def keeps (settings : Settings) (g : Graph) : Declaration.Property → Bool
  | .alias declared => ((AliasToken.parse? declared.token.value).bind (g.sourcePlace? settings)).isSome
  | _ => true

variable {settings : Settings} {files : List LoadedFile} {g g' : Graph}

theorem keeps_alias (a : PendingAlias) :
    g.keeps settings (.alias a.declared) = (g.namedSource? settings a).isSome := rfl

theorem Arranged.exists_madeAt {kept : Declaration.Property → Bool}
    {makes : Option String → Declaration.Property → Property → Prop} (hg : g.Arranged files kept makes)
    {node : Node} (hnode : node ∈ g.nodes) {p : Spanned Property} (hp : p ∈ node.properties) :
    ∃ d ∈ node.declared.properties, MadeAt (makes (node.declared.trigram.map Spanned.value)) d p := by
  obtain ⟨hlength, hmade⟩ := List.forall₂_iff_get.mp (hg.properties node hnode)
  obtain ⟨index, hindex, rfl⟩ := List.mem_iff_getElem.mp hp
  exact ⟨_, List.mem_of_mem_filter (List.getElem_mem (hlength ▸ hindex)), hmade index _ hindex⟩

/-! ### The classes that are bound -/

/-- The classes that files declare. -/
def declaredNodes (files : List LoadedFile) : List Node :=
  files.flatMap fun file => file.declared.classes.map (Node.ofDeclaration file.id)

theorem nodes_of_foldlM (h : files.foldlM declareFile g = .ok g') :
    g'.nodes = g.nodes ++ declaredNodes files
      ∧ g'.pending = g.pending ++ PendingAlias.ofNodes g.nodes.length (declaredNodes files) := by
  induction files generalizing g with
  | nil =>
    obtain rfl := Except.ok.inj h
    exact ⟨(List.append_nil _).symm, (List.append_nil _).symm⟩
  | cons file rest ih =>
    rw [List.foldlM_cons] at h
    obtain ⟨next, hnext, hrest⟩ := bind_eq_ok_iff.mp h
    obtain ⟨-, mid, hdomains, hclasses⟩ := declareFile_eq_ok hnext
    obtain ⟨domains, rfl, -⟩ := declareDomains_eq_ok hdomains
    obtain rfl := declareClasses_eq_ok hclasses
    obtain ⟨hnodes, hpending⟩ := ih hrest
    have hfiles : declaredNodes (file :: rest)
        = file.declared.classes.map (Node.ofDeclaration file.id) ++ declaredNodes rest := rfl
    rw [hnodes, hpending, hfiles, PendingAlias.ofNodes_append, ← List.append_assoc, ← List.append_assoc,
      List.length_append]
    exact ⟨rfl, rfl⟩

/-- The properties that declarations make before any alias is expanded. -/
def ownProperties (trigram : Option String) (declared : List Declaration.Property) : List (Spanned Property) :=
  declared.filterMap fun p => (Property.ofDeclaration? trigram p).map (⟨·, p.span⟩)

theorem bind_nodes {problems : List Diagnostic} (hbind : Graph.bind files = .ok (g, problems)) :
    g.nodes.map (fun node => (node.file, node.declared))
        = files.flatMap (fun file => file.declared.classes.map (file.id, ·))
      ∧ g.pending = PendingAlias.ofNodes 0 g.nodes
      ∧ ∀ node ∈ g.nodes, node.properties
        = ownProperties (node.declared.trigram.map Spanned.value) node.declared.properties := by
  obtain ⟨declared, hdeclared, rfl, -⟩ := bind_eq_ok hbind
  obtain ⟨hnodes, hpending⟩ := nodes_of_foldlM hdeclared
  rw [List.nil_append] at hnodes hpending
  refine ⟨?_, ?_, fun node hnode => ?_⟩
  · rw [List.map_map, hnodes, declaredNodes, List.map_flatMap]
    refine List.flatMap_congr fun file _ => ?_
    rw [List.map_map]
    rfl
  · have hsame : ∀ owner nodes, PendingAlias.ofNodes owner (nodes.map declared.withParent)
        = PendingAlias.ofNodes owner nodes := by
      intro owner nodes
      induction nodes generalizing owner with
      | nil => rfl
      | cons node rest ih =>
        rw [List.map_cons, PendingAlias.ofNodes, PendingAlias.ofNodes, ih]
        rfl
    rw [hsame, hnodes]
    exact hpending
  · obtain ⟨node, hmem, rfl⟩ := List.mem_map.mp hnode
    obtain ⟨file, -, hclass⟩ := List.mem_flatMap.mp (hnodes ▸ hmem)
    obtain ⟨written, -, rfl⟩ := List.mem_map.mp hclass
    rfl

/-! ### The expansion of one class -/

theorem insertIdx_append_of_length_eq {α : Type} {front back : List α} {i : Nat} (h : i = front.length) (a : α) :
    (front ++ back).insertIdx i a = front ++ a :: back := by
  subst h
  induction front with
  | nil => rfl
  | cons first front ih => rw [List.cons_append, List.length_cons, List.insertIdx_succ_cons, ih, List.cons_append]

theorem countP_isAlias_ownProperties (trigram : Option String) (declared : List Declaration.Property) :
    (ownProperties trigram declared).countP (·.value.isAlias) = 0 := by
  refine List.countP_eq_zero.mpr fun p hp => ?_
  obtain ⟨d, -, hd⟩ := List.mem_filterMap.mp hp
  obtain ⟨value, hvalue, rfl⟩ := Option.map_eq_some_iff.mp hd
  cases d with
  | «alias» d => cases hvalue
  | _ => cases hvalue; exact Bool.false_ne_true

variable {done after : List PendingAlias} {state : Graph}

section oneClass

variable {owner position : Nat} {node : Node} {trigram : Option String} {front : List (Spanned Property)}

/-- One step, of an alias whose class has the properties before it in their places and the others still to come. -/
theorem Expanding.expandAlias_append (hstate : g.Expanding settings done state)
    (hnames : (g.nodes.map Node.name).Nodup) {rest : List Declaration.Property} {d : Declaration.Alias}
    (hnode : state.nodes[owner]? = some { node with properties := front ++ ownProperties trigram rest })
    (hposition : position + front.countP (·.value.isAlias) = front.length)
    {place : PropertyPosition} (hsource : g.namedSource? settings ⟨owner, position, d⟩ = some place) :
    ∃ entry, MadeAt (Property.MadeBy trigram) (.alias d) entry ∧ entry.value.isAlias = true
      ∧ (expandAlias (sourceIndex settings g).1 state ⟨owner, position, d⟩).1.nodes
        = state.nodes.set owner { node with properties := front ++ [entry] ++ ownProperties trigram rest } := by
  obtain ⟨token, htoken, hplace⟩ := namedSource?_eq_some hsource
  obtain ⟨source, p, -, hname, -, hcopy⟩ := hstate.aliasProperty?_of_some hnames htoken hplace _
  have hbehind : position + (front ++ ownProperties trigram rest).countP (·.value.isAlias) = front.length := by
    rw [List.countP_append, countP_isAlias_ownProperties, Nat.add_zero, hposition]
  refine ⟨⟨.alias (aliasOf d token source.toClass p.value), d.span⟩, ⟨rfl, .copy p.value htoken hname⟩, rfl, ?_⟩
  rw [expandAlias_eq_some hnode hcopy, Node.insertAlias, insertIdx_append_of_length_eq hbehind, List.append_cons]

/-- The aliases of a class, of which some declarations are in their places and the others still to come. -/
theorem Expanding.collect_ofProperties (hg : g.Waiting) (hnames : (g.nodes.map Node.name).Nodup)
    {declared : List Declaration.Property}
    (hpending : g.pending = done ++ (PendingAlias.ofProperties owner position declared ++ after))
    (hstate : g.Expanding settings done state)
    (hnode : state.nodes[owner]? = some { node with properties := front ++ ownProperties trigram declared })
    (hposition : position + front.countP (·.value.isAlias) = front.length) :
    ∃ back, List.Forall₂ (MadeAt (Property.MadeBy trigram)) (declared.filter (g.keeps settings)) back
      ∧ (Diagnostic.collect (expandAlias (sourceIndex settings g).1) state
          (PendingAlias.ofProperties owner position declared)).1.nodes
        = state.nodes.set owner { node with properties := front ++ back } := by
  induction declared generalizing position front done state with
  | nil =>
    obtain ⟨hlt, hget⟩ := List.getElem?_eq_some_iff.mp hnode
    refine ⟨[], .nil, Eq.symm ?_⟩
    rw [show [] = ownProperties trigram [] from rfl, ← hget, List.set_getElem_self]
    rfl
  | cons d rest ih =>
    -- A property that is no alias is in its place already, and the next alias waits behind one property more.
    have hown : ∀ (p : Property), p.isAlias = false → Property.ofDeclaration? trigram d = some p →
        g.keeps settings d = true →
        PendingAlias.ofProperties owner position (d :: rest) = PendingAlias.ofProperties owner (position + 1) rest →
        ∃ back, List.Forall₂ (MadeAt (Property.MadeBy trigram)) ((d :: rest).filter (g.keeps settings)) back
          ∧ (Diagnostic.collect (expandAlias (sourceIndex settings g).1) state
              (PendingAlias.ofProperties owner position (d :: rest))).1.nodes
            = state.nodes.set owner { node with properties := front ++ back } := by
      intro p halias hp hkeeps hsame
      let entry : Spanned Property := ⟨p, d.span⟩
      have hprops : ownProperties trigram (d :: rest) = entry :: ownProperties trigram rest :=
        List.filterMap_cons_some (by rw [hp]; rfl)
      have hlater : position + 1 + (front ++ [entry]).countP (·.value.isAlias) = (front ++ [entry]).length := by
        rw [List.countP_append, List.countP_singleton, if_neg (by rw [halias]; exact Bool.false_ne_true),
          List.length_append, List.length_singleton, ← hposition]
        omega
      rw [hprops, List.append_cons] at hnode
      rw [hsame] at hpending ⊢
      obtain ⟨back, hback, hcollect⟩ := ih hpending hstate hnode hlater
      refine ⟨entry :: back, ?_, by rw [hcollect, List.append_assoc, List.singleton_append]⟩
      rw [List.filter_cons_of_pos hkeeps]
      exact .cons ⟨rfl, .own hp⟩ hback
    cases d with
    | field d => exact hown _ rfl rfl rfl rfl
    | association d => exact hown _ rfl rfl rfl rfl
    | composition d => exact hown _ rfl rfl rfl rfl
    | «alias» d =>
      have hnext := hstate.step hg hnames hpending
      have hprops : ownProperties trigram (.alias d :: rest) = ownProperties trigram rest := rfl
      rw [hprops] at hnode
      rw [PendingAlias.ofProperties, List.cons_append, List.append_cons] at hpending
      rw [PendingAlias.ofProperties, Diagnostic.collect]
      dsimp only
      rcases hsource : g.namedSource? settings ⟨owner, position, d⟩ with _ | place
      · have hgone : ¬ g.keeps settings (.alias d) = true := by
          rw [keeps_alias ⟨owner, position, d⟩, hsource]
          exact Bool.false_ne_true
        rw [expandAlias_eq_none hnode (aliasProperty?_of_none hnames hsource _)] at hnext ⊢
        rw [List.filter_cons_of_neg hgone]
        exact ih hpending hnext hnode hposition
      · have hkept : g.keeps settings (.alias d) = true := by
          rw [keeps_alias ⟨owner, position, d⟩, hsource]
          rfl
        obtain ⟨entry, hentry, halias, hinserted⟩ := hstate.expandAlias_append hnames hnode hposition hsource
        have hlater : position + (front ++ [entry]).countP (·.value.isAlias) = (front ++ [entry]).length := by
          rw [List.countP_append, List.countP_singleton, if_pos halias, List.length_append, List.length_singleton,
            ← hposition, Nat.add_assoc]
        obtain ⟨back, hback, hcollect⟩ := ih hpending hnext
          (hinserted ▸ List.getElem?_set_self (List.getElem?_eq_some_iff.mp hnode).1) hlater
        refine ⟨entry :: back, ?_, ?_⟩
        · rw [List.filter_cons_of_pos hkept]
          exact .cons hentry hback
        · rw [hinserted, List.set_set, List.append_assoc, List.singleton_append] at hcollect
          exact hcollect

end oneClass

/-! ### The expansion of all classes -/

theorem Expanding.collect_ofNodes (hg : g.Waiting) (hnames : (g.nodes.map Node.name).Nodup)
    {before nodes : List Node} (hpending : g.pending = done ++ (PendingAlias.ofNodes before.length nodes ++ after))
    (hstate : g.Expanding settings done state) (hnodes : state.nodes = before ++ nodes)
    (hown : ∀ node ∈ nodes, node.properties
      = ownProperties (node.declared.trigram.map Spanned.value) node.declared.properties) :
    ∃ arranged : List Node, arranged.map (fun node => (node.file, node.declared))
        = nodes.map (fun node => (node.file, node.declared))
      ∧ (∀ node ∈ arranged, node.InOrder (g.keeps settings) Property.MadeBy)
      ∧ (Diagnostic.collect (expandAlias (sourceIndex settings g).1) state
          (PendingAlias.ofNodes before.length nodes)).1.nodes = before ++ arranged := by
  induction nodes generalizing before done state with
  | nil => exact ⟨[], rfl, fun _ h => absurd h List.not_mem_nil, hnodes⟩
  | cons node rest ih =>
    rw [PendingAlias.ofNodes, List.append_assoc] at hpending
    have hnode : state.nodes[before.length]? = some { node with
        properties := [] ++ ownProperties (node.declared.trigram.map Spanned.value) node.declared.properties } := by
      rw [hnodes, List.getElem?_append_right (Nat.le_refl _), Nat.sub_self, List.nil_append,
        ← hown node List.mem_cons_self]
      rfl
    obtain ⟨properties, hproperties, hfirst⟩ := hstate.collect_ofProperties hg hnames hpending hnode rfl
    have hnext := hstate.collect hg hnames hpending
    rw [hnodes, List.nil_append, List.set_append_right _ _ (Nat.le_refl _), Nat.sub_self, List.set_cons_zero,
      List.append_cons] at hfirst
    rw [← List.append_assoc] at hpending
    have hlength : before.length + 1 = (before ++ [{ node with properties }]).length := by
      rw [List.length_append, List.length_singleton]
    rw [hlength] at hpending
    obtain ⟨arranged, hclasses, horder, hrest⟩ := ih hpending hnext hfirst fun node hmem =>
      hown node (List.mem_cons_of_mem _ hmem)
    refine ⟨{ node with properties } :: arranged, ?_, List.forall_mem_cons.mpr ⟨hproperties, horder⟩, ?_⟩
    · rw [List.map_cons, hclasses, List.map_cons]
    · rw [PendingAlias.ofNodes, Diagnostic.collect_append, hlength, hrest, List.append_assoc,
        List.singleton_append]

theorem forall₂_rows (node : Node) : List.Forall₂ Row.MadeBy node.declared.rows node.toClass.rows :=
  List.forall₂_map_right_iff.mpr (List.forall₂_same.mpr fun d _ => Row.madeBy_ofDeclaration d)

theorem expanding_of_bind {problems : List Diagnostic} (hbind : Graph.bind files = .ok (g, problems))
    {before after : List PendingAlias} (hpending : g.pending = before ++ after) :
    g.Expanding settings before
      (Diagnostic.collect (expandAlias (sourceIndex settings g).1) { g with pending := [] } before).1 := by
  have hstart : g.Expanding settings [] { g with pending := [] } :=
    .start fun _ hnode _ hp => isAlias_of_bind hbind hnode hp
  exact hstart.collect (waiting_of_bind hbind) (bound_of_bind hbind).names hpending

theorem arranged_expandAliases {problems : List Diagnostic} (hbind : Graph.bind files = .ok (g, problems)) :
    (g.expandAliases settings).1.Arranged files (g.keeps settings) Property.MadeBy := by
  obtain ⟨hclasses, hpending, hown⟩ := bind_nodes hbind
  have hstart : g.Expanding settings [] { g with pending := [] } := expanding_of_bind hbind (List.nil_append _).symm
  have hpending' : g.pending = [] ++ (PendingAlias.ofNodes ([] : List Node).length g.nodes ++ []) := by
    rw [List.append_nil, List.nil_append]
    exact hpending
  obtain ⟨arranged, hsame, horder, hnodes⟩ :=
    hstart.collect_ofNodes (waiting_of_bind hbind) (bound_of_bind hbind).names hpending' rfl hown
  have hexpanded : (g.expandAliases settings).1.nodes = arranged := by
    rw [← List.nil_append arranged, ← hnodes, expandAliases, hpending]
    rfl
  refine ⟨?_, ?_, fun node _ => forall₂_rows node⟩
  · rw [hexpanded, hsame, hclasses]
  · rw [hexpanded]
    exact horder

/-! ### The binding of foreign keys -/

theorem map_outline_nodes (g : Graph) : g.outline.nodes.map (fun node => (node.file, node.declared))
    = g.nodes.map (fun node => (node.file, node.declared)) := by
  rw [outline, List.map_map]
  rfl

theorem length_properties_bindForeignKeys {owner : Nat} {before node : Node} (hbefore : g.nodes[owner]? = some before)
    (hnode : (g.bindForeignKeys settings).1.nodes[owner]? = some node) :
    before.properties.length = node.properties.length := by
  have hsame : (g.bindForeignKeys settings).1.propertyNames = g.propertyNames := propertyNames_bindForeignKeys g
  have hnames := congrArg (·[owner]?) hsame
  simp only [propertyNames, List.getElem?_map, hbefore, hnode, Option.map_some] at hnames
  simpa only [List.length_map] using (congrArg List.length (Option.some.inj hnames)).symm

theorem madeAt_bindForeignKeys {trigram : Option String} {d : Declaration.Property} {owner index : Nat}
    {before node : Node} (hbefore : g.nodes[owner]? = some before)
    (hnode : (g.bindForeignKeys settings).1.nodes[owner]? = some node) {p₁ p : Spanned Property}
    (hp₁ : before.properties[index]? = some p₁) (hp : node.properties[index]? = some p)
    (hmade : MadeAt (Property.MadeBy trigram) d p₁) : MadeAt (Property.MadeBoundBy settings trigram) d p := by
  have hat : (g.bindForeignKeys settings).1.propertyAt? ⟨owner, index⟩ = some p := by
    rw [propertyAt?, hnode, Option.bind_some, hp]
  obtain ⟨g', node', p', hat', -, -, rfl, -⟩ := (bindForeignKeys_spec settings g).propertyAt? hat
  rw [propertyAt?, hbefore, Option.bind_some, hp₁] at hat'
  obtain rfl := Option.some.inj hat'
  exact ⟨hmade.1, p₁.value, hmade.2, g'.boundProperty_cases node' p₁⟩

theorem Arranged.bindForeignKeys {kept : Declaration.Property → Bool} (hg : g.Arranged files kept Property.MadeBy) :
    (g.bindForeignKeys settings).1.Arranged files kept (Property.MadeBoundBy settings) := by
  have houtline : (g.bindForeignKeys settings).1.outline = g.outline := outline_bindForeignKeys g
  refine ⟨?_, fun node hnode => ?_, fun node _ => forall₂_rows node⟩
  · rw [← map_outline_nodes, houtline, map_outline_nodes, hg.classes]
  · obtain ⟨owner, howner⟩ := List.mem_iff_getElem?.mp hnode
    obtain ⟨before, hbefore, hsame⟩ := exists_node_of_outline_eq houtline howner
    have hdeclared : node.declared = before.declared := Node.declared_congr hsame
    obtain ⟨hlength, hmade⟩ := List.forall₂_iff_get.mp (hg.properties before (List.mem_of_getElem? hbefore))
    have hlength' := length_properties_bindForeignKeys hbefore howner
    rw [Node.InOrder, hdeclared, List.forall₂_iff_get]
    refine ⟨hlength.trans hlength', fun index hd hp => ?_⟩
    have hp₁ := hlength' ▸ hp
    exact madeAt_bindForeignKeys hbefore howner (List.getElem?_eq_getElem hp₁) (List.getElem?_eq_getElem hp)
      (hmade index hd hp₁)

theorem arranged_resolve {problems : List Diagnostic} (hbind : Graph.bind files = .ok (g, problems)) :
    (g.resolve settings).Arranged files (g.keeps settings) (Property.MadeBoundBy settings) :=
  (arranged_expandAliases hbind).bindForeignKeys

/-- An alias that is next is inserted within its class, if it makes a property at all. -/
theorem Expanding.room (hg : g.Waiting) (hnames : (g.nodes.map Node.name).Nodup)
    (hstate : g.Expanding settings done state) {a : PendingAlias} (hpending : g.pending = done ++ a :: after) :
    ∃ node, state.nodes[a.owner]? = some node
      ∧ a.position + node.properties.countP (·.value.isAlias) ≤ node.properties.length
      ∧ (state.aliasProperty? (sourceIndex settings g).1 node a.declared).1.isSome
        = g.keeps settings (.alias a.declared) := by
  obtain ⟨first, hfirst, hplaced⟩ := hg.placed a (hpending ▸ List.mem_append_right _ List.mem_cons_self)
  obtain ⟨node, hnode, -, hexpands⟩ := hstate a.owner first hfirst
  refine ⟨node, hnode, ?_, ?_⟩
  · rw [hexpands.aliases, hexpands.length]
    exact Nat.add_le_add_right hplaced _
  · rw [keeps_alias]
    rcases hsource : g.namedSource? settings a with _ | place
    · rw [aliasProperty?_of_none hnames hsource]
      rfl
    · obtain ⟨token, htoken, hplace⟩ := namedSource?_eq_some hsource
      obtain ⟨_, _, -, -, -, hcopy⟩ := hstate.aliasProperty?_of_some hnames htoken hplace node
      rw [hcopy]
      rfl

/-- **Declarations keep their order.** When aliases are expanded, and when foreign keys are bound, the properties of
each class are those of its declarations that make one, in order and each with its span, and so are its rows. No alias
is inserted behind the end of its class, and each makes a property if and only if its declaration is kept. -/
theorem bind_arranged {problems : List Diagnostic} (hbind : Graph.bind files = .ok (g, problems))
    (settings : Settings) :
    (g.expandAliases settings).1.Arranged files (g.keeps settings) Property.MadeBy
      ∧ ((g.expandAliases settings).1.bindForeignKeys settings).1.Arranged files (g.keeps settings)
        (Property.MadeBoundBy settings)
      ∧ ∀ before a after, g.pending = before ++ a :: after →
        let state := (Diagnostic.collect (expandAlias (sourceIndex settings g).1) { g with pending := [] } before).1
        ∃ node, state.nodes[a.owner]? = some node
          ∧ a.position + node.properties.countP (·.value.isAlias) ≤ node.properties.length
          ∧ (state.aliasProperty? (sourceIndex settings g).1 node a.declared).1.isSome
            = g.keeps settings (.alias a.declared) := by
  have hexpanded : (g.expandAliases settings).1.Arranged files (g.keeps settings) Property.MadeBy :=
    arranged_expandAliases hbind
  refine ⟨hexpanded, hexpanded.bindForeignKeys, fun before a after hpending => ?_⟩
  exact (expanding_of_bind hbind hpending).room (waiting_of_bind hbind) (bound_of_bind hbind).names hpending

open Written (copy field dataFile plain)

/-- A class with three aliases around its field, of which the first and the last name nothing. -/
def partlyAliased : List LoadedFile :=
  [dataFile "M" [] [] [
    plain "Item" [copy "Kind_None" ⟨0, 2⟩, field "Id" "DO_TEXT" ⟨2, 4⟩, copy "Kind_Code" ⟨4, 6⟩,
      copy "Kind" ⟨6, 8⟩] ⟨0, 8⟩,
    plain "Kind" [field "Code" "DO_TEXT" ⟨8, 9⟩] ⟨8, 9⟩]]

theorem bind_arranged_partlyAliased : ∃ g problems, Graph.bind partlyAliased = .ok (g, problems)
    ∧ (g.expandAliases {}).1.Arranged partlyAliased (g.keeps {}) Property.MadeBy
    ∧ ((g.expandAliases {}).1.bindForeignKeys {}).1.Arranged partlyAliased (g.keeps {}) (Property.MadeBoundBy {})
    ∧ (g.expandAliases {}).1.nodes.map (·.properties.map fun p => (p.value.name, p.span))
      = [[("Id", ⟨2, 4⟩), ("Code", ⟨4, 6⟩)], [("Code", ⟨8, 9⟩)]] := by
  have hok : (Graph.bind partlyAliased).toOption.map (fun bound =>
      (bound.1.expandAliases {}).1.nodes.map (·.properties.map fun p => (p.value.name, p.span)))
      = some [[("Id", ⟨2, 4⟩), ("Code", ⟨4, 6⟩)], [("Code", ⟨8, 9⟩)]] := by decide +kernel
  obtain ⟨⟨g, problems⟩, hsome, hproperties⟩ := Option.map_eq_some_iff.mp hok
  have hbind := eq_ok_of_toOption hsome
  obtain ⟨hexpanded, hbound, -⟩ := bind_arranged hbind {}
  exact ⟨g, problems, hbind, hexpanded, hbound, hproperties⟩

end Graph

end EntityModel
