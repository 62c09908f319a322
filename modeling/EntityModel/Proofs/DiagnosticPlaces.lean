import EntityModel.Proofs.AliasAgreement
import EntityModel.Proofs.AliasOutcomes
import EntityModel.Proofs.Nesting
import EntityModel.Proofs.ParseCache
import EntityModel.Proofs.Problems

/-!
# Where problems point

Every problem of a run is about a class that one of the files declares, and points at something that is written in that
class (`diagnostics_point_of_run`). Problems of properties point at the declaration of the property that they name:
later stages insert aliases and bind keys, but every property stays at its declaration and keeps its name
(`Graph.RetainedIn`).
-/

namespace EntityModel

/-! ### What later stages keep -/

/-- A class has become another one, with the same declaration and all its properties, at their places and with their
names. -/
structure Node.RetainedIn (node node' : Node) : Prop where
  file : node.file = node'.file
  declared : node.declared = node'.declared
  properties : ∀ p ∈ node.properties, ∃ p' ∈ node'.properties, p.span = p'.span ∧ p.value.name = p'.value.name

theorem Node.retainedIn_self (node : Node) : node.RetainedIn node := ⟨rfl, rfl, fun p hp => ⟨p, hp, rfl, rfl⟩⟩

theorem Node.RetainedIn.trans {node node' node'' : Node} (h : node.RetainedIn node') (h' : node'.RetainedIn node'') :
    node.RetainedIn node'' := by
  refine ⟨h.file.trans h'.file, h.declared.trans h'.declared, fun p hp => ?_⟩
  obtain ⟨p', hp', hspan, hname⟩ := h.properties p hp
  obtain ⟨p'', hp'', hspan', hname'⟩ := h'.properties p' hp'
  exact ⟨p'', hp'', hspan.trans hspan', hname.trans hname'⟩

theorem Node.RetainedIn.about {node node' : Node} {d : Diagnostic} (h : node.RetainedIn node') (hd : d.About node) :
    d.About node' :=
  ⟨hd.file.trans h.file, hd.klass.trans (congrArg (fun c => some c.name.value) h.declared)⟩

namespace Graph

variable {settings : Settings} {g g' g'' : Graph} {d : Diagnostic}

/-- A graph has become another one, with the same files and all its classes. -/
structure RetainedIn (g g' : Graph) : Prop where
  scopes : g.scopes = g'.scopes
  nodes : ∀ node ∈ g.nodes, ∃ node' ∈ g'.nodes, node.RetainedIn node'

theorem retainedIn_self (g : Graph) : g.RetainedIn g := ⟨rfl, fun node hnode => ⟨node, hnode, node.retainedIn_self⟩⟩

theorem RetainedIn.trans (h : g.RetainedIn g') (h' : g'.RetainedIn g'') : g.RetainedIn g'' := by
  refine ⟨h.scopes.trans h'.scopes, fun node hnode => ?_⟩
  obtain ⟨node', hnode', hsame⟩ := h.nodes node hnode
  obtain ⟨node'', hnode'', hsame'⟩ := h'.nodes node' hnode'
  exact ⟨node'', hnode'', hsame.trans hsame'⟩

theorem retainedIn_expandAlias (index : SourceIndex) (pending : PendingAlias) :
    g.RetainedIn (expandAlias index g pending).1 := by
  refine ⟨(congrArg (fun g => g.scopes) (outline_expandAlias index pending)).symm, fun node hnode => ?_⟩
  obtain ⟨node', hnode', hsame, hsub⟩ := exists_node_expandAlias index pending hnode
  exact ⟨node', hnode', Node.file_congr hsame, Node.declared_congr hsame, fun p hp => ⟨p, hsub hp, rfl, rfl⟩⟩

theorem retainedIn_expandAliases (g : Graph) : g.RetainedIn (g.expandAliases settings).1 := by
  refine Diagnostic.collect_induction (fun _ (state : Graph) _ => g.RetainedIn state) ?_ ?_
  · intro _ pending _ state _ _ hstate
    exact hstate.trans (retainedIn_expandAlias _ pending)
  · exact ⟨rfl, (retainedIn_self g).nodes⟩

theorem retainedIn_bindProperty (place : PropertyPosition) : g.RetainedIn (g.bindProperty settings place).1 := by
  rcases hnode : g.nodes[place.owner]? with _ | node
  · simp only [bindProperty, hnode]
    exact retainedIn_self g
  · rcases hp : node.properties[place.index]? with _ | p
    · simp only [bindProperty, hnode, hp]
      exact retainedIn_self g
    · rw [bindProperty_eq hnode hp]
      refine ⟨rfl, fun other hother => exists_mem_set Node.RetainedIn Node.retainedIn_self hnode ?_ hother⟩
      refine ⟨rfl, rfl, fun q hq => ?_⟩
      refine exists_mem_set (fun before after => before.span = after.span ∧ before.value.name = after.value.name)
        (fun _ => ⟨rfl, rfl⟩) hp ?_ hq
      exact ⟨rfl, (name_boundProperty node p).symm⟩

theorem retainedIn_bindForeignKeys (g : Graph) : g.RetainedIn (g.bindForeignKeys settings).1 := by
  refine Diagnostic.collect_induction (fun _ (state : Graph) _ => g.RetainedIn state) ?_ (retainedIn_self g)
  intro _ place _ state _ _ hstate
  exact hstate.trans (retainedIn_bindProperty place)

theorem retainedIn_resolve (settings : Settings) (g : Graph) : g.RetainedIn (g.resolve settings) :=
  (retainedIn_expandAliases g).trans (retainedIn_bindForeignKeys _)

/-! ### Problems of a graph -/

/-- A problem of a class points at something that is written in the class. -/
def PointsIntoClass (g : Graph) (d : Diagnostic) : Prop :=
  ∃ node ∈ g.nodes, d.About node ∧ ∃ span ∈ node.declared.spansInside, d.location = g.locate node.file span

/-- A problem of a property names it and points at its declaration. -/
def PointsAtProperty (g : Graph) (d : Diagnostic) : Prop :=
  ∃ node ∈ g.nodes, d.About node ∧ ∃ p ∈ node.properties,
    d.field = some p.value.name ∧ d.location = g.locate node.file p.span

theorem locate_congr (h : g.scopes = g'.scopes) : g.locate = g'.locate := by
  funext file span
  rw [locate, locate, scope?, scope?, h]

theorem PointsIntoClass.mono (hd : g.PointsIntoClass d) (h : g.RetainedIn g') : g'.PointsIntoClass d := by
  obtain ⟨node, hnode, habout, span, hspan, hlocation⟩ := hd
  obtain ⟨node', hnode', hsame⟩ := h.nodes node hnode
  refine ⟨node', hnode', hsame.about habout, span, hsame.declared ▸ hspan, ?_⟩
  rw [hlocation, locate_congr h.scopes, hsame.file]

theorem PointsAtProperty.mono (hd : g.PointsAtProperty d) (h : g.RetainedIn g') : g'.PointsAtProperty d := by
  obtain ⟨node, hnode, habout, p, hp, hfield, hlocation⟩ := hd
  obtain ⟨node', hnode', hsame⟩ := h.nodes node hnode
  obtain ⟨p', hp', hspan, hname⟩ := hsame.properties p hp
  refine ⟨node', hnode', hsame.about habout, p', hp', hname ▸ hfield, ?_⟩
  rw [hlocation, locate_congr h.scopes, hsame.file, hspan]

end Graph

/-- Whether a problem is of a kind that only properties have, or of a property that leads to no class or key. -/
def Diagnostic.isOfProperty (d : Diagnostic) : Bool :=
  match d.kind with
  | .conflictingAlias | .duplicateProperty | .unknownDomain | .unmappedDomain | .duplicatePrimaryKey => true
  | .unresolvedReference => d.field.isSome
  | _ => false

namespace Graph

/-- Problems of a graph point at the properties that they are about, or else into the classes. -/
def Places (g : Graph) (ds : List Diagnostic) : Prop :=
  ∀ d ∈ ds, g.PointsAtProperty d ∨ d.isOfProperty = false ∧ g.PointsIntoClass d

variable {settings : Settings} {g g' : Graph} {node : Node}

theorem places_nil : g.Places [] := fun _ h => absurd h List.not_mem_nil

theorem Places.append {first last : List Diagnostic} (h : g.Places first) (h' : g.Places last) :
    g.Places (first ++ last) :=
  List.forall_mem_append.mpr ⟨h, h'⟩

theorem places_flatMap {α : Type} {items : List α} {f : α → List Diagnostic} (h : ∀ a ∈ items, g.Places (f a)) :
    g.Places (items.flatMap f) := by
  intro d hd
  obtain ⟨a, ha, hd⟩ := List.mem_flatMap.mp hd
  exact h a ha d hd

theorem Places.mono {ds : List Diagnostic} (hds : g.Places ds) (h : g.RetainedIn g') : g'.Places ds :=
  fun d hd => (hds d hd).imp (·.mono h) fun hclass => ⟨hclass.1, hclass.2.mono h⟩

theorem pointsAtProperty (hnode : node ∈ g.nodes) {p : Spanned Property} (hp : p ∈ node.properties)
    (kind : DiagnosticKind) (message : String) : g.PointsAtProperty (g.propertyDiagnostic node p kind message) :=
  ⟨node, hnode, ⟨rfl, rfl⟩, p, hp, rfl, rfl⟩

theorem places_property (hnode : node ∈ g.nodes) {p : Spanned Property} (hp : p ∈ node.properties)
    {kind : DiagnosticKind} {message : String} : g.Places [g.propertyDiagnostic node p kind message] :=
  List.forall_mem_singleton.mpr (Or.inl (pointsAtProperty hnode hp kind message))

theorem places_class (hnode : node ∈ g.nodes) {d : Diagnostic} (habout : d.About node) (hkind : d.isOfProperty = false)
    {span : Span} (hlocation : d.location = g.locate node.file span) (hspan : span ∈ node.declared.spansInside) :
    g.Places [d] :=
  List.forall_mem_singleton.mpr (Or.inr ⟨hkind, node, hnode, habout, span, hspan, hlocation⟩)

theorem places_collect {σ α : Type} {step : σ → α → σ × List Diagnostic} {items : List α}
    (hstep : ∀ state, ∀ item ∈ items, g.Places (step state item).2) (state : σ) :
    g.Places (Diagnostic.collect step state items).2 := by
  refine Diagnostic.collect_induction (fun _ _ found => g.Places found) ?_ places_nil
  intro before item after state found hitems hfound
  exact hfound.append (hstep state item (hitems ▸ List.mem_append_right _ List.mem_cons_self))

/-! ### Names and aliases -/

theorem places_parentDiagnostics (hnode : node ∈ g.nodes) : g.Places (g.parentDiagnostics node) := by
  unfold parentDiagnostics
  split
  · exact places_nil
  · next name span hparent =>
    have hspan : span ∈ node.declared.spansInside := Declaration.Class.parent_mem hparent
    split
    · exact places_class hnode ⟨rfl, rfl⟩ rfl rfl hspan
    · split
      · exact places_nil
      · exact places_class hnode ⟨rfl, rfl⟩ rfl rfl hspan

theorem places_of_bind {files : List LoadedFile} {problems : List Diagnostic}
    (hbind : Graph.bind files = .ok (g, problems)) : g.Places problems := by
  obtain ⟨declared, -, rfl, rfl⟩ := bind_eq_ok hbind
  have hplaces : declared.Places (declared.nodes.flatMap declared.parentDiagnostics) :=
    places_flatMap fun _ hnode => places_parentDiagnostics hnode
  refine hplaces.mono ⟨rfl, fun node hnode => ⟨declared.withParent node, List.mem_map_of_mem hnode, ?_⟩⟩
  exact ⟨rfl, rfl, fun p hp => ⟨p, hp, rfl, rfl⟩⟩

theorem places_indexProperty (hnode : node ∈ g.nodes) (owner : Nat) (index : SourceIndex)
    {place : Spanned Property × Nat} (hplace : place.1 ∈ node.properties) :
    g.Places (g.indexProperty owner node index place).2 := by
  unfold indexProperty
  dsimp only
  split
  · exact places_nil
  · split
    · exact places_nil
    · exact places_property hnode hplace

theorem places_sourceIndex (settings : Settings) (g : Graph) : g.Places (sourceIndex settings g).2 := by
  refine places_collect (fun index (node, owner) hnode => ?_) _
  have hmem : node ∈ g.nodes := List.fst_mem_of_mem_zipIdx hnode
  refine places_collect (fun index place hplace => places_indexProperty hmem owner index ?_) _
  exact List.fst_mem_of_mem_zipIdx (List.mem_of_mem_filter hplace)

theorem places_aliasReports (hnode : node ∈ g.nodes) {declared : Declaration.Alias}
    (hdeclared : .alias declared ∈ node.declared.properties) (outcome : AliasOutcome) :
    g.Places (g.aliasReports node declared outcome) := by
  have hspan : declared.token.span ∈ node.declared.spansInside :=
    Declaration.Class.property_mem hdeclared (List.mem_cons_of_mem _ List.mem_cons_self)
  cases outcome with
  | badFormat => exact places_class hnode ⟨rfl, rfl⟩ rfl rfl hspan
  | targetNotFound => exact places_class hnode ⟨rfl, rfl⟩ rfl rfl hspan
  | inserted source =>
    rw [aliasReports]
    split
    · exact places_nil
    · exact places_class hnode ⟨rfl, rfl⟩ rfl rfl hspan

theorem places_expandAliases {files : List LoadedFile} {problems : List Diagnostic}
    (hbind : Graph.bind files = .ok (g, problems)) (settings : Settings) :
    g.Places (g.expandAliases settings).2 := by
  choose outcome houtcome using exists_decides settings g
  rw [reports_of_bind hbind houtcome]
  refine (places_sourceIndex settings g).append (places_flatMap fun a ha => ?_)
  rw [(bind_nodes hbind).2.1] at ha
  obtain ⟨node, hnode, hdeclared⟩ := PendingAlias.exists_node_of_mem_ofNodes ha
  rw [Nat.sub_zero] at hnode
  rw [hnode, Option.toList_some, List.flatMap_singleton]
  exact places_aliasReports (List.mem_of_getElem? hnode) hdeclared _

/-! ### Keys -/

theorem pointsAtProperty_boundProperty (hnode : node ∈ g.nodes) {p : Spanned Property} (hp : p ∈ node.properties)
    {d : Diagnostic} (hd : d ∈ (g.boundProperty settings node p).2) : g.PointsAtProperty d := by
  obtain ⟨kind, message, -, rfl⟩ := g.isLinkProblem_of_mem_boundProperty settings node hd
  exact pointsAtProperty hnode hp kind message

/-- The problems of the binding, in the graph that it leaves. -/
theorem pointsAtProperty_bindForeignKeys (g : Graph) {d : Diagnostic} (hd : d ∈ (g.bindForeignKeys settings).2) :
    (g.bindForeignKeys settings).1.PointsAtProperty d := by
  suffices hall : ∀ d ∈ (g.bindForeignKeys settings).2, (g.bindForeignKeys settings).1.PointsAtProperty d from hall d hd
  refine Diagnostic.collect_induction (fun _ (state : Graph) found => ∀ d ∈ found, state.PointsAtProperty d) ?_
    fun _ h => absurd h List.not_mem_nil
  intro _ place _ state found _ hfound
  refine List.forall_mem_append.mpr ⟨fun d hd => (hfound d hd).mono (retainedIn_bindProperty place), fun d hd => ?_⟩
  rcases hnode : state.nodes[place.owner]? with _ | node
  · simp only [bindProperty, hnode] at hd
    cases hd
  · rcases hp : node.properties[place.index]? with _ | p
    · simp only [bindProperty, hnode, hp] at hd
      cases hd
    · rw [bindProperty_eq hnode hp] at hd
      have hpoints := pointsAtProperty_boundProperty (List.mem_of_getElem? hnode) (List.mem_of_getElem? hp) hd
      exact hpoints.mono (retainedIn_bindProperty place)

/-! ### Checks -/

theorem repeatedNames_subset (seen : List String) (properties : List (Spanned Property)) :
    repeatedNames seen properties ⊆ properties := by
  induction properties generalizing seen with
  | nil => exact List.Subset.refl _
  | cons p rest ih =>
    rw [repeatedNames]
    split
    · exact List.cons_subset_cons p (ih seen)
    · exact List.subset_cons_of_subset p (ih _)

theorem places_nameDiagnostics (hnode : node ∈ g.nodes) : g.Places (g.nameDiagnostics node) := by
  refine List.forall_mem_map.mpr fun p hp => Or.inl ?_
  exact pointsAtProperty hnode (repeatedNames_subset _ _ hp) _ _

theorem places_domainDiagnostics (hnode : node ∈ g.nodes) {p : Spanned Property} (hp : p ∈ node.properties) :
    g.Places (domainDiagnostics settings g node p) := by
  unfold domainDiagnostics
  split
  · split
    · exact places_property hnode hp
    · split
      · exact places_nil
      · exact places_property hnode hp
  · exact places_nil

theorem places_labelDiagnostics (hnode : node ∈ g.nodes) : g.Places (g.labelDiagnostics node) := by
  unfold labelDiagnostics
  split
  · exact places_nil
  · next name span hlabel =>
    split
    · exact places_nil
    · exact places_class hnode ⟨rfl, rfl⟩ rfl rfl (Declaration.Class.label_mem hlabel)

theorem places_keyDiagnostics (hnode : node ∈ g.nodes) : g.Places (g.keyDiagnostics node) := by
  unfold keyDiagnostics
  split
  · next second rest hkeys =>
    refine places_property hnode (List.mem_of_mem_filter (p := fun p => p.value.isPrimaryKey) ?_)
    rw [hkeys]
    exact List.mem_cons_of_mem _ List.mem_cons_self
  · next own _ _ hkeys _ =>
    refine places_property hnode (List.mem_of_mem_filter (p := fun p => p.value.isPrimaryKey) ?_)
    rw [hkeys]
    exact List.mem_cons_self
  · split
    · exact places_nil
    · exact places_class hnode ⟨rfl, rfl⟩ rfl rfl (Declaration.Class.name_mem _)
  · exact places_nil

theorem places_cycleDiagnostics (g : Graph) : g.Places g.cycleDiagnostics := by
  intro d hd
  obtain ⟨⟨node, position⟩, hnode, hfound⟩ := List.mem_filterMap.mp hd
  have hmem : node ∈ g.nodes := List.fst_mem_of_mem_zipIdx hnode
  dsimp only at hfound
  split at hfound
  · obtain ⟨way, -, rfl⟩ := Option.map_eq_some_iff.mp hfound
    exact Or.inr ⟨rfl, node, hmem, ⟨rfl, rfl⟩, _, Declaration.Class.name_mem _, rfl⟩
  · cases hfound

theorem places_rowDiagnosticsAfter (hnode : node ∈ g.nodes) (key : Option Property) (earlier : List Declaration.Row)
    {rows : List Declaration.Row} (hrows : rows ⊆ node.declared.rows) :
    g.Places (rowDiagnosticsAfter settings g node key earlier rows) := by
  induction rows generalizing earlier with
  | nil => exact places_nil
  | cons row rows ih =>
    have hrow : row ∈ node.declared.rows := hrows List.mem_cons_self
    have hspan : row.span ∈ node.declared.spansInside := Declaration.Class.row_mem hrow List.mem_cons_self
    have hrepeated : g.Places (g.repeatedRowDiagnostics node earlier row) := by
      unfold repeatedRowDiagnostics
      split
      · exact places_class hnode ⟨rfl, rfl⟩ rfl rfl hspan
      · exact places_nil
    have hmissing : g.Places (missingValueDiagnostics settings g node row) :=
      List.forall_mem_map.mpr fun p _ => Or.inr ⟨rfl, node, hnode, ⟨rfl, rfl⟩, _, hspan, rfl⟩
    have hunknown : g.Places (g.unknownFieldDiagnostics node row) := by
      refine List.forall_mem_map.mpr fun value hvalue => Or.inr ⟨rfl, node, hnode, ⟨rfl, rfl⟩, value.1.span, ?_, rfl⟩
      refine Declaration.Class.row_mem hrow (List.mem_cons_of_mem _ (List.mem_cons_of_mem _ ?_))
      exact List.mem_flatMap.mpr ⟨value, List.mem_of_mem_filter hvalue, List.mem_cons_self⟩
    have hkey : g.Places (g.repeatedKeyDiagnostics node key earlier row) := by
      unfold repeatedKeyDiagnostics
      split
      · exact places_nil
      · split
        · exact places_class hnode ⟨rfl, rfl⟩ rfl rfl hspan
        · exact places_nil
    exact (((hrepeated.append hmissing).append hunknown).append hkey).append
      (ih _ fun other hother => hrows (List.mem_cons_of_mem _ hother))

theorem places_rowDiagnostics (settings : Settings) (g : Graph) : g.Places (g.rowDiagnostics settings) := by
  refine places_flatMap fun (node, position) hnode => ?_
  have hmem : node ∈ g.nodes := List.fst_mem_of_mem_zipIdx hnode
  unfold classRowDiagnostics
  dsimp only
  split
  · exact places_nil
  · next first rest hrows =>
    split
    · exact places_rowDiagnosticsAfter hmem _ _ (List.Subset.refl _)
    · have hfirst : first ∈ node.declared.rows := hrows ▸ List.mem_cons_self
      exact places_class hmem ⟨rfl, rfl⟩ rfl rfl (Declaration.Class.row_mem hfirst List.mem_cons_self)

theorem places_checkDiagnostics (settings : Settings) (g : Graph) : g.Places (g.checkDiagnostics settings) := by
  have hproperties : g.Places (g.propertyDiagnostics settings) := by
    refine places_flatMap fun node hnode => ?_
    refine ((places_nameDiagnostics hnode).append ?_).append (places_labelDiagnostics hnode)
    exact places_flatMap fun p hp => places_domainDiagnostics hnode hp
  have hkeys : g.Places g.primaryKeyDiagnostics := places_flatMap fun node hnode => places_keyDiagnostics hnode
  exact ((hproperties.append hkeys).append (places_cycleDiagnostics g)).append (places_rowDiagnostics settings g)

/-! ### Files -/

variable {files : List LoadedFile} {problems : List Diagnostic}

theorem locate_of_bind (hbind : Graph.bind files = .ok (g, problems)) (hids : (files.map LoadedFile.id).Nodup)
    {file : LoadedFile} (hfile : file ∈ files) (span : Span) :
    g.locate file.id span = some (span.locate file.text) := by
  obtain ⟨declared, hdeclared, rfl, -⟩ := bind_eq_ok hbind
  have hscopes := scopes_of_foldlM hdeclared
  rw [show ({} : Graph).scopes.map Scope.file = [] from rfl, List.append_nil] at hscopes
  obtain ⟨scope, hscope, hsame⟩ : ∃ scope ∈ declared.scopes, scope.file = file := by
    rw [← List.mem_map, hscopes, List.mem_reverse]
    exact hfile
  have hfound : (declared.scope? file.id).isSome = true := by
    rw [scope?, List.find?_isSome]
    exact ⟨scope, hscope, by rw [hsame, beq_self_eq_true]⟩
  obtain ⟨found, hfound⟩ := Option.isSome_iff_exists.mp hfound
  obtain ⟨hmem, hid⟩ := mem_of_scope? hfound
  have hfile' : found.file ∈ files := by
    rw [← List.mem_reverse, ← hscopes]
    exact List.mem_map_of_mem hmem
  have hlocate : declared.locate file.id span = some (span.locate found.file.text) := by
    rw [locate, hfound, Option.map_some]
  rw [List.inj_on_of_nodup_map hids hfile' hfile hid] at hlocate
  exact hlocate

end Graph

/-- A problem points at something that is written in a class of a file: its location is where that starts, and it names
the file and the class. -/
structure Diagnostic.PointsAt (d : Diagnostic) (file : LoadedFile) (c : Declaration.Class) (span : Span) : Prop where
  location : d.location = some (span.locate file.text)
  written : span ∈ c.spansInside
  file : d.file = file.id
  klass : d.klass = some c.name.value

namespace Graph

/-- A property of a class of a file has a name in the graph, and stands at a span: where it is declared. -/
def HasPropertyAt (settings : Settings) (g : Graph) (file : LoadedFile) (c : Declaration.Class) (name : String)
    (span : Span) : Prop :=
  ∃ node ∈ g.nodes, node.file = file.id ∧ node.declared = c ∧ ∃ p ∈ node.properties,
    p.value.name = name ∧ p.span = span ∧ ∃ declared ∈ c.properties,
      MadeAt (Property.MadeBoundBy settings (c.trigram.map Spanned.value)) declared p

section resolved

variable {settings : Settings} {files : List LoadedFile} {g : Graph} {problems : List Diagnostic} {d : Diagnostic}
  (hbind : Graph.bind files = .ok (g, problems)) (hids : (files.map LoadedFile.id).Nodup)
include hbind hids

theorem pointsAt_of_about {node : Node} (hnode : node ∈ (g.resolve settings).nodes) (habout : d.About node)
    {span : Span} (hspan : span ∈ node.declared.spansInside)
    (hlocation : d.location = (g.resolve settings).locate node.file span) :
    ∃ file ∈ files, node.file = file.id ∧ node.declared ∈ file.declared.classes
      ∧ d.PointsAt file node.declared span := by
  have hbound := (bound_of_bind hbind).congr (outline_resolve settings g).symm
  obtain ⟨file, hfile, hid, hdeclared⟩ := hbound.declared node hnode
  rw [← locate_congr (retainedIn_resolve settings g).scopes, ← hid, locate_of_bind hbind hids hfile] at hlocation
  exact ⟨file, hfile, hid.symm, hdeclared, hlocation, hspan, habout.file.trans hid.symm, habout.klass⟩

theorem PointsIntoClass.pointsAt (hd : (g.resolve settings).PointsIntoClass d) :
    ∃ file ∈ files, ∃ c ∈ file.declared.classes, ∃ span, d.PointsAt file c span := by
  obtain ⟨node, hnode, habout, span, hspan, hlocation⟩ := hd
  obtain ⟨file, hfile, -, hdeclared, hpoints⟩ := pointsAt_of_about hbind hids hnode habout hspan hlocation
  exact ⟨file, hfile, node.declared, hdeclared, span, hpoints⟩

theorem PointsAtProperty.pointsAt (hd : (g.resolve settings).PointsAtProperty d) :
    ∃ file ∈ files, ∃ c ∈ file.declared.classes, ∃ span, d.PointsAt file c span
      ∧ ∃ name, d.field = some name ∧ (g.resolve settings).HasPropertyAt settings file c name span := by
  obtain ⟨node, hnode, habout, p, hp, hfield, hlocation⟩ := hd
  obtain ⟨declared, hdeclared, hmade⟩ := (arranged_resolve hbind).exists_madeAt hnode hp
  have hspan : p.span ∈ node.declared.spansInside :=
    Declaration.Class.property_mem hdeclared (hmade.1 ▸ declared.span_mem)
  obtain ⟨file, hfile, hid, hclass, hpoints⟩ := pointsAt_of_about hbind hids hnode habout hspan hlocation
  exact ⟨file, hfile, node.declared, hclass, p.span, hpoints, p.value.name, hfield, node, hnode, hid, rfl, p, hp, rfl,
    rfl, declared, hdeclared, hmade⟩

end resolved

end Graph

namespace Resolution

variable {settings : Settings} {version : Nat} {ordered : List LoadedFile} {g : Graph} {problems : List Diagnostic}
  {resolution : Resolution}

theorem points_of_ofGraph (hbind : Graph.bind ordered = .ok (g, problems)) (hids : (ordered.map LoadedFile.id).Nodup)
    (h : ofGraph settings version g problems = .ok resolution) {d : Diagnostic} (hd : d ∈ resolution.diagnostics) :
    ∃ file ∈ ordered, ∃ c ∈ file.declared.classes, ∃ span, d.PointsAt file c span
      ∧ (d.isOfProperty = true ∨ d ∈ ((g.expandAliases settings).1.bindForeignKeys settings).2 →
        ∃ name, d.field = some name ∧ (g.resolve settings).HasPropertyAt settings file c name span) := by
  obtain ⟨diagnostics, hall, rfl⟩ := ofGraph_eq_ok h
  have hproperty (hpoints : (g.resolve settings).PointsAtProperty d) := hpoints.pointsAt hbind hids
  rw [show Resolution.diagnostics _ = diagnostics from rfl, hall] at hd
  by_cases hkeys : d ∈ ((g.expandAliases settings).1.bindForeignKeys settings).2
  · obtain ⟨file, hfile, c, hc, span, hpoints, hnamed⟩ := hproperty (Graph.pointsAtProperty_bindForeignKeys _ hkeys)
    exact ⟨file, hfile, c, hc, span, hpoints, fun _ => hnamed⟩
  · have hbefore := ((Graph.places_of_bind hbind).append (Graph.places_expandAliases hbind settings)).mono
      (Graph.retainedIn_resolve settings g)
    have hplaced : (g.resolve settings).PointsAtProperty d
        ∨ d.isOfProperty = false ∧ (g.resolve settings).PointsIntoClass d := by
      rcases List.mem_append.mp hd with hd | hd
      · exact hbefore d ((List.mem_append.mp hd).resolve_right hkeys)
      · exact Graph.places_checkDiagnostics settings (g.resolve settings) d hd
    rcases hplaced with hpoints | ⟨hkind, hpoints⟩
    · obtain ⟨file, hfile, c, hc, span, hpoints, hnamed⟩ := hproperty hpoints
      exact ⟨file, hfile, c, hc, span, hpoints, fun _ => hnamed⟩
    · obtain ⟨file, hfile, c, hc, span, hpoints⟩ := hpoints.pointsAt hbind hids
      refine ⟨file, hfile, c, hc, span, hpoints, fun hcase => ?_⟩
      rcases hcase with hcase | hcase
      · rw [hkind] at hcase
        cases hcase
      · exact absurd hcase hkeys

/-- **Problems point into the class that they name.** Every problem of a run that ends without a fault names a file that
is read and a class that the text of the file declares, and has a location: that of the start of something that is
written in the class, and within it. A problem of a property, which has a kind of its own or is found when keys are
bound, points at the declaration of the property that it names. -/
theorem diagnostics_point_of_run {events : List ParseCache.Event} {sources : Sources} {changed : Option (List FileId)}
    (h : (run sources settings changed version (.after events)).2 = .ok resolution) :
    ∃ files ordered g problems, ((ParseCache.after events).readAll sources settings changed).2 = .ok files
      ∧ LoadOrder.order files = .ok ordered ∧ Graph.bind ordered = .ok (g, problems)
      ∧ ∀ d ∈ resolution.diagnostics, ∃ file ∈ files, Declaration.File.parse file.text = .ok file.declared
        ∧ ∃ c ∈ file.declared.classes, ∃ span, d.PointsAt file c span ∧ span.Within c.span
          ∧ (d.isOfProperty = true ∨ d ∈ ((g.expandAliases settings).1.bindForeignKeys settings).2 →
            ∃ name, d.field = some name ∧ (g.resolve settings).HasPropertyAt settings file c name span) := by
  obtain ⟨files, ordered, g, problems, hread, horder, hbind, hgraph⟩ := run_eq_ok h
  refine ⟨files, ordered, g, problems, hread, horder, hbind, fun d hd => ?_⟩
  have hids := (LoadOrder.isLeastOrder_of_order horder).1.nodup
  obtain ⟨file, hfile, c, hc, span, hpoints, hnamed⟩ := points_of_ofGraph hbind hids hgraph hd
  have hmem := LoadOrder.order_subset horder hfile
  have hparse := ParseCache.parse_of_readAll sources settings changed (ParseCache.valid_after events) hread hmem
  have hwithin := Declaration.within_of_parse hparse hc span hpoints.written
  exact ⟨file, hmem, hparse, c, hc, span, hpoints, hwithin, hnamed⟩

/-- A class with a base and a reference that lead nowhere, an alias that is no token, and a property that has the name
of an alias before it. -/
def flawed : Sources := .ofFiles <| .ofList [(⟨"App", "Data", "Item"⟩,
  "domain DO_ID \x7b map sql = \"int\"; \x7d\nclass Key \x7b field Code: DO_ID primary; \x7d\n"
    ++ "class Item : Base \x7b\n  alias Key_Code;\n  ref Kind -> Kind;\n  alias Kind;\n"
    ++ "  field Code: DO_ID primary;\n\x7d\n")]

theorem diagnostics_point_of_run_flawed : ∃ resolution,
    (run flawed { appName := some "App" } none 1 (.after [])).2 = .ok resolution
      ∧ resolution.diagnostics.map (fun d => (d.kind, d.field, d.location)) = [
        (.unresolvedReference, none, some ⟨3, 14⟩), (.badAliasFormat, some "Kind", some ⟨6, 9⟩),
        (.unresolvedReference, some "Kind", some ⟨5, 3⟩), (.duplicateProperty, some "Code", some ⟨7, 3⟩)]
      ∧ ∀ d ∈ resolution.diagnostics, ∃ file c span, d.PointsAt file c span ∧ span.Within c.span := by
  have hok : (run flawed { appName := some "App" } none 1 (.after [])).2.toOption.map (fun resolution =>
      resolution.diagnostics.map fun d => (d.kind, d.field, d.location)) = some [
        (.unresolvedReference, none, some ⟨3, 14⟩), (.badAliasFormat, some "Kind", some ⟨6, 9⟩),
        (.unresolvedReference, some "Kind", some ⟨5, 3⟩), (.duplicateProperty, some "Code", some ⟨7, 3⟩)] := by
    decide +kernel
  obtain ⟨resolution, hsome, hreported⟩ := Option.map_eq_some_iff.mp hok
  have hrun := eq_ok_of_toOption hsome
  obtain ⟨_, _, _, _, -, -, -, hpoints⟩ := diagnostics_point_of_run hrun
  refine ⟨resolution, hrun, hreported, fun d hd => ?_⟩
  obtain ⟨file, -, -, c, -, span, hpoint, hwithin, -⟩ := hpoints d hd
  exact ⟨file, c, span, hpoint, hwithin⟩

end Resolution

end EntityModel
