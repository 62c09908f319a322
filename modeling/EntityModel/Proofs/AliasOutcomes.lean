import EntityModel.Proofs.Arrangement

/-!
# What comes of each alias

The token of an alias and the graph before any alias is expanded decide what comes of it: its format is bad, its
source is not found, or a property is inserted for it (`Decides`). The expansion does this for every alias, in the
order of their declarations, and no alias that is expanded before makes a difference (`expandAliases_outcomes`).
-/

namespace EntityModel

/-! ### Tokens and the names in them -/

namespace AliasToken

/-- A text splits at its underscores into two to four parts, the first two of which, the names of a class and of a
property, are not empty. -/
def Names (text klass property : String) : Prop :=
  ∃ affixes : List (List Char), text.toList.splitOn '_' = klass.toList :: property.toList :: affixes
    ∧ affixes.length ≤ 2 ∧ klass ≠ "" ∧ property ≠ ""

theorem Names.unique {text klass property klass' property' : String} (h : Names text klass property)
    (h' : Names text klass' property') : klass = klass' ∧ property = property' := by
  obtain ⟨affixes, hsplit, -⟩ := h
  obtain ⟨affixes', hsplit', -⟩ := h'
  obtain ⟨hklass, hrest⟩ := List.cons.inj (hsplit.symm.trans hsplit')
  exact ⟨String.toList_inj.mp hklass, String.toList_inj.mp (List.cons.inj hrest).1⟩

theorem exists_parse?_iff {text klass property : String} :
    (∃ token, parse? text = some token ∧ token.klass = klass ∧ token.property = property)
      ↔ Names text klass property := by
  unfold parse? Names
  constructor
  · rintro ⟨token, htoken, rfl, rfl⟩
    split at htoken
    · next klass property affixes hsplit =>
      split at htoken
      · cases htoken
      · next hparts =>
        cases htoken
        simp only [Bool.or_eq_true, List.isEmpty_iff, decide_eq_true_eq, not_or, Nat.not_lt] at hparts
        obtain ⟨⟨hklass, hproperty⟩, hlength⟩ := hparts
        have hne {chars : List Char} (h : chars ≠ []) : String.ofList chars ≠ "" := fun hempty =>
          h (String.ofList_eq_empty_iff.mp hempty)
        exact ⟨affixes, by simpa using hsplit, hlength, hne hklass, hne hproperty⟩
    · cases htoken
  · rintro ⟨affixes, hsplit, hlength, hklass, hproperty⟩
    have hne {name : String} (h : name ≠ "") : name.toList.isEmpty = false := by
      rwa [List.isEmpty_eq_false_iff, ne_eq, String.toList_eq_nil_iff]
    have hparts : ¬ (klass.toList.isEmpty || property.toList.isEmpty || decide (2 < affixes.length)) = true := by
      rw [hne hklass, hne hproperty, Bool.false_or, Bool.false_or, decide_eq_true_eq]
      exact Nat.not_lt.mpr hlength
    rw [hsplit]
    dsimp only
    rw [if_neg hparts]
    exact ⟨_, rfl, String.ofList_toList, String.ofList_toList⟩

theorem parse?_eq_none_iff {text : String} : parse? text = none ↔ ¬ ∃ klass property, Names text klass property := by
  refine ⟨fun h ⟨klass, property, hnames⟩ => ?_, fun h => Option.eq_none_iff_forall_ne_some.mpr fun token htoken => ?_⟩
  · obtain ⟨token, htoken, -⟩ := exists_parse?_iff.mpr hnames
    cases h.symm.trans htoken
  · exact h ⟨_, _, exists_parse?_iff.mp ⟨token, htoken, rfl, rfl⟩⟩

end AliasToken

/-! ### What is decided before the expansion -/

inductive AliasOutcome where
  | badFormat
  | targetNotFound (klass property : String)
  | inserted (source : Node)

namespace Graph

/-- There is a class of a name that has a field or an association of a name, and not of the free alias domain. -/
def HasSource (settings : Settings) (g : Graph) (klass property : String) : Prop :=
  ∃ node ∈ g.nodes, node.name = klass ∧ ∃ p ∈ node.properties, p.value.name = property
    ∧ ((∃ field, p.value = .field field) ∨ ∃ association, p.value = .association association)
    ∧ p.value.domain ≠ some settings.freeAliasDomain

/-- What is to come of an alias with a token: no source is looked for if the token names none, and a property is
inserted if there is a source. -/
inductive Decides (settings : Settings) (g : Graph) (token : String) : AliasOutcome → Prop
  | badFormat : (¬ ∃ klass property, AliasToken.Names token klass property) → Decides settings g token .badFormat
  | targetNotFound {klass property : String} : AliasToken.Names token klass property →
      ¬ g.HasSource settings klass property → Decides settings g token (.targetNotFound klass property)
  | inserted {source : Node} {property : String} : AliasToken.Names token source.name property → source ∈ g.nodes →
      g.HasSource settings source.name property → Decides settings g token (.inserted source)

/-- What is reported of an alias of the class `node`. -/
def aliasReports (g : Graph) (node : Node) (declared : Declaration.Alias) : AliasOutcome → List Diagnostic
  | .badFormat => [g.fieldDiagnostic node .badAliasFormat declared.token.span declared.token.value
      s!"alias '{declared.token.value}' must be Class_Field with an optional prefix and suffix"]
  | .targetNotFound klass property => [g.fieldDiagnostic node .aliasTargetNotFound declared.token.span
      declared.token.value s!"alias '{declared.token.value}' matches no property {klass}.{property}"]
  | .inserted source =>
    if g.isVisible node.file source.file then []
    else [g.fieldDiagnostic node .undeclaredDependency declared.token.span declared.token.value <|
      s!"alias '{declared.token.value}' copies a property of '{source.name}' from {source.file.text} "
        ++ "which its file does not use"]

variable {settings : Settings} {g : Graph} {text : String} {token : AliasToken}

theorem isAliasSource_iff {p : Property} : isAliasSource settings p = true
    ↔ ((∃ field, p = .field field) ∨ ∃ association, p = .association association)
      ∧ p.domain ≠ some settings.freeAliasDomain := by
  rw [isAliasSource, Bool.and_eq_true, bne_iff_ne]
  refine and_congr_left fun _ => ?_
  cases p <;> simp [Property.isAlias, Property.isPersisted]

theorem sourceIndex?_isSome_iff {node : Node} {name : String} : (node.sourceIndex? settings name).isSome = true
    ↔ ∃ p ∈ node.properties, p.value.name = name
      ∧ ((∃ field, p.value = .field field) ∨ ∃ association, p.value = .association association)
      ∧ p.value.domain ≠ some settings.freeAliasDomain := by
  simp only [Node.sourceIndex?, List.findIdx?_isSome, List.any_eq_true, Bool.and_eq_true, beq_iff_eq,
    isAliasSource_iff, and_comm]

theorem Bound.sourcePlace?_isSome_iff {files : List LoadedFile} (hg : g.Bound files) :
    (g.sourcePlace? settings token).isSome = true ↔ g.HasSource settings token.klass token.property := by
  constructor
  · intro h
    obtain ⟨place, hplace⟩ := Option.isSome_iff_exists.mp h
    obtain ⟨node, hnode, hname, hindex⟩ := sourcePlace?_eq_some hplace
    exact ⟨node, List.mem_of_getElem? hnode, hname, sourceIndex?_isSome_iff.mp (by rw [hindex, Option.isSome_some])⟩
  · rintro ⟨node, hnode, hname, hsource⟩
    obtain ⟨index, hindex⟩ := Option.isSome_iff_exists.mp (sourceIndex?_isSome_iff.mpr hsource)
    have hfound := hg.node?_of_mem hnode
    rw [hname, node?_eq_bind_position?, Option.bind_eq_some_iff] at hfound
    obtain ⟨position, hposition, hat⟩ := hfound
    rw [sourcePlace?, hposition, Option.bind_some, hat, Option.bind_some, hindex, Option.map_some, Option.isSome_some]

theorem exists_decides (settings : Settings) (g : Graph) (text : String) :
    ∃ outcome, g.Decides settings text outcome := by
  by_cases hnames : ∃ klass property, AliasToken.Names text klass property
  · obtain ⟨klass, property, hnames⟩ := hnames
    by_cases hsource : g.HasSource settings klass property
    · obtain ⟨node, hnode, rfl, -⟩ := id hsource
      exact ⟨_, .inserted hnames hnode hsource⟩
    · exact ⟨_, .targetNotFound hnames hsource⟩
  · exact ⟨_, .badFormat hnames⟩

theorem Bound.decides_unique {files : List LoadedFile} (hg : g.Bound files) {outcome outcome' : AliasOutcome}
    (h : g.Decides settings text outcome) (h' : g.Decides settings text outcome') : outcome' = outcome := by
  cases h with
  | badFormat hbad =>
    cases h' with
    | badFormat => rfl
    | targetNotFound hnames => exact absurd ⟨_, _, hnames⟩ hbad
    | inserted hnames => exact absurd ⟨_, _, hnames⟩ hbad
  | targetNotFound hnames hnone =>
    cases h' with
    | badFormat hbad => exact absurd ⟨_, _, hnames⟩ hbad
    | targetNotFound hnames' =>
      obtain ⟨rfl, rfl⟩ := hnames.unique hnames'
      rfl
    | inserted hnames' _ hsource =>
      obtain ⟨rfl, rfl⟩ := hnames.unique hnames'
      exact absurd hsource hnone
  | inserted hnames hmem hsource =>
    cases h' with
    | badFormat hbad => exact absurd ⟨_, _, hnames⟩ hbad
    | targetNotFound hnames' hnone =>
      obtain ⟨rfl, rfl⟩ := hnames.unique hnames'
      exact absurd hsource hnone
    | inserted hnames' hmem' =>
      obtain ⟨hsame, -⟩ := hnames.unique hnames'
      have hfound := hg.node?_of_mem hmem
      rw [hsame, hg.node?_of_mem hmem'] at hfound
      rw [Option.some.inj hfound]

/-! ### Each step does what is decided -/

/-- What a step of the expansion does to the graph: nothing, if the alias has no token or the index has no place for
it, or it inserts a copy of the property that stands at the indexed place by now. Both places are within their
classes. -/
inductive Performs (settings : Settings) (g state : Graph) (a : PendingAlias) : AliasOutcome → Graph → Prop
  | badFormat : AliasToken.parse? a.declared.token.value = none → Performs settings g state a .badFormat state
  | targetNotFound {token : AliasToken} :
      AliasToken.parse? a.declared.token.value = some token → (sourceIndex settings g).1.lookup token.key = none →
      Performs settings g state a (.targetNotFound token.klass token.property) state
  | inserted {source owner node : Node} {token : AliasToken} {place : PropertyPosition} {p : Spanned Property} :
      AliasToken.parse? a.declared.token.value = some token →
      (sourceIndex settings g).1.lookup token.key = some place →
      state.nodes[place.owner]? = some owner → owner.name = source.name → owner.properties[place.index]? = some p →
      state.nodes[a.owner]? = some node →
      a.position + node.properties.countP (·.value.isAlias) ≤ node.properties.length →
      Performs settings g state a (.inserted source) { state with
        nodes := state.nodes.set a.owner { node with
          properties := node.properties.insertIdx (a.position + node.properties.countP (·.value.isAlias))
            ⟨.alias (aliasOf a.declared token owner.toClass p.value), a.declared.span⟩ } }

theorem aliasProperty?_eq_of_source {state : Graph} {index : SourceIndex} {declared : Declaration.Alias}
    (htoken : AliasToken.parse? declared.token.value = some token) {owner : Node} {source : Property}
    (hsource : state.source? index token = some (owner, source)) (node : Node) :
    state.aliasProperty? index node declared = (some (aliasOf declared token owner.toClass source),
      state.aliasReports node declared (.inserted owner)) := by
  obtain ⟨⟨text, span⟩, label, whole⟩ := declared
  unfold aliasProperty?
  simp only [htoken, hsource]
  rfl

theorem aliasProperty?_eq_of_format (state : Graph) (index : SourceIndex) {declared : Declaration.Alias}
    (htoken : AliasToken.parse? declared.token.value = none) (node : Node) :
    state.aliasProperty? index node declared = (none, state.aliasReports node declared .badFormat) := by
  obtain ⟨⟨text, span⟩, label, whole⟩ := declared
  unfold aliasProperty?
  simp only [htoken]
  rfl

theorem aliasProperty?_eq_of_target {state : Graph} {index : SourceIndex} {declared : Declaration.Alias}
    (htoken : AliasToken.parse? declared.token.value = some token) (hsource : state.source? index token = none)
    (node : Node) : state.aliasProperty? index node declared
      = (none, state.aliasReports node declared (.targetNotFound token.klass token.property)) := by
  obtain ⟨⟨text, span⟩, label, whole⟩ := declared
  unfold aliasProperty?
  simp only [htoken, hsource]
  rfl

theorem aliasReports_congr {g g' : Graph} (h : g.outline = g'.outline) {node node' : Node}
    (hnode : node.outline = node'.outline) (declared : Declaration.Alias) :
    g.aliasReports node declared = g'.aliasReports node' declared := by
  have hfile : node.file = node'.file := Node.file_congr hnode
  funext outcome
  cases outcome <;> simp only [aliasReports, isVisible_congr h, fieldDiagnostic_congr h hnode, hfile]

theorem aliasReports_congr_source {node source source' : Node} {declared : Declaration.Alias}
    (hsource : source.outline = source'.outline) :
    g.aliasReports node declared (.inserted source) = g.aliasReports node declared (.inserted source') := by
  have hfile : source.file = source'.file := Node.file_congr hsource
  have hname : source.name = source'.name := Node.name_congr hsource
  simp only [aliasReports, hfile, hname]

section steps

variable {files : List LoadedFile} {done after : List PendingAlias} {state : Graph}

/-- A step reports and does what was decided before the first one. -/
theorem Expanding.performs (hg : g.Bound files) (hwaiting : g.Waiting) (hstate : g.Expanding settings done state)
    (houtline : state.outline = g.outline) {a : PendingAlias} (hpending : g.pending = done ++ a :: after)
    {outcome : AliasOutcome} (h : g.Decides settings a.declared.token.value outcome) {first : Node}
    (hfirst : g.nodes[a.owner]? = some first) :
    (expandAlias (sourceIndex settings g).1 state a).2 = g.aliasReports first a.declared outcome
      ∧ g.Performs settings state a outcome (expandAlias (sourceIndex settings g).1 state a).1 := by
  obtain ⟨node, hnode, hroom, -⟩ := hstate.room hwaiting hg.names hpending
  have hsame := outline_node_congr houtline hnode hfirst
  rw [← aliasReports_congr houtline hsame]
  cases h with
  | badFormat hbad =>
    have hmade := aliasProperty?_eq_of_format state (sourceIndex settings g).1
      (AliasToken.parse?_eq_none_iff.mpr hbad) node
    rw [expandAlias_snd hnode, expandAlias_eq_none hnode (congrArg Prod.fst hmade), hmade]
    exact ⟨rfl, .badFormat (AliasToken.parse?_eq_none_iff.mpr hbad)⟩
  | targetNotFound hnames hnone =>
    obtain ⟨token, htoken, rfl, rfl⟩ := AliasToken.exists_parse?_iff.mpr hnames
    have hplace : g.sourcePlace? settings token = none :=
      Option.not_isSome_iff_eq_none.mp fun h => hnone (hg.sourcePlace?_isSome_iff.mp h)
    have hlost : state.source? (sourceIndex settings g).1 token = none := source?_of_none htoken hg.names hplace
    have hmade := aliasProperty?_eq_of_target htoken hlost node
    rw [expandAlias_snd hnode, expandAlias_eq_none hnode (congrArg Prod.fst hmade), hmade]
    exact ⟨rfl, .targetNotFound htoken ((lookup_sourceIndex hg.names htoken).trans hplace)⟩
  | @inserted source _ hnames hmem hsource =>
    obtain ⟨token, htoken, hklass, rfl⟩ := AliasToken.exists_parse?_iff.mpr hnames
    rw [← hklass] at hsource
    obtain ⟨place, hplace⟩ := Option.isSome_iff_exists.mp (hg.sourcePlace?_isSome_iff.mpr hsource)
    obtain ⟨owner, p, howner, hname, hp, hfound⟩ := hstate.source?_of_some hg.names htoken hplace
    have hmade := aliasProperty?_eq_of_source htoken hfound node
    -- the class at the place of the source is the one of the name in the token
    obtain ⟨source', hsource', hname', -⟩ := sourcePlace?_eq_some hplace
    have hsame' : some source' = some source := by
      rw [← hg.node?_of_mem hmem, ← hg.node?_of_mem (List.mem_of_getElem? hsource'), hname', hklass]
    obtain rfl := Option.some.inj hsame'
    rw [expandAlias_snd hnode, expandAlias_eq_some hnode (congrArg Prod.fst hmade), hmade]
    refine ⟨aliasReports_congr_source (outline_node_congr houtline howner hsource'), ?_⟩
    exact .inserted htoken ((lookup_sourceIndex hg.names htoken).trans hplace) howner (hname.trans hname'.symm) hp
      hnode hroom

end steps

section run

variable {files : List LoadedFile} {problems : List Diagnostic}

/-- The graph when some aliases have been expanded. -/
def expandedUntil (settings : Settings) (g : Graph) (done : List PendingAlias) : Graph :=
  (Diagnostic.collect (expandAlias (sourceIndex settings g).1) { g with pending := [] } done).1

theorem expandedUntil_concat (done : List PendingAlias) (a : PendingAlias) : g.expandedUntil settings (done ++ [a])
    = (expandAlias (sourceIndex settings g).1 (g.expandedUntil settings done) a).1 := by
  rw [expandedUntil, Diagnostic.collect_append]
  rfl

theorem performs_of_bind (hbind : Graph.bind files = .ok (g, problems)) {before after : List PendingAlias}
    {a : PendingAlias} (hpending : g.pending = before ++ a :: after) {outcome : AliasOutcome}
    (h : g.Decides settings a.declared.token.value outcome) :
    ∃ node, g.nodes[a.owner]? = some node
      ∧ (expandAlias (sourceIndex settings g).1 (g.expandedUntil settings before) a).2
        = g.aliasReports node a.declared outcome
      ∧ g.Performs settings (g.expandedUntil settings before) a outcome
        (expandAlias (sourceIndex settings g).1 (g.expandedUntil settings before) a).1 := by
  have hwaiting := waiting_of_bind hbind
  obtain ⟨node, hnode, -⟩ := hwaiting.placed a (hpending ▸ List.mem_append_right _ List.mem_cons_self)
  exact ⟨node, hnode, (expanding_of_bind hbind hpending).performs (bound_of_bind hbind) hwaiting
    (outline_collect_expandAlias _ _ _) hpending h hnode⟩

/-- The reports of all steps, if each goes by its alias alone. -/
theorem collect_expandAlias_snd {reports : PendingAlias → List Diagnostic}
    (h : ∀ before a after, g.pending = before ++ a :: after →
      (expandAlias (sourceIndex settings g).1 (g.expandedUntil settings before) a).2 = reports a) :
    (Diagnostic.collect (expandAlias (sourceIndex settings g).1) { g with pending := [] } g.pending).2
      = g.pending.flatMap reports := by
  refine (Diagnostic.collect_induction (fun done state found => state = g.expandedUntil settings done
    ∧ found = done.flatMap reports) ?_ ⟨rfl, rfl⟩).2
  rintro before a after state found hpending ⟨rfl, rfl⟩
  refine ⟨(expandedUntil_concat before a).symm, ?_⟩
  rw [h before a after hpending, List.flatMap_append, List.flatMap_singleton]

theorem reports_of_bind (hbind : Graph.bind files = .ok (g, problems)) {outcome : String → AliasOutcome}
    (h : ∀ token, g.Decides settings token (outcome token)) :
    (g.expandAliases settings).2 = (sourceIndex settings g).2 ++ g.pending.flatMap fun a =>
      g.nodes[a.owner]?.toList.flatMap (g.aliasReports · a.declared (outcome a.declared.token.value)) := by
  refine congrArg _ (collect_expandAlias_snd fun before a after hpending => ?_)
  obtain ⟨node, hnode, hreports, -⟩ := performs_of_bind hbind hpending (h a.declared.token.value)
  rw [hreports, hnode, Option.toList_some, List.flatMap_singleton]

end run

/-- **Every alias has one outcome, which is decided before the expansion.** The expansion leaves no alias waiting, and
reports of each alias that the classes declare what goes with its outcome, behind the conflicts of the index. Each step
does what was decided in the graph before the first one, and stays within the properties of the classes. -/
theorem expandAliases_outcomes {files : List LoadedFile} {problems : List Diagnostic}
    (hbind : Graph.bind files = .ok (g, problems)) (settings : Settings) :
    g.pending = PendingAlias.ofNodes 0 g.nodes
      ∧ (g.expandAliases settings).1.pending = []
      ∧ (g.expandAliases settings).1 = g.expandedUntil settings g.pending
      ∧ ∃ outcome : String → AliasOutcome,
        (∀ token, g.Decides settings token (outcome token)
          ∧ ∀ other, g.Decides settings token other → other = outcome token)
        ∧ (g.expandAliases settings).2 = (sourceIndex settings g).2 ++ g.pending.flatMap (fun a =>
          g.nodes[a.owner]?.toList.flatMap (g.aliasReports · a.declared (outcome a.declared.token.value)))
        ∧ ∀ before a after, g.pending = before ++ a :: after →
          ∃ node, g.nodes[a.owner]? = some node
            ∧ (expandAlias (sourceIndex settings g).1 (g.expandedUntil settings before) a).2
              = g.aliasReports node a.declared (outcome a.declared.token.value)
            ∧ g.Performs settings (g.expandedUntil settings before) a (outcome a.declared.token.value)
              (g.expandedUntil settings (before ++ [a])) := by
  choose outcome houtcome using exists_decides settings g
  refine ⟨(bind_nodes hbind).2.1, pending_expandAliases g, rfl, outcome, fun token => ?_,
    reports_of_bind hbind houtcome, fun before a after hpending => ?_⟩
  · exact ⟨houtcome token, fun other => (bound_of_bind hbind).decides_unique (houtcome token)⟩
  · rw [expandedUntil_concat]
    exact performs_of_bind hbind hpending (houtcome _)

open Written (copy field dataFile plain)

/-- A list, and in a file that does not use the one of the list a class with four aliases: the first is no token, the
second names no property, the third copies one that the file may not refer to, and the last one of the class itself. -/
def unseenList : List LoadedFile :=
  [dataFile "Kind" [] [] [plain "Kind" [field "Code" "DO_TEXT" ⟨0, 0⟩] ⟨0, 0⟩],
    dataFile "Item" [] [] [plain "Item" [copy "Kind" ⟨0, 0⟩, copy "Kind_None" ⟨0, 0⟩, copy "Kind_Code" ⟨0, 0⟩,
      field "Id" "DO_TEXT" ⟨0, 0⟩, copy "Item_Id_Own" ⟨0, 0⟩] ⟨0, 0⟩]]

theorem expandAliases_outcomes_unseenList : ∃ g problems, Graph.bind unseenList = .ok (g, problems)
    ∧ g.pending.length = 4 ∧ (g.expandAliases {}).1.pending = []
    ∧ (g.expandAliases {}).2.map Diagnostic.kind = [.badAliasFormat, .aliasTargetNotFound, .undeclaredDependency]
    ∧ ∃ outcome : String → AliasOutcome, outcome "Kind" = .badFormat
      ∧ (g.expandAliases {}).2 = (sourceIndex {} g).2 ++ g.pending.flatMap (fun a =>
        g.nodes[a.owner]?.toList.flatMap (g.aliasReports · a.declared (outcome a.declared.token.value))) := by
  have hok : (Graph.bind unseenList).toOption.map (fun bound =>
      (bound.1.pending.length, (bound.1.expandAliases {}).2.map Diagnostic.kind))
      = some (4, [.badAliasFormat, .aliasTargetNotFound, .undeclaredDependency]) := by decide +kernel
  obtain ⟨⟨g, problems⟩, hsome, hfound⟩ := Option.map_eq_some_iff.mp hok
  have hbind := eq_ok_of_toOption hsome
  obtain ⟨hlength, hkinds⟩ := Prod.mk.inj hfound
  obtain ⟨-, hpending, -, outcome, hdecides, hreports, -⟩ := expandAliases_outcomes hbind {}
  have hbad : g.Decides {} "Kind" .badFormat := .badFormat (AliasToken.parse?_eq_none_iff.mp (by decide +kernel))
  exact ⟨g, problems, hbind, hlength, hpending, hkinds, outcome, ((hdecides "Kind").2 _ hbad).symm, hreports⟩

end Graph

end EntityModel
