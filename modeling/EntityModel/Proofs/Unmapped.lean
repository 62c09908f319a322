import EntityModel.Proofs.AliasAgreement
import EntityModel.Proofs.Problems
import EntityModel.Proofs.Projection

/-!
# Missing mappings

The check of domains looks at fields only, and exempts generated identifiers and abstract classes; the projection
looks at the domain of any property, and exempts generated identifiers. So for the fields of a class that is not
abstract the two agree, and an association or an alias, which has the domain of another property, has no warning
of its own (`lacksType_iff_of_run`).
-/

namespace EntityModel

open Diagnostic (hasErrors)

/-- A type is not found because a domain has no mapping for a target. -/
def Projection.IsMissing (projected : Except ProjectionError String) : Prop :=
  ∃ domain target, projected = .error (.missingTypeMapping domain target)

instance (projected : Except ProjectionError String) : Decidable (Projection.IsMissing projected) :=
  match projected with
  | .error (.missingTypeMapping domain target) => .isTrue ⟨domain, target, rfl⟩
  | .error (.notPersisted _ _) => .isFalse fun ⟨_, _, h⟩ => by cases h
  | .error (.unknownDomain _) => .isFalse fun ⟨_, _, h⟩ => by cases h
  | .error (.unknownProperty _ _) => .isFalse fun ⟨_, _, h⟩ => by cases h
  | .ok _ => .isFalse fun ⟨_, _, h⟩ => by cases h

/-- The persisted type of a property is missing when it is asked for. -/
def Model.LacksType (m : Model) (c : Class) (p : Property) : Prop :=
  Projection.IsMissing (m.projectProperty c.name p.name m.settings.persistedTarget)

instance (m : Model) (c : Class) (p : Property) : Decidable (m.LacksType c p) :=
  inferInstanceAs (Decidable (Projection.IsMissing _))

/-- A warning of the model announces that the persisted type of a property is missing. -/
def Model.Announces (m : Model) (c : Class) (p : Property) : Prop :=
  ∃ d ∈ m.warnings, d.kind = .unmappedDomain ∧ d.klass = some c.name ∧ d.field = some p.name

instance (m : Model) (c : Class) (p : Property) : Decidable (m.Announces c p) :=
  inferInstanceAs (Decidable (∃ d ∈ m.warnings, _))

/-! ### Where warnings come from -/

namespace Diagnostic

@[simp] theorem warnings_append (first last : List Diagnostic) :
    warnings (first ++ last) = warnings first ++ warnings last := List.filter_append ..

theorem mem_warnings {ds : List Diagnostic} {d : Diagnostic} : d ∈ warnings ds ↔ d ∈ ds ∧ d.isError = false := by
  simp [warnings, List.mem_filter]

theorem warnings_eq_nil {ds : List Diagnostic} (h : ∀ d ∈ ds, d.isError = true) : warnings ds = [] := by
  simpa [warnings, List.filter_eq_nil_iff] using h

theorem warnings_collect {σ α : Type} {step : σ → α → σ × List Diagnostic}
    (hstep : ∀ state item, ∀ d ∈ (step state item).2, d.isError = true) (state : σ) (items : List α) :
    warnings (collect step state items).2 = [] := by
  refine warnings_eq_nil (collect_induction (fun _ _ found => ∀ d ∈ found, d.isError = true) ?_ (by simp))
  intro _ item _ state found _ hfound d hd
  exact (List.mem_append.mp hd).elim (hfound d) (hstep state item d)

theorem warnings_flatMap {α : Type} {items : List α} {f : α → List Diagnostic}
    (h : ∀ item, ∀ d ∈ f item, d.isError = true) : warnings (items.flatMap f) = [] := by
  refine warnings_eq_nil fun d hd => ?_
  obtain ⟨item, -, hd⟩ := List.mem_flatMap.mp hd
  exact h item d hd

end Diagnostic

namespace Graph

variable {settings : Settings} {g : Graph} {files : List LoadedFile}

open Diagnostic (warnings warnings_flatMap warnings_collect)

theorem warnings_bind {problems : List Diagnostic} (h : Graph.bind files = .ok (g, problems)) :
    warnings problems = [] := by
  obtain ⟨declared, -, -, rfl⟩ := bind_eq_ok h
  exact warnings_flatMap fun node d hd => (refusals_parentDiagnostics declared node d hd).2

theorem warnings_expandAliases : warnings (g.expandAliases settings).2 = [] := by
  unfold expandAliases
  dsimp only
  rw [Diagnostic.warnings_append, List.append_eq_nil_iff]
  constructor
  · exact warnings_collect (fun index place d hd => (refusals_indexNode settings g index place d hd).2) _ _
  · refine warnings_collect (fun state pending d hd => ?_) _ _
    unfold expandAlias at hd
    split at hd
    · exact absurd hd List.not_mem_nil
    · next node _ =>
      have hrefused := state.refusals_aliasProperty? node (sourceIndex settings g).1 pending.declared
      dsimp only at hd
      split at hd
      · exact (hrefused d hd).2
      · exact (hrefused d hd).2

theorem warnings_bindForeignKeys : warnings (g.bindForeignKeys settings).2 = [] := by
  refine warnings_collect (fun state place d hd => ?_) _ _
  unfold bindProperty at hd
  split at hd
  · exact absurd hd List.not_mem_nil
  · next node _ =>
    split at hd
    · exact absurd hd List.not_mem_nil
    · next property _ => exact (state.refusals_boundProperty settings node property d hd).2

theorem mem_warnings_checkDiagnostics {d : Diagnostic} : d ∈ warnings (g.checkDiagnostics settings)
    ↔ ∃ node ∈ g.nodes, ∃ p ∈ node.properties, d ∈ domainDiagnostics settings g node p ∧ d.isError = false := by
  have hkeys : warnings g.primaryKeyDiagnostics = [] :=
    warnings_flatMap fun node d hd => (g.refusals_keyDiagnostics node d hd).2
  have hcycles : warnings g.cycleDiagnostics = [] := by
    refine Diagnostic.warnings_eq_nil fun d hd => ?_
    obtain ⟨⟨node, position⟩, -, hd⟩ := List.mem_filterMap.mp hd
    dsimp only at hd
    split at hd
    · obtain ⟨way, -, rfl⟩ := Option.map_eq_some_iff.mp hd
      exact (g.refusals_cycleDiagnostic node way _ List.mem_cons_self).2
    · cases hd
  have hrows : warnings (g.rowDiagnostics settings) = [] :=
    warnings_flatMap fun place d hd => (refusals_classRowDiagnostics settings g place d hd).2
  simp only [checkDiagnostics, Diagnostic.warnings_append, hkeys, hcycles, hrows, List.append_nil,
    Diagnostic.mem_warnings, propertyDiagnostics, List.mem_flatMap, List.mem_append]
  constructor
  · rintro ⟨⟨node, hnode, (hname | ⟨p, hp, hd⟩) | hlabel⟩, hwarning⟩
    · rw [(g.refusals_nameDiagnostics node d hname).2] at hwarning
      cases hwarning
    · exact ⟨node, hnode, p, hp, hd, hwarning⟩
    · rw [(g.refusals_labelDiagnostics node d hlabel).2] at hwarning
      cases hwarning
  · rintro ⟨node, hnode, p, hp, hd, hwarning⟩
    exact ⟨⟨node, hnode, Or.inl (Or.inr ⟨p, hp, hd⟩)⟩, hwarning⟩

/-- The problem of a field of a class that is not abstract whose domain has no persisted type, unless it is a
generated identifier. -/
theorem mem_domainDiagnostics_iff {node : Node} {p : Spanned Property} {d : Diagnostic} :
    d ∈ domainDiagnostics settings g node p ∧ d.isError = false
      ↔ ∃ field domain, p.value = .field field ∧ g.domain? field.domain = some domain
        ∧ isIdentity settings field domain = false ∧ node.declared.isAbstract = false
        ∧ domain.hasMapping settings.persistedTarget = false
        ∧ d = g.propertyDiagnostic node p .unmappedDomain (s!"domain '{domain.name}' of '{node.name}.{field.name}' "
          ++ s!"has no '{settings.persistedTarget}' mapping") := by
  obtain ⟨value, span⟩ := p
  unfold domainDiagnostics
  constructor
  · rintro ⟨hd, hwarning⟩
    split at hd
    · next field hvalue =>
      split at hd
      · obtain rfl := List.mem_singleton.mp hd
        cases hwarning
      · next domain hdomain =>
        split at hd
        · exact absurd hd List.not_mem_nil
        · next hcondition =>
          simp only [Bool.or_eq_true, not_or, Bool.not_eq_true] at hcondition
          exact ⟨field, domain, hvalue, hdomain, hcondition.1.1, hcondition.1.2, hcondition.2,
            List.mem_singleton.mp hd⟩
    · exact absurd hd List.not_mem_nil
  · rintro ⟨field, domain, rfl, hdomain, hidentity, habstract, hmapping, rfl⟩
    simp only [hdomain, hidentity, habstract, hmapping, Bool.or_self, Bool.false_eq_true, if_false]
    exact ⟨List.mem_cons_self, rfl⟩

/-! ### The published model -/

theorem property?_of_mem {node : Node} (hnames : (node.properties.map (·.value.name)).Nodup) {p : Spanned Property}
    (hp : p ∈ node.properties) : node.property? p.value.name = some p.value := by
  have hsome : (node.properties.find? (·.value.name == p.value.name)).isSome = true :=
    List.find?_isSome.mpr ⟨p, hp, beq_self_eq_true _⟩
  obtain ⟨q, hq⟩ := Option.isSome_iff_exists.mp hsome
  have hname : q.value.name = p.value.name := by simpa using List.find?_some hq
  obtain rfl := List.inj_on_of_nodup_map hnames (List.mem_of_find?_eq_some hq) hp hname
  rw [Node.property?, Class.property?, Node.toClass, List.find?_map]
  exact congrArg (Option.map Spanned.value) hq

theorem projectProperty_toModel (version : Nat) (ws : List Diagnostic) (hg : g.Bound files)
    (hclean : hasErrors (g.propertyDiagnostics settings) = false) {node : Node} (hnode : node ∈ g.nodes)
    {p : Property} (hp : p ∈ node.toClass.properties) (target : String) :
    (g.toModel version settings ws).projectProperty node.toClass.name p.name target
      = Projection.ofProperty (g.toModel version settings ws).domains settings node.toClass.name p target := by
  obtain ⟨q, hq, rfl⟩ := List.mem_map.mp hp
  have hclass : (g.toModel version settings ws).class? node.toClass.name = some node.toClass := by
    rw [class?_toModel]
    exact congrArg (Option.map Node.toClass) (hg.node?_of_mem hnode)
  have hproperty : node.toClass.property? q.value.name = some q.value :=
    property?_of_mem (nodup_names_of_clean hclean hnode) hq
  rw [Model.projectProperty, hclass]
  dsimp only
  rw [hproperty]
  rfl

theorem isMissing_persisted_iff {p : Property} {domain : Domain} :
    Projection.IsMissing (Projection.persisted settings p domain)
      ↔ (p.isPrimaryKey && domain.name == settings.identifierDomain) = false
        ∧ domain.hasMapping settings.persistedTarget = false := by
  unfold Projection.IsMissing Projection.persisted Projection.ofDomain Domain.hasMapping
  by_cases hidentity : (p.isPrimaryKey && domain.name == settings.identifierDomain) = true
  · simp [hidentity]
  · rcases hmapping : domain.mapping? settings.persistedTarget with _ | type
    · simp [hidentity, Except.map]
    · simp [hidentity, Except.map]

variable {version : Nat} {ws : List Diagnostic}

theorem lacksType_iff (hg : g.Resolved settings files)
    (hclean : hasErrors (g.propertyDiagnostics settings) = false) {node : Node} (hnode : node ∈ g.nodes)
    {p : Spanned Property} (hp : p ∈ node.properties) {name : String} (hname : p.value.domain = some name) :
    ∃ domain, g.domain? name = some domain
      ∧ ((g.toModel version settings ws).LacksType node.toClass p.value
        ↔ (p.value.isPrimaryKey && domain.name == settings.identifierDomain) = false
          ∧ domain.hasMapping settings.persistedTarget = false) := by
  obtain ⟨domain, hdomain⟩ := Option.isSome_iff_exists.mp (hg.domain_property hnode hp hname)
  refine ⟨domain, hdomain, ?_⟩
  have hget : (g.toModel version settings ws).domains.get? name = some domain :=
    (domain?_toModel version ws name).trans hdomain
  have hproject : (g.toModel version settings ws).projectProperty node.toClass.name p.value.name
      settings.persistedTarget = Projection.persisted settings p.value domain := by
    rw [projectProperty_toModel version ws hg.bound hclean hnode (List.mem_map_of_mem hp),
      Projection.ofProperty_of_domain hname hget, if_pos rfl]
  rw [← isMissing_persisted_iff, ← hproject]
  rfl

theorem announces_iff (hg : g.Bound files) (hclean : hasErrors (g.propertyDiagnostics settings) = false)
    (hws : ∀ d, d ∈ ws ↔ ∃ node ∈ g.nodes, ∃ p ∈ node.properties,
      d ∈ domainDiagnostics settings g node p ∧ d.isError = false)
    {node : Node} (hnode : node ∈ g.nodes) {p : Spanned Property} (hp : p ∈ node.properties) :
    (g.toModel version settings ws).Announces node.toClass p.value
      ↔ node.declared.isAbstract = false ∧ ∃ field domain, p.value = .field field
        ∧ g.domain? field.domain = some domain ∧ isIdentity settings field domain = false
        ∧ domain.hasMapping settings.persistedTarget = false := by
  constructor
  · rintro ⟨d, hd, -, hklass, hfield⟩
    obtain ⟨node', hnode', q, hq, hfound⟩ := (hws d).mp hd
    obtain ⟨field, domain, hvalue, hdomain, hidentity, habstract, hmapping, rfl⟩ := mem_domainDiagnostics_iff.mp hfound
    have hname : node'.name = node.name := Option.some.inj hklass
    obtain rfl : node' = node := List.inj_on_of_nodup_map hg.names hnode' hnode hname
    have hname' : q.value.name = p.value.name := Option.some.inj hfield
    obtain rfl : q = p := List.inj_on_of_nodup_map (nodup_names_of_clean hclean hnode) hq hp hname'
    exact ⟨habstract, field, domain, hvalue, hdomain, hidentity, hmapping⟩
  · rintro ⟨habstract, field, domain, hvalue, hdomain, hidentity, hmapping⟩
    have hfound := mem_domainDiagnostics_iff.mpr
      ⟨field, domain, hvalue, hdomain, hidentity, habstract, hmapping, rfl⟩
    exact ⟨_, (hws _).mpr ⟨node, hnode, p, hp, hfound⟩, rfl, rfl, rfl⟩

end Graph

namespace Resolution

theorem mem_warnings_iff {settings : Settings} {version : Nat} {files : List LoadedFile} {g : Graph}
    {problems diagnostics : List Diagnostic} {m : Model} (hbind : Graph.bind files = .ok (g, problems))
    (h : ofGraph settings version g problems = .ok ⟨some m, diagnostics⟩) :
    ∃ ws, m = (g.resolve settings).toModel version settings ws
      ∧ ∀ d, d ∈ ws ↔ ∃ node ∈ (g.resolve settings).nodes, ∃ p ∈ node.properties,
        d ∈ Graph.domainDiagnostics settings (g.resolve settings) node p ∧ d.isError = false := by
  obtain ⟨all, hall, hmodel⟩ := ofGraph_eq_ok h
  rw [Resolution.mk.injEq] at hmodel
  have hsome := hmodel.1
  split at hsome
  · cases hsome
  · refine ⟨Diagnostic.warnings all, Option.some.inj hsome, fun d => ?_⟩
    rw [hall, Diagnostic.warnings_append, Diagnostic.warnings_append, Diagnostic.warnings_append,
      Graph.warnings_bind hbind, Graph.warnings_expandAliases, Graph.warnings_bindForeignKeys, List.nil_append,
      List.nil_append, List.nil_append, ← Graph.mem_warnings_checkDiagnostics, Graph.resolve]

/-- **Missing mappings of fields are announced.** In a published model, for a class that is not abstract and a
property of it that has a domain: the persisted type of a field is missing exactly if there is a warning for it.
Associations and aliases have no warning of their own, and their persisted type is missing exactly if their domain
has none. -/
theorem lacksType_iff_of_run {sources : Sources} {settings : Settings} {changed : Option (List FileId)}
    {version : Nat} {cache : ParseCache} {m : Model} {diagnostics : List Diagnostic}
    (h : (run sources settings changed version cache).2 = .ok ⟨some m, diagnostics⟩) {c : Class}
    (hc : c ∈ m.classes) (habstract : c.isAbstract = false) {p : Property} (hp : p ∈ c.properties) {name : String}
    (hname : p.domain = some name) :
    ((∃ field, p = .field field) → (m.LacksType c p ↔ m.Announces c p))
      ∧ ((¬ ∃ field, p = .field field) → ¬ m.Announces c p
        ∧ (m.LacksType c p ↔ ∃ domain, m.domain? name = some domain
          ∧ domain.hasMapping m.settings.persistedTarget = false)) := by
  obtain ⟨files, ordered, g, problems, -, -, hbind, hgraph⟩ := run_eq_ok h
  obtain ⟨hclean, -⟩ := clean_of_ofGraph hgraph
  obtain ⟨ws, rfl, hws⟩ := mem_warnings_iff hbind hgraph
  obtain ⟨node, hnode, rfl⟩ := List.mem_map.mp hc
  obtain ⟨p, hmem, rfl⟩ := List.mem_map.mp hp
  have hg := hclean.resolved (List.Subset.refl ordered) hbind
  obtain ⟨domain, hdomain, hlacks⟩ := @Graph.lacksType_iff settings _ _ version ws hg hclean.properties node hnode p
    hmem name hname
  have hannounces := @Graph.announces_iff settings _ _ version ws hg.bound hclean.properties hws node hnode p hmem
  rw [hlacks, hannounces, Graph.domain?_toModel]
  constructor
  · rintro ⟨field, hfield⟩
    rw [hfield] at hname ⊢
    obtain rfl := Option.some.inj hname
    constructor
    · rintro ⟨hidentity, hmapping⟩
      exact ⟨habstract, field, domain, rfl, hdomain, hidentity, hmapping⟩
    · rintro ⟨-, field', domain', hsame, hdomain', hidentity, hmapping⟩
      cases hsame
      obtain rfl := Option.some.inj (hdomain.symm.trans hdomain')
      exact ⟨hidentity, hmapping⟩
  · intro hother
    have hkey : p.value.isPrimaryKey = false := by
      cases hvalue : p.value with
      | field field => exact absurd ⟨field, hvalue⟩ hother
      | _ => rfl
    refine ⟨fun ⟨_, field, _, hfield, _⟩ => hother ⟨field, hfield⟩, ?_⟩
    simp [hkey, hdomain, Graph.toModel]

/-- A class with a key and a field without a persisted type, and one that refers to it and copies the field. -/
def untyped : Sources := .ofFiles <| .ofList [(⟨"App", "Data", "Note"⟩,
  "domain DO_ID \x7b map ts = \"number\"; \x7d domain DO_TEXT \x7b map ts = \"string\"; \x7d "
    ++ "class Note \x7b field Id: DO_ID primary; field Text: DO_TEXT; \x7d "
    ++ "class Page \x7b field Id: DO_ID primary; ref NoteId -> Note; alias Note_Text; \x7d")]

def untypedText : Property.Field := { name := "Text", domain := "DO_TEXT", column := "TEXT" }

/-- What the run of `untyped` comes to: the persisted type of the field is missing, and that of a property which no
warning announces. -/
theorem run_untyped :
    ∃ m diagnostics, (run untyped { appName := some "App" } none 1 {}).2 = .ok ⟨some m, diagnostics⟩
      ∧ (∃ c ∈ m.classes, c.isAbstract = false ∧ .field untypedText ∈ c.properties
        ∧ m.LacksType c (.field untypedText))
      ∧ ∃ c ∈ m.classes, c.isAbstract = false ∧ ∃ p ∈ c.properties, p.domain.isSome ∧ m.LacksType c p
        ∧ ¬ m.Announces c p := by
  obtain ⟨m, diagnostics, hrun, hfound⟩ := exists_ok_of_any_model
    (show ((run untyped { appName := some "App" } none 1 {}).2.toOption.bind Resolution.model).any (fun m => decide
      ((∃ c ∈ m.classes, c.isAbstract = false ∧ .field untypedText ∈ c.properties
          ∧ m.LacksType c (.field untypedText))
        ∧ ∃ c ∈ m.classes, c.isAbstract = false ∧ ∃ p ∈ c.properties, p.domain.isSome ∧ m.LacksType c p
          ∧ ¬ m.Announces c p)) = true by decide +kernel)
  exact ⟨m, diagnostics, hrun, of_decide_eq_true hfound⟩

theorem lacksType_iff_of_run_untyped :
    ∃ m diagnostics, (run untyped { appName := some "App" } none 1 {}).2 = .ok ⟨some m, diagnostics⟩
      ∧ ∃ c ∈ m.classes, .field untypedText ∈ c.properties ∧ m.LacksType c (.field untypedText)
        ∧ m.Announces c (.field untypedText) := by
  obtain ⟨m, diagnostics, hrun, ⟨c, hc, habstract, hp, hlacks⟩, -⟩ := run_untyped
  have hiff := (lacksType_iff_of_run hrun hc habstract hp rfl).1 ⟨untypedText, rfl⟩
  exact ⟨m, diagnostics, hrun, c, hc, hp, hlacks, hiff.mp hlacks⟩

/-- An association to a generated identifier without a persisted type: no warning tells that its type is missing. -/
theorem exists_lacksType_not_announced :
    ∃ m diagnostics, (run untyped { appName := some "App" } none 1 {}).2 = .ok ⟨some m, diagnostics⟩
      ∧ ∃ c ∈ m.classes, c.isAbstract = false ∧ ∃ p ∈ c.properties, p.domain.isSome ∧ m.LacksType c p
        ∧ ¬ m.Announces c p := by
  obtain ⟨m, diagnostics, hrun, -, hfound⟩ := run_untyped
  exact ⟨m, diagnostics, hrun, hfound⟩

end Resolution

end EntityModel
