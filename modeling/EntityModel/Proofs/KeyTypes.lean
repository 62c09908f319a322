import EntityModel.Proofs.KeyLookup
import EntityModel.Proofs.Unmapped

/-!
# Types of foreign keys

An association has the domain of the key that it points to, so that the projection finds for both what the domain is
mapped to, and fails for both if it is not. Only the key can be an identity column, and only the association can have
a code type (`typedLike_of_run`).
-/

namespace EntityModel

open Diagnostic (hasErrors)

/-- An association points to a key: the primary key of its target, and what its reference names. The class that
declares the key is the target or one that this extends. -/
structure Model.PointsTo (m : Model) (a : Property.Association) (owner : Class) (key : Property.Field) : Prop where
  target : ∃ target, m.class? a.target = some target ∧ m.primaryKey? target = some (.field key) ∧ m.Above target owner
  owner : owner ∈ m.classes ∧ owner.ownPrimaryKey? = some (.field key)
  reference : ∃ reference, a.reference = some reference ∧ reference.klass = a.target ∧ reference.key = key.name

/-- How the type of an association for a target goes by that of the key that it points to. The domain is that of
the key. -/
structure Property.Association.TypedLike (a : Property.Association) (settings : Settings) (domain : Domain)
    (target : String) (foreign key : Except ProjectionError String) : Prop where
  identity : target = settings.persistedTarget → domain.name = settings.identifierDomain →
    key = .ok settings.identityColumnType
      ∧ foreign = (Projection.ofDomain domain target).map (Projection.sized domain)
  code : target = settings.clientTarget → target ≠ settings.persistedTarget →
    ∀ name, a.reference.map Reference.clientType = some (.code name) → foreign = .ok name
  same : (target = settings.persistedTarget → domain.name ≠ settings.identifierDomain) →
    (target = settings.clientTarget → target ≠ settings.persistedTarget →
      ∀ name, a.reference.map Reference.clientType ≠ some (.code name)) → foreign = key

namespace Model

variable {m : Model} {a : Property.Association}

theorem BindsAssociation.exists_pointsTo (h : m.BindsAssociation a) : ∃ owner key, m.PointsTo a owner key := by
  obtain ⟨target, key, -, -, reference, htarget, hkey, -, -, -, -, hreference, hklass, hnamed, -⟩ := h
  obtain ⟨owner, howner, habove, hown⟩ := exists_above_of_primaryKeyWithin? (mem_of_class? htarget) hkey
  obtain ⟨field, rfl, -⟩ := Property.exists_field_of_isPrimaryKey (List.find?_some hown)
  exact ⟨owner, field, ⟨target, htarget, hkey, habove⟩, ⟨howner, hown⟩, reference, hreference, hklass, hnamed⟩

/-- As a name has one class and a class one primary key, an association points to the key that it is bound to. -/
theorem PointsTo.domain {owner : Class} {key : Property.Field} (h : m.PointsTo a owner key)
    (hbinds : m.BindsAssociation a) : a.domain = some key.domain := by
  obtain ⟨target, htarget, hkey, -⟩ := h.target
  obtain ⟨target', key', name, -, -, htarget', hkey', hname, -, hdomain, -⟩ := hbinds
  obtain rfl := Option.some.inj (htarget.symm.trans htarget')
  obtain rfl := Option.some.inj (hkey.symm.trans hkey')
  exact hdomain.trans hname.symm

end Model

/-! ### Projections of one domain -/

namespace Projection

variable {settings : Settings} {domain : Domain}

theorem typedLike {domains : SortedMap String Domain} {a : Property.Association} {key : Property.Field}
    (hdomain : domains.get? key.domain = some domain) (hsame : a.domain = some key.domain)
    (hprimary : key.primaryKey = true) (ha : a.many = false) (hkey : key.many = false) (klass owner target : String) :
    a.TypedLike settings domain target (ofProperty domains settings klass (.association a) target)
      (ofProperty domains settings owner (.field key) target) := by
  rw [ofProperty_of_domain (p := .association a) hsame hdomain, ofProperty_of_domain (p := .field key) rfl hdomain,
    map_collection_of_one (p := .association a) ha, map_collection_of_one (p := .field key) hkey,
    persisted_of_other (p := .association a) fun h => by cases h]
  by_cases hpersisted : target = settings.persistedTarget
  · subst hpersisted
    rw [if_pos rfl, if_pos rfl]
    refine ⟨fun _ hidentity => ⟨persisted_of_identity hprimary hidentity, rfl⟩, fun _ hne => absurd rfl hne, ?_⟩
    intro hother _
    exact (persisted_of_other fun _ => hother rfl).symm
  · rw [if_neg hpersisted, if_neg hpersisted]
    refine ⟨fun h => absurd h hpersisted, fun hclient _ name hname => ?_, fun _ hscalar => ?_⟩
    · rw [if_pos hclient]
      exact clientValue_of_code hname
    · by_cases hclient : target = settings.clientTarget
      · rw [if_pos hclient, if_pos hclient]
        rw [clientValue_of_scalar (p := .association a) (hscalar hclient hpersisted),
          clientValue_of_scalar (p := .field key) fun name h => by cases h]
      · rw [if_neg hclient, if_neg hclient]

end Projection

/-! ### Domains know their names -/

namespace Graph

variable {settings : Settings} {files : List LoadedFile} {g g' : Graph}

/-- A domain is found by its own name. -/
def DomainsNamed (g : Graph) : Prop :=
  ∀ name domain, g.domain? name = some domain → domain.name = name

theorem DomainsNamed.declareDomain (hg : g.DomainsNamed) {file : FileId} {declared : Declaration.Domain}
    (h : declareDomain file g declared = .ok g') : g'.DomainsNamed := by
  obtain rfl := declareDomain_eq_ok h
  intro name domain hdomain
  rw [domain?] at hdomain
  by_cases hname : declared.name.value = name
  · rw [← hname, SortedMap.get?_insert_self, Option.map_some, Option.some_inj] at hdomain
    rw [← hdomain, ← hname]
    rfl
  · rw [SortedMap.get?_insert_of_ne _ _ hname] at hdomain
    exact hg name domain hdomain

theorem DomainsNamed.declareFile (hg : g.DomainsNamed) {file : LoadedFile} (h : declareFile g file = .ok g') :
    g'.DomainsNamed := by
  obtain ⟨-, mid, hdomains, hclasses⟩ := declareFile_eq_ok h
  have hopened : (g.withScope file).DomainsNamed := hg
  have hmid := foldlM_induction (fun _ _ _ _ hs h => DomainsNamed.declareDomain hs h) hopened hdomains
  rw [declareClasses_eq_ok hclasses]
  exact hmid

theorem domainsNamed_of_bind {problems : List Diagnostic} (h : Graph.bind files = .ok (g, problems)) :
    g.DomainsNamed := by
  obtain ⟨declared, hdeclared, rfl, -⟩ := bind_eq_ok h
  have hempty : DomainsNamed {} := fun name domain hdomain => by cases hdomain
  have hnamed : declared.DomainsNamed :=
    foldlM_induction (fun _ _ _ _ hs h => DomainsNamed.declareFile hs h) hempty hdeclared
  exact hnamed

theorem DomainsNamed.congr (hg : g.DomainsNamed) (h : g.outline = g'.outline) : g'.DomainsNamed :=
  fun name domain hdomain => hg name domain ((domain?_congr h name).trans hdomain)

theorem Resolved.typedLike (hg : g.Resolved settings files) (hnamed : g.DomainsNamed)
    (hclean : hasErrors (g.propertyDiagnostics settings) = false) (version : Nat) (ws : List Diagnostic)
    {node other : Node} (hnode : node ∈ g.nodes) (hother : other ∈ g.nodes) {a : Property.Association}
    (ha : .association a ∈ node.toClass.properties) (hmany : a.many = false) {key : Property.Field}
    (hkey : .field key ∈ other.toClass.properties) (hprimary : key.primaryKey = true) (hone : key.many = false)
    (hsame : a.domain = some key.domain) :
    ∃ domain, (g.toModel version settings ws).domain? key.domain = some domain ∧ domain.name = key.domain
      ∧ ∀ target, a.TypedLike settings domain target
        ((g.toModel version settings ws).projectProperty node.toClass.name a.name target)
        ((g.toModel version settings ws).projectProperty other.toClass.name key.name target) := by
  obtain ⟨p, hp, hvalue⟩ := List.mem_map.mp hkey
  have hdomain : p.value.domain = some key.domain := by rw [hvalue]; rfl
  obtain ⟨domain, hfound⟩ := Option.isSome_iff_exists.mp (hg.domain_property hother hp hdomain)
  have hmodel : (g.toModel version settings ws).domain? key.domain = some domain :=
    (domain?_toModel version ws key.domain).trans hfound
  refine ⟨domain, hmodel, hnamed _ _ hfound, fun target => ?_⟩
  have hforeign := projectProperty_toModel version ws hg.bound hclean hnode ha target
  have hdeclared := projectProperty_toModel version ws hg.bound hclean hother hkey target
  simp only [Property.name] at hforeign hdeclared
  rw [hforeign, hdeclared]
  exact Projection.typedLike hmodel hsame hprimary hmany hone _ _ target

end Graph

namespace Resolution

/-- **A foreign key is typed like its key.** In a published model, an association that holds one value points to a
key. If that key holds one value too, then for every target the projection gives the association what it gives the key
in the class that declares it, be it a type or an error, with two exceptions. For the persisted target a key of the
identifier domain is an identity column, and the association has the persisted type of that domain. For the client
target, if that is another one, an association with a code type has this. -/
theorem typedLike_of_run {sources : Sources} {settings : Settings} {changed : Option (List FileId)} {version : Nat}
    {cache : ParseCache} {m : Model} {diagnostics : List Diagnostic}
    (h : (run sources settings changed version cache).2 = .ok ⟨some m, diagnostics⟩) {c : Class}
    (hc : c ∈ m.classes) {a : Property.Association} (ha : .association a ∈ c.properties) (hmany : a.many = false) :
    (∃ owner key, m.PointsTo a owner key)
      ∧ ∀ owner key, m.PointsTo a owner key → key.many = false →
        ∃ domain, m.domain? key.domain = some domain ∧ domain.name = key.domain
          ∧ ∀ target, a.TypedLike m.settings domain target (m.projectProperty c.name a.name target)
            (m.projectProperty owner.name key.name target) := by
  obtain ⟨files, ordered, g, problems, -, -, hbind, hclean, ws, rfl⟩ := run_eq_ok_some h
  have hg := hclean.resolved (List.Subset.refl ordered) hbind
  have hnamed := (Graph.domainsNamed_of_bind hbind).congr (Graph.outline_resolve settings g).symm
  obtain ⟨node, hnode, rfl⟩ := List.mem_map.mp hc
  have hbinds := ((hg.closed version ws).property _ hc _ ha).2
  refine ⟨hbinds.exists_pointsTo, fun owner key hpoints hone => ?_⟩
  obtain ⟨howner, hown⟩ := hpoints.owner
  obtain ⟨other, hother, rfl⟩ := List.mem_map.mp howner
  have hprimary : (Property.field key).isPrimaryKey = true := List.find?_some hown
  exact hg.typedLike hnamed hclean.properties version ws hnode hother ha hmany (List.mem_of_find?_eq_some hown)
    hprimary hone (hpoints.domain hbinds)

/-- A class that refers to one with an inherited key, and to a list with a code. -/
def keyed : Sources := .ofFiles <| .ofList [(⟨"App", "Data", "Item"⟩,
  "domain DO_ID \x7b map sql = \"int\"; \x7d domain DO_CODE \x7b map sql = \"char\"; \x7d "
    ++ "class Base \x7b field Id: DO_ID primary; \x7d class Sub : Base \x7b \x7d "
    ++ "class Kind reference \x7b field Code: DO_CODE primary; \x7d "
    ++ "class Item : Base \x7b ref SubId -> Sub; ref KindCode -> Kind; \x7d")]

def subId : Property.Association :=
  { name := "SubId", target := "Sub", domain := some "DO_ID", column := some "ID",
    reference := some ⟨"Sub", "Id", .scalar⟩, accessor := some "SubId" }

def kindCode : Property.Association :=
  { name := "KindCode", target := "Kind", domain := some "DO_CODE", column := some "CODE",
    reference := some ⟨"Kind", "Code", .code "KindCode"⟩, accessor := some "KindCode" }

theorem typedLike_of_run_keyed :
    ∃ m diagnostics, (run keyed { appName := some "App" } none 1 {}).2 = .ok ⟨some m, diagnostics⟩
      ∧ ∃ c ∈ m.classes, ∀ a ∈ [subId, kindCode], .association a ∈ c.properties
        ∧ ∃ owner key domain, m.PointsTo a owner key ∧ ∀ target, a.TypedLike m.settings domain target
          (m.projectProperty c.name a.name target) (m.projectProperty owner.name key.name target) := by
  obtain ⟨m, diagnostics, hrun, hfound⟩ := exists_ok_of_any_model
    (show ((run keyed { appName := some "App" } none 1 {}).2.toOption.bind Resolution.model).any (fun m => decide
      ((∀ c ∈ m.classes, ∀ p ∈ c.properties, p.isMany = false)
        ∧ ∃ c ∈ m.classes, ∀ a ∈ [subId, kindCode], .association a ∈ c.properties)) = true by decide +kernel)
  obtain ⟨hone, c, hc, hproperties⟩ := of_decide_eq_true hfound
  refine ⟨m, diagnostics, hrun, c, hc, fun a ha => ⟨hproperties a ha, ?_⟩⟩
  obtain ⟨⟨owner, key, hpoints⟩, htyped⟩ :=
    typedLike_of_run hrun hc (hproperties a ha) (hone c hc _ (hproperties a ha))
  obtain ⟨howner, hown⟩ := hpoints.owner
  obtain ⟨domain, -, -, htyped⟩ :=
    htyped owner key hpoints (hone owner howner _ (List.mem_of_find?_eq_some hown))
  exact ⟨owner, key, domain, hpoints, htyped⟩

end Resolution

end EntityModel
