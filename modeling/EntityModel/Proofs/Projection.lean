import EntityModel.Projection
import EntityModel.Proofs.SortedMap

/-!
# When a property has a type, and what it depends on

A property has no type for one of three reasons: it has no domain, its domain is unknown, or the domain has no mapping
for the target and the type is not found without it (`ofProperty_eq_error_iff`). Of the mappings of a domain, only
those for the target and for the persisted target count, and a collection adds brackets to the client type and nothing
else (`ofProperty_depends`).
-/

namespace EntityModel

namespace Projection

variable {domains : SortedMap String Domain} {settings : Settings} {klass : String} {p : Property} {name : String}
  {domain : Domain} {target : String} {e : ProjectionError}

/-! ### Properties of a domain -/

theorem ofProperty_of_domain (hname : p.domain = some name) (hdomain : domains.get? name = some domain)
    (target : String) :
    ofProperty domains settings klass p target =
      if target = settings.persistedTarget then persisted settings p domain
      else if target = settings.clientTarget then (clientValue settings p domain).map (collection p)
      else ofDomain domain target := by
  simp only [ofProperty, hname, hdomain]

theorem persisted_of_identity (hkey : p.isPrimaryKey = true) (hname : domain.name = settings.identifierDomain) :
    persisted settings p domain = .ok settings.identityColumnType :=
  if_pos (by rw [hkey, hname, beq_self_eq_true, Bool.true_and])

theorem persisted_of_other (h : p.isPrimaryKey = true → domain.name ≠ settings.identifierDomain) :
    persisted settings p domain = (ofDomain domain settings.persistedTarget).map (sized domain) := by
  refine if_neg fun hidentity => ?_
  rw [Bool.and_eq_true, beq_iff_eq] at hidentity
  exact h hidentity.1 hidentity.2

theorem clientValue_of_code {name : String} (h : p.reference.map Reference.clientType = some (.code name)) :
    clientValue settings p domain = .ok name := by
  rw [clientValue, h]

theorem clientValue_of_scalar (h : ∀ name, p.reference.map Reference.clientType ≠ some (.code name)) :
    clientValue settings p domain = if (domain.mapping? settings.persistedTarget).any isStructured
      then .ok settings.openObjectType else ofDomain domain settings.clientTarget := by
  unfold clientValue
  split
  · next name hname => exact absurd hname (h name)
  · rfl

theorem map_collection_of_one (hmany : p.isMany = false) (type : Except ProjectionError String) :
    type.map (collection p) = type := by
  have hsame : collection p = id := by
    funext text
    rw [collection, hmany, if_neg Bool.false_ne_true, id]
  rw [hsame]
  exact id_map type

/-! ### Why there is no type -/

theorem map_eq_error_iff {ε α β : Type} {f : α → β} {x : Except ε α} {e : ε} :
    x.map f = .error e ↔ x = .error e := by
  cases x with
  | error e' => exact ⟨fun h => by cases h; rfl, fun h => by cases h; rfl⟩
  | ok a => exact iff_of_false (fun h => by cases h) fun h => by cases h

/-- A property of a domain has a type for a target although the domain has no mapping for it. -/
inductive Exempt (settings : Settings) (p : Property) (domain : Domain) (target : String) : Prop
  | identity : target = settings.persistedTarget → p.isPrimaryKey = true →
      domain.name = settings.identifierDomain → Exempt settings p domain target
  | code (name : String) : target = settings.clientTarget → target ≠ settings.persistedTarget →
      p.reference.map Reference.clientType = some (.code name) → Exempt settings p domain target
  | structured (type : String) : target = settings.clientTarget → target ≠ settings.persistedTarget →
      domain.mapping? settings.persistedTarget = some type → isStructured type = true →
      Exempt settings p domain target

/-- Why a property of the class named `klass` has no type for a target: it has no domain and is no part that other
targets than the persisted one show, its domain is unknown, or the domain has no mapping and the type needs it. -/
inductive Fails (domains : SortedMap String Domain) (settings : Settings) (klass : String) (p : Property)
    (target : String) : ProjectionError → Prop
  | notPersisted : p.domain = none → ¬ ((∃ part, p = .composition part) ∧ target ≠ settings.persistedTarget) →
      Fails domains settings klass p target (.notPersisted klass p.name)
  | unknownDomain (name : String) : p.domain = some name → domains.get? name = none →
      Fails domains settings klass p target (.unknownDomain name)
  | missingTypeMapping (name : String) (domain : Domain) : p.domain = some name →
      domains.get? name = some domain → domain.mapping? target = none → ¬ Exempt settings p domain target →
      Fails domains settings klass p target (.missingTypeMapping domain.name target)

theorem ofDomain_eq_error_iff :
    ofDomain domain target = .error e ↔ domain.mapping? target = none ∧ e = .missingTypeMapping domain.name target := by
  unfold ofDomain
  rcases domain.mapping? target with _ | type
  · exact ⟨fun h => ⟨rfl, (Except.error.inj h).symm⟩, fun h => congrArg Except.error h.2.symm⟩
  · exact iff_of_false (fun h => by cases h) fun h => by cases h.1

theorem withoutDomain_eq_error_iff (hdomain : p.domain = none) :
    withoutDomain settings klass p target = .error e
      ↔ ¬ ((∃ part, p = .composition part) ∧ target ≠ settings.persistedTarget) ∧ e = .notPersisted klass p.name := by
  cases p with
  | composition part =>
    rw [withoutDomain]
    by_cases hpersisted : target = settings.persistedTarget
    · rw [if_pos hpersisted]
      exact ⟨fun h => ⟨fun hother => hother.2 hpersisted, (Except.error.inj h).symm⟩,
        fun h => congrArg Except.error h.2.symm⟩
    · rw [if_neg hpersisted]
      refine iff_of_false (fun h => ?_) fun h => h.1 ⟨⟨part, rfl⟩, hpersisted⟩
      split at h <;> cases h
  | field f => cases hdomain
  | _ =>
    refine ⟨fun h => ⟨?_, (Except.error.inj h).symm⟩, fun h => congrArg Except.error h.2.symm⟩
    rintro ⟨⟨part, hpart⟩, -⟩
    cases hpart

theorem persisted_eq_error_iff : persisted settings p domain = .error e
    ↔ domain.mapping? settings.persistedTarget = none
      ∧ ¬ (p.isPrimaryKey = true ∧ domain.name = settings.identifierDomain)
      ∧ e = .missingTypeMapping domain.name settings.persistedTarget := by
  by_cases hidentity : p.isPrimaryKey = true ∧ domain.name = settings.identifierDomain
  · rw [persisted_of_identity hidentity.1 hidentity.2]
    exact iff_of_false (fun h => by cases h) fun h => h.2.1 hidentity
  · rw [persisted_of_other fun hkey hname => hidentity ⟨hkey, hname⟩, map_eq_error_iff, ofDomain_eq_error_iff]
    exact and_congr_right fun _ => (and_iff_right hidentity).symm

theorem clientValue_eq_error_iff : clientValue settings p domain = .error e
    ↔ domain.mapping? settings.clientTarget = none
      ∧ (∀ name, p.reference.map Reference.clientType ≠ some (.code name))
      ∧ (∀ type, domain.mapping? settings.persistedTarget = some type → isStructured type = false)
      ∧ e = .missingTypeMapping domain.name settings.clientTarget := by
  by_cases hcode : ∃ name, p.reference.map Reference.clientType = some (.code name)
  · obtain ⟨name, hname⟩ := hcode
    rw [clientValue_of_code hname]
    exact iff_of_false (fun h => by cases h) fun h => h.2.1 name hname
  · have hscalar : ∀ name, p.reference.map Reference.clientType ≠ some (.code name) := fun name h => hcode ⟨name, h⟩
    rw [clientValue_of_scalar hscalar]
    rcases htype : domain.mapping? settings.persistedTarget with _ | type
    · rw [Option.any_none, if_neg Bool.false_ne_true, ofDomain_eq_error_iff]
      exact and_congr_right fun _ => ⟨fun h => ⟨hscalar, (fun _ hnone => nomatch hnone), h⟩, fun h => h.2.2⟩
    · rw [Option.any_some]
      by_cases hstructured : isStructured type = true
      · rw [if_pos hstructured]
        refine iff_of_false (fun h => by cases h) fun h => ?_
        exact Bool.false_ne_true ((h.2.2.1 type rfl).symm.trans hstructured)
      · rw [if_neg hstructured, ofDomain_eq_error_iff]
        refine and_congr_right fun _ => ⟨fun h => ⟨hscalar, fun _ hsame => ?_, h⟩, fun h => h.2.2⟩
        obtain rfl := Option.some.inj hsame
        exact Bool.eq_false_iff.mpr hstructured

/-- The property of a known domain has no type only if it needs a mapping that the domain does not have. -/
theorem ofProperty_eq_error_iff_of_domain (hname : p.domain = some name) (hdomain : domains.get? name = some domain) :
    ofProperty domains settings klass p target = .error e
      ↔ domain.mapping? target = none ∧ ¬ Exempt settings p domain target
        ∧ e = .missingTypeMapping domain.name target := by
  rw [ofProperty_of_domain hname hdomain]
  by_cases hpersisted : target = settings.persistedTarget
  · rw [if_pos hpersisted, persisted_eq_error_iff, hpersisted]
    refine and_congr_right fun _ => and_congr_left fun _ => not_congr ⟨fun h => .identity rfl h.1 h.2, fun h => ?_⟩
    cases h with
    | identity _ hkey hid => exact ⟨hkey, hid⟩
    | code _ _ hne => exact absurd rfl hne
    | structured _ _ hne => exact absurd rfl hne
  · rw [if_neg hpersisted]
    by_cases hclient : target = settings.clientTarget
    · rw [if_pos hclient, map_eq_error_iff, clientValue_eq_error_iff, ← hclient]
      refine and_congr_right fun _ =>
        ⟨fun ⟨hscalar, hplain, he⟩ => ⟨fun hexempt => ?_, he⟩, fun ⟨h, he⟩ => ⟨?_, ?_, he⟩⟩
      · cases hexempt with
        | identity hsame => exact hpersisted hsame
        | code name _ _ hcode => exact hscalar name hcode
        | structured type _ _ htype his => exact Bool.false_ne_true ((hplain type htype).symm.trans his)
      · exact fun name hcode => h (.code name hclient hpersisted hcode)
      · exact fun type htype => Bool.eq_false_iff.mpr fun his => h (.structured type hclient hpersisted htype his)
    · rw [if_neg hclient, ofDomain_eq_error_iff]
      refine and_congr_right fun _ => (and_iff_right fun hexempt => ?_).symm
      cases hexempt with
      | identity hsame => exact hpersisted hsame
      | code _ hsame => exact hclient hsame
      | structured _ hsame => exact hclient hsame

section cases

theorem fails_iff_of_none (hname : p.domain = none) : Fails domains settings klass p target e
    ↔ ¬ ((∃ part, p = .composition part) ∧ target ≠ settings.persistedTarget) ∧ e = .notPersisted klass p.name := by
  refine ⟨fun h => ?_, fun ⟨hother, he⟩ => he ▸ .notPersisted hname hother⟩
  cases h with
  | notPersisted _ hother => exact ⟨hother, rfl⟩
  | unknownDomain _ hsome => cases hname.symm.trans hsome
  | missingTypeMapping _ _ hsome => cases hname.symm.trans hsome

theorem fails_iff_of_unknown (hname : p.domain = some name) (hdomain : domains.get? name = none) :
    Fails domains settings klass p target e ↔ e = .unknownDomain name := by
  refine ⟨fun h => ?_, fun he => he ▸ .unknownDomain name hname hdomain⟩
  cases h with
  | notPersisted hnone => cases hname.symm.trans hnone
  | unknownDomain other hother => rw [Option.some.inj (hname.symm.trans hother)]
  | missingTypeMapping other _ hother hfound =>
    obtain rfl := Option.some.inj (hname.symm.trans hother)
    cases hdomain.symm.trans hfound

theorem fails_iff_of_domain (hname : p.domain = some name) (hdomain : domains.get? name = some domain) :
    Fails domains settings klass p target e ↔ domain.mapping? target = none ∧ ¬ Exempt settings p domain target
      ∧ e = .missingTypeMapping domain.name target := by
  refine ⟨fun h => ?_, fun ⟨hnone, hneeded, he⟩ => he ▸ .missingTypeMapping name domain hname hdomain hnone hneeded⟩
  cases h with
  | notPersisted hnone => cases hname.symm.trans hnone
  | unknownDomain other hother hnone =>
    obtain rfl := Option.some.inj (hname.symm.trans hother)
    cases hdomain.symm.trans hnone
  | missingTypeMapping other _ hother hfound hnone hneeded =>
    obtain rfl := Option.some.inj (hname.symm.trans hother)
    obtain rfl := Option.some.inj (hdomain.symm.trans hfound)
    exact ⟨hnone, hneeded, rfl⟩

end cases

theorem ofProperty_eq_error_iff :
    ofProperty domains settings klass p target = .error e ↔ Fails domains settings klass p target e := by
  rcases hname : p.domain with _ | name
  · rw [fails_iff_of_none hname, ofProperty, hname]
    exact withoutDomain_eq_error_iff hname
  · rcases hdomain : domains.get? name with _ | domain
    · have hunknown : ofProperty domains settings klass p target = .error (.unknownDomain name) := by
        simp only [ofProperty, hname, hdomain]
      rw [fails_iff_of_unknown hname hdomain, hunknown, Except.error.injEq]
      exact eq_comm
    · rw [fails_iff_of_domain hname hdomain, ofProperty_eq_error_iff_of_domain hname hdomain]

/-- **A property has no type just when it may not have one.** The error is one of three: the property has no domain and
is no part to be shown, its domain is unknown, or the domain has no mapping for the target and nothing makes up for
it. In all other cases there is a type. -/
theorem ofProperty_fails_iff (domains : SortedMap String Domain) (settings : Settings) (klass : String) (p : Property)
    (target : String) :
    (∀ e, ofProperty domains settings klass p target = .error e ↔ Fails domains settings klass p target e)
      ∧ ((∃ type, ofProperty domains settings klass p target = .ok type)
        ↔ ∀ e, ¬ Fails domains settings klass p target e) := by
  refine ⟨fun e => ofProperty_eq_error_iff, fun ⟨type, htype⟩ e hfails => ?_, fun hnone => ?_⟩
  · cases htype.symm.trans (ofProperty_eq_error_iff.mpr hfails)
  · rcases htype : ofProperty domains settings klass p target with e | type
    · exact absurd (ofProperty_eq_error_iff.mp htype) (hnone e)
    · exact ⟨type, rfl⟩

/-! ### What a type depends on -/

/-- Two domains that say the same, but for their labels and for mappings for other targets than some. -/
structure AgreeOn (targets : List String) (d d' : Domain) : Prop where
  name : d'.name = d.name
  length : d'.length = d.length
  scale : d'.scale = d.scale
  mapping : ∀ target ∈ targets, d'.mapping? target = d.mapping? target

/-- A domain with a mapping set to a type, or without the mapping. -/
def remap (d : Domain) (target : String) : Option String → Domain
  | some type => { d with mappings := d.mappings.insert target type }
  | none => { d with mappings := d.mappings.erase target }

theorem agreeOn_remap {targets : List String} (d : Domain) {other : String} (hother : other ∉ targets)
    (type : Option String) : AgreeOn targets d (remap d other type) := by
  have hne {target : String} (htarget : target ∈ targets) : other ≠ target := fun h => hother (h ▸ htarget)
  cases type with
  | some type => exact ⟨rfl, rfl, rfl, fun target htarget => SortedMap.get?_insert_of_ne _ _ (hne htarget)⟩
  | none => exact ⟨rfl, rfl, rfl, fun target htarget => SortedMap.get?_erase_of_ne _ (hne htarget)⟩

theorem AgreeOn.refl (targets : List String) (d : Domain) : AgreeOn targets d d := ⟨rfl, rfl, rfl, fun _ _ => rfl⟩

theorem rel_insert_remap {targets : List String} (hdomain : domains.get? name = some domain) {other : String}
    (hother : other ∉ targets) (type : Option String) (key : String) :
    Option.Rel (AgreeOn targets) (domains.get? key) ((domains.insert name (remap domain other type)).get? key) := by
  by_cases hkey : name = key
  · subst hkey
    rw [hdomain, SortedMap.get?_insert_self]
    exact .some (agreeOn_remap domain hother type)
  · rw [SortedMap.get?_insert_of_ne _ _ hkey]
    rcases domains.get? key with _ | d
    · exact .none
    · exact .some (.refl targets d)

section agree

variable {d d' : Domain}

theorem ofDomain_congr (hname : d'.name = d.name) (hmapping : d'.mapping? target = d.mapping? target) :
    ofDomain d' target = ofDomain d target := by
  rw [ofDomain, ofDomain, hmapping, hname]

theorem AgreeOn.persisted {targets : List String} (h : AgreeOn targets d d') (hp : settings.persistedTarget ∈ targets) :
    persisted settings p d' = persisted settings p d := by
  have hsized : sized d' = sized d := by
    funext type
    rw [sized, sized, h.length, h.scale]
  rw [Projection.persisted, Projection.persisted, ofDomain_congr h.name (h.mapping _ hp), h.name, hsized]

theorem AgreeOn.clientValue {targets : List String} (h : AgreeOn targets d d')
    (hp : settings.persistedTarget ∈ targets) (hc : settings.clientTarget ∈ targets) :
    clientValue settings p d' = clientValue settings p d := by
  rw [Projection.clientValue, Projection.clientValue, ofDomain_congr h.name (h.mapping _ hc), h.mapping _ hp]

end agree

theorem ofProperty_congr {domains' : SortedMap String Domain}
    (h : ∀ name, Option.Rel (AgreeOn [target, settings.persistedTarget]) (domains.get? name) (domains'.get? name)) :
    ofProperty domains' settings klass p target = ofProperty domains settings klass p target := by
  rcases hname : p.domain with _ | name
  · simp only [ofProperty, hname]
  · have hrel := h name
    rcases hdomain : domains.get? name with _ | d <;> rcases hdomain' : domains'.get? name with _ | d' <;>
      rw [hdomain, hdomain'] at hrel
    · simp only [ofProperty, hname, hdomain, hdomain']
    · cases hrel
    · cases hrel
    · obtain ⟨hagree⟩ := hrel
      rw [ofProperty_of_domain hname hdomain, ofProperty_of_domain hname hdomain', hagree.persisted (by simp)]
      by_cases hclient : target = settings.clientTarget
      · rw [hagree.clientValue (by simp) (by simp [hclient]), if_pos hclient, if_pos hclient]
      · rw [if_neg hclient, if_neg hclient, ofDomain_congr hagree.name (hagree.mapping _ List.mem_cons_self)]

end Projection

/-! ### Collections -/

/-- A property that holds a collection, or one that holds one value, and is the same in all else. -/
def Property.withMany (many : Bool) : Property → Property
  | field p => field { p with many }
  | association p => association { p with many }
  | composition p => composition { p with multiplicity := if many then .many else .one }
  | .alias p => .alias { p with many }

namespace Property

variable (many : Bool) (p : Property)

@[simp] theorem domain_withMany : (p.withMany many).domain = p.domain := by cases p <;> rfl

@[simp] theorem name_withMany : (p.withMany many).name = p.name := by cases p <;> rfl

@[simp] theorem reference_withMany : (p.withMany many).reference = p.reference := by cases p <;> rfl

@[simp] theorem isPrimaryKey_withMany : (p.withMany many).isPrimaryKey = p.isPrimaryKey := by cases p <;> rfl

@[simp] theorem isMany_withMany : (p.withMany many).isMany = many := by
  cases p with
  | composition p => cases many <;> rfl
  | _ => rfl

theorem withMany_isMany : p.withMany p.isMany = p := by
  cases p with
  | composition p => rcases p with ⟨name, label, target, _ | _⟩ <;> rfl
  | _ => rfl

end Property

namespace Projection

variable {domains : SortedMap String Domain} {settings : Settings} {klass : String} {p : Property} {target : String}

theorem withoutDomain_withMany (hdomain : p.domain = none) :
    withoutDomain settings klass (p.withMany true) target
      = if target = settings.clientTarget ∧ target ≠ settings.persistedTarget
        then (withoutDomain settings klass (p.withMany false) target).map (· ++ "[]")
        else withoutDomain settings klass (p.withMany false) target := by
  cases p with
  | composition part =>
    by_cases hpersisted : target = settings.persistedTarget
    · simp [Property.withMany, Property.name, withoutDomain, hpersisted]
    · by_cases hclient : target = settings.clientTarget
      · subst hclient
        simp [Property.withMany, Property.isMany, withoutDomain, collection, Except.map, hpersisted]
      · simp [Property.withMany, withoutDomain, hpersisted, hclient]
  | field f => cases hdomain
  | _ => exact (ite_self _).symm

theorem ofProperty_withMany : ofProperty domains settings klass (p.withMany true) target
    = if target = settings.clientTarget ∧ target ≠ settings.persistedTarget
      then (ofProperty domains settings klass (p.withMany false) target).map (· ++ "[]")
      else ofProperty domains settings klass (p.withMany false) target := by
  rcases hname : p.domain with _ | name
  · simp only [ofProperty, Property.domain_withMany, hname]
    exact withoutDomain_withMany hname
  · rcases hdomain : domains.get? name with _ | domain
    · simp only [ofProperty, Property.domain_withMany, hname, hdomain]
      exact (ite_self _).symm
    · have hpersists (many : Bool) : persisted settings (p.withMany many) domain = persisted settings p domain := by
        rw [persisted, persisted, Property.isPrimaryKey_withMany]
      have hshows (many : Bool) : clientValue settings (p.withMany many) domain = clientValue settings p domain := by
        rw [clientValue, clientValue, Property.reference_withMany]
      have hbrackets : collection (p.withMany true) = (· ++ "[]") := by
        funext type
        rw [collection, Property.isMany_withMany, if_pos rfl]
      rw [ofProperty_of_domain ((p.domain_withMany true).trans hname) hdomain,
        ofProperty_of_domain ((p.domain_withMany false).trans hname) hdomain,
        map_collection_of_one (p.isMany_withMany false), hpersists, hpersists, hshows, hshows, hbrackets]
      by_cases hpersisted : target = settings.persistedTarget
      · rw [if_pos hpersisted, if_neg fun h => h.2 hpersisted, if_pos hpersisted]
      · rw [if_neg hpersisted, if_neg hpersisted]
        by_cases hclient : target = settings.clientTarget
        · rw [if_pos hclient, if_pos ⟨hclient, hpersisted⟩, if_pos hclient]
        · rw [if_neg hclient, if_neg fun h => hclient h.1, if_neg hclient]

/-- **What a type depends on.** Mappings of domains for targets other than the one asked for and the persisted one make
no difference. If a property comes to hold a collection, then for the client target, if that is not the persisted
one, its type is put in brackets, and nothing else changes. -/
theorem ofProperty_depends (domains : SortedMap String Domain) (settings : Settings) (klass : String) (p : Property)
    (target : String) :
    (∀ domains' : SortedMap String Domain,
      (∀ name, Option.Rel (AgreeOn [target, settings.persistedTarget]) (domains.get? name) (domains'.get? name)) →
      ofProperty domains' settings klass p target = ofProperty domains settings klass p target)
    ∧ (p.isMany = false → ofProperty domains settings klass (p.withMany true) target
      = if target = settings.clientTarget ∧ target ≠ settings.persistedTarget
        then (ofProperty domains settings klass p target).map (· ++ "[]")
        else ofProperty domains settings klass p target) := by
  refine ⟨fun _ h => ofProperty_congr h, fun hone => ?_⟩
  have hsame : p.withMany false = p := hone ▸ p.withMany_isMany
  rw [ofProperty_withMany, hsame]

/-- A domain of short texts, with a mapping that is neither persisted nor for the client. -/
def shortText : Domain where
  name := "DO_TEXT"
  length := some 8
  mappings := .ofList [("sql", "varchar"), ("ts", "string"), ("java", "String")]

/-- A field of `shortText`. -/
def shortName : Property := .field { name := "Name", domain := "DO_TEXT", column := "NAME" }

theorem ofProperty_depends_shortName : ∀ other ∈ ["java", "kotlin"], ∀ type ∈ [none, some "Text"],
    let domains := SortedMap.empty.insert "DO_TEXT" shortText
    ofProperty (domains.insert "DO_TEXT" (remap shortText other type)) {} "Item" shortName "ts" = .ok "string"
      ∧ ofProperty domains {} "Item" (shortName.withMany true) "ts" = .ok "string[]" := by
  intro other hother type _ domains
  have hne : other ∉ ["ts", "sql"] := by
    intro h
    simp only [List.mem_cons, List.not_mem_nil, or_false] at hother h
    rcases hother with rfl | rfl <;> simp at h
  obtain ⟨hmappings, hmany⟩ := ofProperty_depends domains {} "Item" shortName "ts"
  have htype : ofProperty domains {} "Item" shortName "ts" = .ok "string" := by rfl
  rw [htype] at hmappings hmany
  have hagree := rel_insert_remap (SortedMap.get?_insert_self SortedMap.empty "DO_TEXT" shortText) hne type
  exact ⟨hmappings _ hagree, (hmany rfl).trans (if_pos (by decide))⟩

end Projection

end EntityModel
