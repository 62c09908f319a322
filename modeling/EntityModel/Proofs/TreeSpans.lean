import EntityModel.Proofs.Placement

/-!
# Spans of the syntax tree

In the tree of a text that is parsed, each name cuts itself out of the text, what is written in a declaration lies
within the span of the declaration, and the entries of a list stand one behind another (`Declaration.parse_placed`).
Names are tokens of the text, whatever kind the tokens are of (`Phrase.Ensures`). For the order, spans that lie
wherever the tokens of two parts of a phrase do are apart when the tokens are aligned (`Phrase.Arranges`).
-/

namespace EntityModel

/-- A span ends where another starts, or before. -/
def Span.Precedes (a b : Span) : Prop := a.stop ≤ b.start

namespace Phrase

variable {α β : Type} {p q : Phrase α} {f : α → Phrase β} {holds : α → Prop} {result : β → Prop}

theorem ensures_ident (kind : Spanned Token → Prop) :
    Ensures kind ident fun name => kind ⟨.ident name.value, name.span⟩ := by
  rintro _ ⟨name, span⟩ ⟨⟨value, _⟩, rfl, haccept, rfl⟩ hall
  cases value with
  | ident written =>
    cases haccept
    exact hall _ List.mem_cons_self
  | _ => cases haccept

/-! ### What aligned tokens arrange -/

/-- A span lies wherever some tokens do. -/
def Hull (tokens : List (Spanned Token)) (s : Span) : Prop :=
  ∀ outer : Span, (∀ t ∈ tokens, t.span.Within outer) → s.Within outer

theorem exists_stop (tokens : List (Spanned Token)) : ∃ stop, ∀ t ∈ tokens, t.span.stop ≤ stop := by
  induction tokens with
  | nil => exact ⟨0, fun _ h => absurd h List.not_mem_nil⟩
  | cons t tokens ih =>
    obtain ⟨stop, hstop⟩ := ih
    refine ⟨max t.span.stop stop, List.forall_mem_cons.mpr ⟨Nat.le_max_left _ _, fun u hu => ?_⟩⟩
    exact Nat.le_trans (hstop u hu) (Nat.le_max_right _ _)

/-- What lies where the first tokens do precedes what lies where the others do. -/
theorem precedes_of_hull {first rest : List (Spanned Token)} {s t : Span}
    (haligned : Span.Aligned ((first ++ rest).map Spanned.span)) (hs : Hull first s) (ht : Hull rest t) :
    s.Precedes t := by
  rw [List.map_append] at haligned
  obtain ⟨-, hrest, hapart⟩ := List.pairwise_append.mp haligned.apart
  rcases rest with _ | ⟨head, tail⟩
  -- what lies where no tokens do lies in every span
  · exact (ht ⟨s.stop, 0⟩ fun _ h => absurd h List.not_mem_nil).start
  · obtain ⟨stop, hstop⟩ := exists_stop (head :: tail)
    have hhead : head.span ∈ (head :: tail).map Spanned.span := List.mem_cons_self
    have hleft : s.stop ≤ head.span.start :=
      (hs ⟨0, head.span.start⟩ fun u hu => ⟨Nat.zero_le _, hapart _ (List.mem_map_of_mem hu) _ hhead⟩).stop
    have hright : head.span.start ≤ t.start := by
      refine (ht ⟨head.span.start, stop⟩ fun u hu => ⟨?_, hstop u hu⟩).start
      rcases List.mem_cons.mp hu with rfl | htail
      · exact Nat.le_refl _
      · have hupright := haligned.upright head.span (List.mem_append_right _ hhead)
        exact Nat.le_trans hupright ((List.pairwise_cons.mp hrest).1 _ (List.mem_map_of_mem htail))
    exact Nat.le_trans hleft hright

/-- Whatever aligned tokens form a phrase, what it says is so. -/
def Arranges (p : Phrase α) (holds : α → Prop) : Prop :=
  ∀ tokens a, p tokens a → Span.Aligned (tokens.map Spanned.span) → holds a

theorem arranges_pure {a : α} (h : holds a) : Arranges (pure a) holds := by
  rintro _ _ ⟨rfl, rfl⟩ _
  exact h

theorem Arranges.bind (hp : Arranges p holds) (hf : ∀ a, holds a → Arranges (f a) result) :
    Arranges (p >>= f) result := by
  rintro _ b ⟨first, rest, a, rfl, hfirst, hrest⟩ haligned
  rw [List.map_append] at haligned
  have ha := hp first a hfirst (haligned.sublist (List.sublist_append_left _ _))
  exact hf a ha rest b hrest (haligned.sublist (List.sublist_append_right _ _))

theorem Arranges.behind (hf : ∀ a, Arranges (f a) result) : Arranges (p >>= f) result := by
  have htrue : Arranges p fun _ => True := fun _ _ _ _ => trivial
  exact htrue.bind fun a _ => hf a

theorem Arranges.either (hp : Arranges p holds) (hq : Arranges q holds) : Arranges (p <|> q) holds :=
  fun tokens a h => h.elim (hp tokens a) (hq tokens a)

theorem Arranges.star {spans : α → List Span} (hp : Arranges p holds)
    (hspans : ∀ outer : Span, Ensures (·.span.Within outer) p (outer.Covers <| spans ·)) :
    Arranges (star p) fun as => (∀ a ∈ as, holds a)
      ∧ as.Pairwise fun a b => ∀ s ∈ spans a, ∀ t ∈ spans b, s.Precedes t := by
  intro tokens as h haligned
  induction h with
  | nil => exact ⟨fun _ h => absurd h List.not_mem_nil, .nil⟩
  | @cons first rest a as hfirst hrest ih =>
    obtain ⟨hleft, hright⟩ : Span.Aligned (first.map Spanned.span) ∧ Span.Aligned (rest.map Spanned.span) := by
      rw [List.map_append] at haligned
      exact ⟨haligned.sublist (List.sublist_append_left _ _), haligned.sublist (List.sublist_append_right _ _)⟩
    obtain ⟨hall, hapart⟩ := ih hright
    refine ⟨List.forall_mem_cons.mpr ⟨hp first a hfirst hleft, hall⟩, List.pairwise_cons.mpr ⟨?_, hapart⟩⟩
    intro b hb s hs t ht
    exact precedes_of_hull haligned (fun outer h => hspans outer first a hfirst h s hs)
      fun outer h => (hspans outer).star rest as hrest h b hb t ht

end Phrase

/-! ### What is written in a file -/

namespace Declaration

/-- The names written in a domain. -/
def Domain.names (d : Domain) : List (Spanned String) := d.name :: d.mappings.map Prod.fst

def Property.names : Property → List (Spanned String)
  | field p => [p.name, p.domain]
  | association p => [p.name, p.target]
  | composition p => [p.name, p.target]
  | .alias p => [p.token]

def Row.names (r : Row) : List (Spanned String) := r.name :: r.values.map Prod.fst

def Class.names (c : Class) : List (Spanned String) :=
  c.name :: c.parent.toList ++ c.trigram.toList ++ c.label.toList ++ c.key.toList
    ++ c.properties.flatMap Property.names ++ c.rows.flatMap Row.names

/-- The names written in a file, those of the files it uses left out, which have no place of their own. -/
def File.names (file : File) : List (Spanned String) :=
  file.domains.flatMap Domain.names ++ file.classes.flatMap Class.names

/-- A row holds what is written in it, and its values stand one behind another. -/
structure Row.Arranged (r : Row) : Prop where
  within : r.span.Covers r.spans
  values : (r.values.map (·.1.span)).Pairwise Span.Precedes

/-- A class holds what is written in it, as do its properties and rows, which stand one behind another. -/
structure Class.Arranged (c : Class) : Prop where
  within : c.span.Covers c.spansInside
  each_property : ∀ p ∈ c.properties, p.span.Covers p.spans
  properties : (c.properties.map Property.span).Pairwise Span.Precedes
  each_row : ∀ r ∈ c.rows, r.Arranged
  rows : (c.rows.map Row.span).Pairwise Span.Precedes

/-- The spans of a file are those of a text: each name cuts itself out of the text, domains and classes hold what is
written in them, and the entries of each list stand one behind another. -/
structure File.Placed (file : File) (text : String) : Prop where
  names : ∀ name ∈ file.names, name.span.Cuts text name.value
  uses : (file.uses.map Spanned.span).Pairwise Span.Precedes
  each_domain : ∀ d ∈ file.domains, d.span.Covers (d.names.map Spanned.span)
  domains : (file.domains.map Domain.span).Pairwise Span.Precedes
  each_class : ∀ c ∈ file.classes, c.Arranged
  classes : (file.classes.map Class.span).Pairwise Span.Precedes

namespace Grammar

open Phrase

variable {kind : Spanned Token → Prop} {outer : Span}

/-! ### Names are tokens -/

/-- Names are tokens of a kind. -/
abbrev Named (kind : Spanned Token → Prop) (names : List (Spanned String)) : Prop :=
  ∀ name ∈ names, kind ⟨.ident name.value, name.span⟩

theorem named_nil : Named kind [] := fun _ h => absurd h List.not_mem_nil

def DomainItem.names (item : DomainItem) : List (Spanned String) := item.mapping?.toList.map Prod.fst

theorem ensures_domainItem_names : Ensures kind domainItem (Named kind ·.names) := by
  refine .either ?_ (.either ?_ (.either ?_ ?_))
  · exact .behind fun _ => .behind fun _ => .behind fun _ => ensures_pure named_nil
  · exact .behind fun _ => .behind fun _ => .behind fun _ => ensures_pure named_nil
  · exact .behind fun _ => .behind fun _ => .behind fun _ => ensures_pure named_nil
  · refine .behind fun _ => (ensures_ident kind).bind fun target htarget => .behind fun _ => .behind fun _ => ?_
    exact .behind fun _ => ensures_pure (List.forall_mem_singleton.mpr htarget)

theorem ensures_domain_names : Ensures kind domain (Named kind ·.names) := by
  refine .behind fun start => (ensures_ident kind).bind fun name hname => .behind fun _ => ?_
  refine ensures_domainItem_names.star.bind fun items hitems => .behind fun stop => .behind fun _ => ?_
  refine ensures_pure (List.forall_mem_cons.mpr ⟨hname, List.forall_mem_map.mpr fun mapping hmapping => ?_⟩)
  obtain ⟨item, hitem, hfound⟩ := List.mem_filterMap.mp hmapping
  exact hitems item hitem _ (List.mem_map_of_mem (Option.mem_toList.mpr hfound))

theorem ensures_field_names : Ensures kind field fun p => Named kind (Property.field p).names := by
  refine .behind fun start => (ensures_ident kind).bind fun name hname => .behind fun _ => ?_
  refine (ensures_ident kind).bind fun domain hdomain => .behind fun modifiers => ensures_pure ?_
  exact List.forall_mem_cons.mpr ⟨hname, List.forall_mem_singleton.mpr hdomain⟩

theorem ensures_association_names :
    Ensures kind association fun p => Named kind (Property.association p).names := by
  refine .behind fun start => (ensures_ident kind).bind fun name hname => .behind fun _ => ?_
  refine (ensures_ident kind).bind fun target htarget => .behind fun modifiers => ensures_pure ?_
  exact List.forall_mem_cons.mpr ⟨hname, List.forall_mem_singleton.mpr htarget⟩

theorem ensures_composition_names :
    Ensures kind composition fun p => Named kind (Property.composition p).names := by
  refine .behind fun start => (ensures_ident kind).bind fun name hname => .behind fun _ => ?_
  refine (ensures_ident kind).bind fun target htarget => .behind fun multiplicity => .behind fun modifiers => ?_
  exact ensures_pure (List.forall_mem_cons.mpr ⟨hname, List.forall_mem_singleton.mpr htarget⟩)

theorem ensures_aliasItem_names : Ensures kind aliasItem fun p => Named kind (Property.alias p).names := by
  refine .behind fun start => (ensures_ident kind).bind fun token htoken => .behind fun modifiers => ?_
  exact ensures_pure (List.forall_mem_singleton.mpr htoken)

theorem ensures_rowValue_name : Ensures kind rowValue fun value => kind ⟨.ident value.1.value, value.1.span⟩ :=
  (ensures_ident kind).bind fun _ hfield => .behind fun _ => .behind fun _ => ensures_pure hfield

theorem ensures_row_names : Ensures kind row (Named kind ·.names) := by
  have hvalues : Ensures kind rowValues fun values => Named kind (values.map Prod.fst) := by
    refine .either (ensures_pure named_nil) (ensures_rowValue_name.bind fun first hfirst => ?_)
    refine (Ensures.star (.behind fun _ => ensures_rowValue_name)).bind fun others hothers => .behind fun _ => ?_
    exact ensures_pure (List.forall_mem_cons.mpr ⟨hfirst, List.forall_mem_map.mpr hothers⟩)
  refine (ensures_ident kind).bind fun name hname => .behind fun _ => hvalues.bind fun values hvalues => ?_
  exact .behind fun _ => ensures_pure (List.forall_mem_cons.mpr ⟨hname, hvalues⟩)

def ClassItem.names (item : ClassItem) : List (Spanned String) := item.parts id Property.names Row.names

theorem named_property {p : Property} (h : Named kind p.names) : Named kind (ClassItem.property p).names := by
  have hall : Named kind (p.names ++ [] ++ []) := by rwa [List.append_nil, List.append_nil]
  exact hall

theorem ensures_classItem_names : Ensures kind classItem (Named kind ·.names) := by
  refine .either ?_ (.either ?_ (.either ?_ (.either ?_ (.either ?_ (.either ?_ (.either ?_ (.either ?_
    (.either ?_ ?_))))))))
  · refine .behind fun _ => (ensures_ident kind).bind fun name hname => .behind fun _ => ?_
    exact ensures_pure (List.forall_mem_singleton.mpr hname)
  · refine .behind fun _ => (ensures_ident kind).bind fun name hname => .behind fun _ => ?_
    exact ensures_pure (List.forall_mem_singleton.mpr hname)
  · refine .behind fun _ => (ensures_ident kind).bind fun name hname => .behind fun _ => ?_
    exact ensures_pure (List.forall_mem_singleton.mpr hname)
  · exact .behind fun _ => .behind fun _ => ensures_pure named_nil
  · exact .behind fun _ => .behind fun _ => ensures_pure named_nil
  · exact ensures_field_names.bind fun _ h => ensures_pure (named_property h)
  · exact ensures_association_names.bind fun _ h => ensures_pure (named_property h)
  · exact ensures_composition_names.bind fun _ h => ensures_pure (named_property h)
  · exact ensures_aliasItem_names.bind fun _ h => ensures_pure (named_property h)
  · refine .behind fun _ => .behind fun _ => ensures_row_names.star.bind fun rows hrows => .behind fun _ => ?_
    refine ensures_pure fun name hname => ?_
    obtain ⟨row, hrow, hname⟩ := List.mem_flatMap.mp hname
    exact hrows row hrow name hname

theorem named_classOf {name : Spanned String} {parent : Option (Spanned String)}
    (stereotype : Option (Spanned Stereotype)) {items : List ClassItem} (span : Span)
    (hname : kind ⟨.ident name.value, name.span⟩) (hparent : Named kind parent.toList)
    (hitems : ∀ item ∈ items, Named kind item.names) :
    Named kind (classOf name parent stereotype items span).names := by
  have hhead : Named kind (name :: parent.toList) := List.forall_mem_cons.mpr ⟨hname, hparent⟩
  have hparts : Named kind (partsOf id Property.names Row.names items) := forall_mem_partsOf hitems
  have hall := List.forall_mem_append.mpr ⟨hhead, hparts⟩
  simp only [partsOf, List.map_id, ← List.append_assoc] at hall
  exact hall

theorem ensures_klass_names : Ensures kind klass (Named kind ·.names) := by
  refine .behind fun start => (ensures_ident kind).bind fun name hname => ?_
  refine (Ensures.opt (.behind fun _ => ensures_ident kind)).bind fun parent hparent => .behind fun stereotype => ?_
  refine .behind fun _ => ensures_classItem_names.star.bind fun items hitems => .behind fun stop => .behind fun _ => ?_
  exact ensures_pure (named_classOf stereotype _ hname (fun n hn => hparent n (Option.mem_toList.mp hn)) hitems)

def Item.names : Item → List (Spanned String)
  | uses _ => []
  | domain d => d.names
  | klass c => c.names

theorem ensures_item_names : Ensures kind item (Named kind ·.names) := by
  refine .either (.behind fun _ => ensures_pure named_nil) (.either ?_ ?_)
  · exact ensures_domain_names.bind fun _ h => ensures_pure h
  · exact ensures_klass_names.bind fun _ h => ensures_pure h

/-! ### First and last tokens -/

theorem closes_modifiers (of : PropertyKind) : Closes (modifiers of) fun parsed s => parsed.2 = s :=
  .behind fun _ => closes_required fun _ => rfl

theorem delimited_domain : Delimited domain Domain.span :=
  delimited_of_exactly fun _ => .behind fun _ => .behind fun _ => .behind fun _ => closes_required fun _ => rfl

theorem delimited_field : Delimited field Field.span := by
  refine delimited_of_exactly fun start => .behind fun name => .behind fun _ => .behind fun domain =>
    (closes_modifiers _).bind ?_
  rintro ⟨written, stop⟩ _ rfl tokens p ⟨rfl, rfl⟩
  exact ⟨rfl, rfl⟩

theorem delimited_association : Delimited association Association.span := by
  refine delimited_of_exactly fun start => .behind fun name => .behind fun _ => .behind fun target =>
    (closes_modifiers _).bind ?_
  rintro ⟨written, stop⟩ _ rfl tokens p ⟨rfl, rfl⟩
  exact ⟨rfl, rfl⟩

theorem delimited_composition : Delimited composition Composition.span := by
  refine delimited_of_exactly fun start => .behind fun name => .behind fun _ => .behind fun target =>
    .behind fun multiplicity => (closes_modifiers _).bind ?_
  rintro ⟨written, stop⟩ _ rfl tokens p ⟨rfl, rfl⟩
  exact ⟨rfl, rfl⟩

theorem delimited_aliasItem : Delimited aliasItem Alias.span := by
  refine delimited_of_exactly fun start => .behind fun token => (closes_modifiers _).bind ?_
  rintro ⟨written, stop⟩ _ rfl tokens p ⟨rfl, rfl⟩
  exact ⟨rfl, rfl⟩

theorem delimited_row : Delimited row Row.span := by
  refine delimited_of_one fun name => .behind fun _ => .behind fun values => (closes_exactly _).bind ?_
  rintro stop _ rfl tokens r ⟨rfl, rfl⟩
  exact ⟨rfl, rfl⟩

/-! ### Order -/

theorem arranges_rowValues : Arranges rowValues fun values => (values.map (·.1.span)).Pairwise Span.Precedes := by
  refine .either (arranges_pure .nil) ?_
  rintro _ _ ⟨front, _, first, rfl, hfirst, back, last, others, rfl, hothers, hend⟩ haligned
  obtain ⟨comma, -, rfl⟩ := bind_pure_iff.mp hend
  rw [← List.append_assoc, List.map_append] at haligned
  replace haligned := haligned.sublist (List.sublist_append_left _ _)
  have hspans (outer : Span) : Ensures (·.span.Within outer) (do let _ ← mark .comma; rowValue)
      (outer.Covers <| Row.valueSpans ·) := .behind fun _ => ensures_rowValue
  rw [List.map_cons, List.pairwise_cons, List.pairwise_map]
  constructor
  · intro s hs
    obtain ⟨other, hother, rfl⟩ := List.mem_map.mp hs
    exact precedes_of_hull haligned (fun outer h => ensures_rowValue front first hfirst h _ List.mem_cons_self)
      fun outer h => (hspans outer).star back others hothers h other hother _ List.mem_cons_self
  · have hback : Span.Aligned (back.map Spanned.span) := by
      rw [List.map_append] at haligned
      exact haligned.sublist (List.sublist_append_right _ _)
    have htrue : Arranges (do let _ ← mark .comma; rowValue) fun _ => True := fun _ _ _ _ => trivial
    exact (htrue.star hspans back others hothers hback).2.imp fun h =>
      h _ List.mem_cons_self _ List.mem_cons_self

theorem arranges_row : Arranges row Row.Arranged := by
  intro tokens r h haligned
  have hvalues : Arranges row fun r => (r.values.map (·.1.span)).Pairwise Span.Precedes :=
    .behind fun name => .behind fun _ => arranges_rowValues.bind fun values h => .behind fun stop => arranges_pure h
  exact ⟨delimited_row.covers (fun _ => ensures_row) h haligned, hvalues tokens r h haligned⟩

/-- An item of a class holds what is written in it, and its rows stand one behind another. -/
structure ClassItem.Arranged (item : ClassItem) : Prop where
  property : ∀ p ∈ item.property?, p.span.Covers p.spans
  each_row : ∀ r ∈ item.rows, r.Arranged
  rows : (item.rows.map Row.span).Pairwise Span.Precedes

theorem ClassItem.arranged_of_none {item : ClassItem} (hproperty : item.property? = none) (hrows : item.rows = []) :
    item.Arranged where
  property p hp := by rw [hproperty] at hp; cases hp
  each_row r hr := absurd (hrows ▸ hr) List.not_mem_nil
  rows := by rw [hrows]; exact .nil

theorem ClassItem.arranged_property {p : Property} (h : p.span.Covers p.spans) :
    (ClassItem.property p).Arranged where
  property _ hq := Option.some.inj hq ▸ h
  each_row _ hr := absurd hr List.not_mem_nil
  rows := .nil

theorem arranges_classItem : Arranges classItem ClassItem.Arranged := by
  refine .either ?_ (.either ?_ (.either ?_ (.either ?_ (.either ?_ (.either ?_ (.either ?_ (.either ?_
    (.either ?_ ?_))))))))
  · exact .behind fun _ => .behind fun _ => .behind fun _ => arranges_pure (ClassItem.arranged_of_none rfl rfl)
  · exact .behind fun _ => .behind fun _ => .behind fun _ => arranges_pure (ClassItem.arranged_of_none rfl rfl)
  · exact .behind fun _ => .behind fun _ => .behind fun _ => arranges_pure (ClassItem.arranged_of_none rfl rfl)
  · exact .behind fun _ => .behind fun _ => arranges_pure (ClassItem.arranged_of_none rfl rfl)
  · exact .behind fun _ => .behind fun _ => arranges_pure (ClassItem.arranged_of_none rfl rfl)
  · refine Arranges.bind (fun _ _ => delimited_field.covers fun _ => ensures_field) fun p h => ?_
    exact arranges_pure (ClassItem.arranged_property h)
  · refine Arranges.bind (fun _ _ => delimited_association.covers fun _ => ensures_association) fun p h => ?_
    exact arranges_pure (ClassItem.arranged_property h)
  · refine Arranges.bind (fun _ _ => delimited_composition.covers fun _ => ensures_composition) fun p h => ?_
    exact arranges_pure (ClassItem.arranged_property h)
  · refine Arranges.bind (fun _ _ => delimited_aliasItem.covers fun _ => ensures_aliasItem) fun p h => ?_
    exact arranges_pure (ClassItem.arranged_property h)
  · refine .behind fun _ => .behind fun _ => (arranges_row.star fun _ => ensures_row).bind fun rows ⟨heach, hrows⟩ => ?_
    refine .behind fun _ => arranges_pure ⟨fun p hp => absurd hp (Option.not_mem_none p), heach, ?_⟩
    exact List.pairwise_map.mpr (hrows.imp fun h => h _ List.mem_cons_self _ List.mem_cons_self)

theorem arranged_classOf {name : Spanned String} {parent : Option (Spanned String)}
    {stereotype : Option (Spanned Stereotype)} {items : List ClassItem} {span : Span}
    (hwithin : span.Covers (classOf name parent stereotype items span).spansInside)
    (heach : ∀ item ∈ items, item.Arranged)
    (hitems : items.Pairwise fun a b => ∀ s ∈ a.spans, ∀ t ∈ b.spans, s.Precedes t) :
    (classOf name parent stereotype items span).Arranged where
  within := hwithin
  each_property p hp := by
    obtain ⟨item, hitem, hfound⟩ := List.mem_filterMap.mp hp
    exact (heach item hitem).property p hfound
  properties := by
    have hmem {item : ClassItem} {p : Property} (h : item.property? = some p) : p.span ∈ item.spans := by
      refine List.mem_append_left _ (List.mem_append_right _ (List.mem_flatMap.mpr ⟨p, ?_, p.span_mem⟩))
      exact Option.mem_toList.mpr h
    refine List.pairwise_map.mpr (List.pairwise_filterMap.mpr (hitems.imp fun h p hp q hq => ?_))
    exact h _ (hmem hp) _ (hmem hq)
  each_row r hr := by
    obtain ⟨item, hitem, hr⟩ := List.mem_flatMap.mp hr
    exact (heach item hitem).each_row r hr
  rows := by
    have hmem {item : ClassItem} {r : Row} (h : r ∈ item.rows) : r.span ∈ item.spans :=
      List.mem_append_right _ (List.mem_flatMap.mpr ⟨r, h, List.mem_cons_self⟩)
    refine List.pairwise_map.mpr (List.pairwise_flatMap.mpr ⟨fun item hitem => ?_, hitems.imp fun h r hr r' hr' => ?_⟩)
    · exact List.pairwise_map.mp (heach item hitem).rows
    · exact h _ (hmem hr) _ (hmem hr')

theorem arranges_klass : Arranges klass Class.Arranged := by
  intro tokens c h haligned
  have hwithin : c.span.Covers c.spansInside := delimited_klass.covers (fun _ => ensures_klass) h haligned
  have hitems : Arranges klass fun c => c.span.Covers c.spansInside → c.Arranged := by
    refine .behind fun start => .behind fun name => .behind fun parent => .behind fun stereotype => .behind fun _ => ?_
    refine (arranges_classItem.star fun _ => ensures_classItem).bind fun items ⟨heach, hitems⟩ => ?_
    refine .behind fun stop => .behind fun _ => arranges_pure fun hwithin => ?_
    exact arranged_classOf hwithin heach hitems
  exact hitems tokens c h haligned hwithin

/-! ### Files -/

theorem ensures_uses : Ensures (·.span.Within outer) uses (·.span.Within outer) := by
  refine (ensures_exactly _).bind fun start hstart => .behind fun module => .behind fun _ => .behind fun kind => ?_
  refine .behind fun _ => (ensures_one _).bind fun name hname => .behind fun _ => ?_
  exact ensures_pure (hstart.merge hname)

/-- The place of a declaration of a file. -/
def Item.span : Item → Span
  | uses used => used.span
  | domain d => d.span
  | klass c => c.span

theorem ensures_item : Ensures (·.span.Within outer) item fun i => outer.Covers [i.span] := by
  refine .either ?_ (.either ?_ ?_)
  · exact ensures_uses.bind fun _ h => ensures_pure (.cons h Span.covers_nil)
  · exact delimited_domain.ensures.bind fun _ h => ensures_pure (.cons h Span.covers_nil)
  · exact delimited_klass.ensures.bind fun _ h => ensures_pure (.cons h Span.covers_nil)

/-- A declaration of a file holds what is written in it. -/
structure Item.Arranged (i : Item) : Prop where
  domain : ∀ d ∈ i.domain?, d.span.Covers (d.names.map Spanned.span)
  klass : ∀ c ∈ i.class?, c.Arranged

theorem arranges_item : Arranges item Item.Arranged := by
  refine .either ?_ (.either ?_ ?_)
  · refine .behind fun _ => arranges_pure ⟨?_, ?_⟩
    · rintro _ ⟨⟩
    · rintro _ ⟨⟩
  · have hspans (outer : Span) :
        Ensures (·.span.Within outer) domain fun d => outer.Covers (d.names.map Spanned.span) := by
      intro tokens d h hall
      exact List.forall_mem_map.mpr (ensures_domain_names tokens d h hall)
    refine Arranges.bind (fun _ _ => delimited_domain.covers hspans) fun d h => arranges_pure ⟨?_, ?_⟩
    · rintro _ ⟨⟩
      exact h
    · rintro _ ⟨⟩
  · refine arranges_klass.bind fun c h => arranges_pure ⟨?_, ?_⟩
    · rintro _ ⟨⟩
    · rintro _ ⟨⟩
      exact h

theorem pairwise_filterMap_items {α : Type} {items : List Item} {f : Item → Option α} {place : α → Span}
    (hf : ∀ i a, f i = some a → i.span = place a)
    (hitems : items.Pairwise fun a b => ∀ s ∈ [a.span], ∀ t ∈ [b.span], s.Precedes t) :
    ((items.filterMap f).map place).Pairwise Span.Precedes := by
  refine List.pairwise_map.mpr (List.pairwise_filterMap.mpr (hitems.imp fun {i j} h a ha b hb => ?_))
  rw [← hf i a ha, ← hf j b hb]
  exact h _ List.mem_cons_self _ List.mem_cons_self

end Grammar

/-- **Spans of the tree.** The spans of the tree that is parsed from a text are those of the text. -/
theorem parse_placed {text : String} {file : File} (h : File.parse text = .ok file) : file.Placed text := by
  obtain ⟨tokens, items, hscan, hphrase, rfl⟩ := (parse_eq_ok_iff_items text file).mp h
  obtain ⟨heach, horder⟩ := (Grammar.arranges_item.star fun _ => Grammar.ensures_item) tokens items hphrase
    (Lexeme.aligned_scan hscan)
  have hnames : ∀ item ∈ items, ∀ name ∈ item.names, name.span.Cuts text name.value := by
    intro item hitem name hname
    have htoken := Grammar.ensures_item_names.star tokens items hphrase (fun _ ht => ht) item hitem name hname
    exact Lexeme.cuts_of_ident (hscan ▸ List.mem_map_of_mem htoken)
  refine { names := fun name hname => ?_, uses := ?_, each_domain := fun d hd => ?_, domains := ?_,
           each_class := fun c hc => ?_, classes := ?_ }
  · rcases List.mem_append.mp hname with hname | hname
    · obtain ⟨d, hd, hname⟩ := List.mem_flatMap.mp hname
      obtain ⟨_ | _ | _, hitem, ⟨⟩⟩ := List.mem_filterMap.mp hd
      exact hnames _ hitem name hname
    · obtain ⟨c, hc, hname⟩ := List.mem_flatMap.mp hname
      obtain ⟨_ | _ | _, hitem, ⟨⟩⟩ := List.mem_filterMap.mp hc
      exact hnames _ hitem name hname
  · refine Grammar.pairwise_filterMap_items ?_ horder
    rintro (_ | _ | _) used ⟨⟩
    rfl
  · obtain ⟨item, hitem, hfound⟩ := List.mem_filterMap.mp hd
    exact (heach item hitem).domain d hfound
  · refine Grammar.pairwise_filterMap_items ?_ horder
    rintro (_ | _ | _) d ⟨⟩
    rfl
  · obtain ⟨item, hitem, hfound⟩ := List.mem_filterMap.mp hc
    exact (heach item hitem).klass c hfound
  · refine Grammar.pairwise_filterMap_items ?_ horder
    rintro (_ | _ | _) c ⟨⟩
    rfl

/-- A file with an entry in every list, most of them behind a letter of two bytes. -/
def everyEntry : String :=
  "uses App::Data::B; domain D \x7b label \"é\"; map sql = \"int\"; \x7d\n"
    ++ "class A : B enum \x7b key X; field X: D; alias B_Z; values \x7b R \x7b X = 1, Y = 2 \x7d S \x7b \x7d \x7d \x7d"

theorem parse_placed_everyEntry :
    ∃ file, File.parse everyEntry = .ok file ∧ file.names.map Spanned.value
        = ["D", "sql", "A", "B", "X", "X", "D", "B_Z", "R", "X", "Y", "S"]
      ∧ file.Placed everyEntry := by
  have hread : (File.parse everyEntry).toOption.any (fun file => decide (file.names.map Spanned.value
      = ["D", "sql", "A", "B", "X", "X", "D", "B_Z", "R", "X", "Y", "S"])) = true := by
    decide +kernel
  obtain ⟨file, hfile, hnames⟩ := (Option.any_eq_true _ _).mp hread
  exact ⟨file, eq_ok_of_toOption hfile, of_decide_eq_true hnames, parse_placed (eq_ok_of_toOption hfile)⟩

end Declaration

end EntityModel
