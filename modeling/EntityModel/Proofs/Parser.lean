import EntityModel.Proofs.Recognition

/-!
# The parser accepts the grammar

Each function of the parser recognizes its production, or what follows the reserved word that the production
starts with. The state of a loop is what the items taken so far come to, so that a turn adds one item to it.

`parse_eq_ok_iff`: a text is parsed exactly if all of it can be read and its tokens form a model file, and
the parse is what they say.
-/

namespace EntityModel

open Phrase

namespace Declaration

open EntityModel.Parser (Recognizes recognizes_pure recognizes_fail recognizes_ident recognizes_token recognizes_semi
  recognizes_string recognizes_literal recognizes_size)

theorem recognizes_parseUses (span : Span) :
    Recognizes (parseUses span) (Grammar.uses.after ⟨.keyword .uses, span⟩) := by
  simp only [Grammar.uses, after_exactly_bind, if_true]
  exact recognizes_ident.bind fun _ => (recognizes_token _).bind fun _ => recognizes_ident.bind fun _ =>
    (recognizes_token _).bind fun _ => recognizes_ident.bind fun _ => (recognizes_semi _).bind fun _ =>
    recognizes_pure _

theorem recognizes_require_pure {α : Type} {value : α} {condition : Prop} (hcondition : condition) :
    Recognizes (pure value) (do require condition; return value) := by
  rw [require_of hcondition]
  exact recognizes_pure value

theorem recognizes_domainTurn (start : Span) (name : Spanned String) (items : List Grammar.DomainItem)
    (hitems : Grammar.MapsOnce items) :
    Recognizes (Parser.next >>= domainTurn start (Grammar.domainOf name items start))
      ((do
          let i ← Grammar.domainItem
          require (Grammar.MapsOnce (items ++ [i]))
          return .more (Grammar.domainOf name (items ++ [i]) start))
        <|> (do return .done (Grammar.domainOf name items (start.merge (← mark .rbrace))))) := by
  refine .next_bind (fun _ => by simp [Grammar.domainItem, either_iff]) fun ⟨t, span⟩ => ?_
  simp only [Grammar.domainItem, either_bind, bind_assoc, pure_bind, after_either, after_exactly_bind,
    Grammar.domainOf_append, Grammar.DomainItem.addTo, domainTurn]
  split
  · simp only [reduceCtorEq, if_true, if_false, never_either]
    exact recognizes_pure _
  · simp only [Token.keyword.injEq, reduceCtorEq, if_true, if_false, either_never]
    exact recognizes_string.bind fun text => (recognizes_semi _).bind fun _ =>
      recognizes_require_pure (Grammar.mapsOnce_append_of_none hitems rfl)
  · simp only [Token.keyword.injEq, reduceCtorEq, if_true, if_false, never_either, either_never]
    exact recognizes_size.bind fun value => (recognizes_semi _).bind fun _ =>
      recognizes_require_pure (Grammar.mapsOnce_append_of_none hitems rfl)
  · simp only [Token.keyword.injEq, reduceCtorEq, if_true, if_false, never_either, either_never]
    exact recognizes_size.bind fun value => (recognizes_semi _).bind fun _ =>
      recognizes_require_pure (Grammar.mapsOnce_append_of_none hitems rfl)
  · simp only [Token.keyword.injEq, reduceCtorEq, if_true, if_false, never_either, either_never]
    refine recognizes_ident.bind fun target => (recognizes_token _).bind fun _ =>
      recognizes_string.bind fun type => ?_
    rw [bind_require_comm, Grammar.mapsOnce_append_map hitems name start]
    refine .require_bind (fun hnew => ?_) fun hdup => ?_
    · rw [if_neg hnew]
      exact (recognizes_semi _).bind fun _ => recognizes_pure _
    · rw [if_pos (Classical.not_not.mp hdup)]
      exact recognizes_fail _ _ _
  · next h₁ h₂ h₃ h₄ h₅ =>
    simp only [if_neg h₁, if_neg h₂, if_neg h₃, if_neg h₄, if_neg h₅, never_either]
    exact recognizes_fail _ _ _

theorem recognizes_parseDomain (span : Span) :
    Recognizes (parseDomain span) (Grammar.domain.after ⟨.keyword .domain, span⟩) := by
  simp only [Grammar.domain, after_exactly_bind, if_true]
  exact recognizes_ident.bind fun name => (recognizes_token _).bind fun _ =>
    .loop Grammar.mapsOnce_of_append (recognizes_domainTurn span name) Grammar.mapsOnce_nil

/-! ### Properties -/

theorem recognizes_modifierTurn (written : List (Spanned Modifier)) :
    Recognizes (Parser.next >>= modifierTurn written)
      ((do
          let m ← Grammar.modifier
          require True
          return .more (written ++ [m]))
        <|> (do return .done (written, ← mark .semi))) := by
  refine .next_bind (fun _ => by simp [Grammar.modifier, either_iff]) fun ⟨t, span⟩ => ?_
  simp only [require_of trivial, Grammar.modifier, either_bind, bind_assoc, pure_bind, after_either,
    after_exactly_bind, modifierTurn]
  split
  · simp only [reduceCtorEq, if_true, if_false, never_either]
    exact recognizes_pure _
  · simp only [Token.keyword.injEq, reduceCtorEq, if_true, if_false, either_never]
    exact recognizes_pure _
  · simp only [Token.keyword.injEq, reduceCtorEq, if_true, if_false, never_either, either_never]
    exact recognizes_pure _
  · simp only [Token.keyword.injEq, reduceCtorEq, if_true, if_false, never_either, either_never]
    exact recognizes_pure _
  · simp only [Token.keyword.injEq, reduceCtorEq, if_true, if_false, never_either, either_never]
    exact recognizes_pure _
  · simp only [Token.keyword.injEq, reduceCtorEq, if_true, if_false, never_either, either_never]
    exact recognizes_literal.bind fun _ => recognizes_pure _
  · simp only [Token.keyword.injEq, reduceCtorEq, if_true, if_false, never_either, either_never]
    exact recognizes_string.bind fun _ => recognizes_pure _
  · simp only [Token.keyword.injEq, reduceCtorEq, if_true, if_false, never_either, either_never]
    exact recognizes_string.bind fun _ => recognizes_pure _
  · simp only [Token.keyword.injEq, reduceCtorEq, if_true, if_false, never_either, either_never]
    exact recognizes_string.bind fun _ => recognizes_pure _
  · next h₁ h₂ h₃ h₄ h₅ h₆ h₇ h₈ h₉ =>
    simp only [if_neg h₁, if_neg h₂, if_neg h₃, if_neg h₄, if_neg h₅, if_neg h₆, if_neg h₇, if_neg h₈,
      if_neg h₉, never_either]
    exact recognizes_fail _ _ _

theorem recognizes_parseModifiers :
    Recognizes parseModifiers (do
      let written ← star Grammar.modifier
      let stop ← mark .semi
      return (written, stop)) := by
  have hloop := @Recognizes.loop _ _ _ _ modifierTurn Grammar.modifier (mark .semi) id (fun _ => True)
    Prod.mk (fun _ _ h => h) (fun written _ => recognizes_modifierTurn written) [] trivial
  simp only [require_of trivial] at hloop
  exact hloop

theorem keyword_mem_modifiers_iff (kind : PropertyKind) (m : Modifier) :
    m.keyword ∈ kind.modifiers ↔ Grammar.Accepts kind m := by
  cases kind <;> cases m <;> simp [Modifier.keyword, PropertyKind.modifiers, Grammar.Accepts]

theorem recognizes_applyModifiers {α : Type} (kind : PropertyKind) (apply : α → Modifier → α)
    (written : List (Spanned Modifier)) (property : α) :
    Recognizes (applyModifiers kind apply written property) (do
      require (∀ m ∈ written, Grammar.Accepts kind m.value)
      return (written.map Spanned.value).foldl apply property) := by
  induction written generalizing property with
  | nil => exact require_of (fun _ h => absurd h List.not_mem_nil) _ ▸ recognizes_pure _
  | cons m rest ih =>
    rw [applyModifiers]
    by_cases hm : Grammar.Accepts kind m.value
    · rw [if_pos ((keyword_mem_modifiers_iff kind m.value).mpr hm)]
      simpa only [List.forall_mem_cons, hm, true_and, List.map_cons, List.foldl_cons]
        using ih (apply property m.value)
    · rw [if_neg (mt (keyword_mem_modifiers_iff kind m.value).mp hm), require_of_not fun h => hm (h m List.mem_cons_self)]
      exact recognizes_fail _ _ _

theorem foldl_eq_of_append {α β : Type} {apply : α → β → α} {of : List β → α}
    (happend : ∀ written m, of (written ++ [m]) = apply (of written) m) (before written : List β) :
    written.foldl apply (of before) = of (before ++ written) := by
  induction written generalizing before with
  | nil => rw [List.foldl_nil, List.append_nil]
  | cons m rest ih => rw [List.foldl_cons, ← happend, ih, List.append_assoc, List.singleton_append]

/-- The modifiers that end a declaration are applied to what is declared before them. -/
theorem recognizes_modified {α : Type} (kind : PropertyKind) {apply : α → Modifier → α}
    {of : Span → List Modifier → α} (happend : ∀ span written m, of span (written ++ [m]) = apply (of span written) m)
    (start : Span) :
    Recognizes
      (do
        let (written, stop) ← parseModifiers
        applyModifiers kind apply written (of (start.merge stop) []))
      (do
        let (written, stop) ← Grammar.modifiers kind
        return of (start.merge stop) written) := by
  have h := recognizes_parseModifiers.bind fun parsed =>
    recognizes_applyModifiers kind apply parsed.1 (of (start.merge parsed.2) [])
  simp only [foldl_eq_of_append (happend _), List.nil_append] at h
  simpa only [Grammar.modifiers, bind_assoc, pure_bind] using h

theorem recognizes_parseField (span : Span) :
    Recognizes (parseField span) (Grammar.field.after ⟨.keyword .field, span⟩) := by
  simp only [Grammar.field, after_exactly_bind, if_true]
  exact recognizes_ident.bind fun name => ((recognizes_token _).hinting _).bind fun _ =>
    recognizes_ident.bind fun domain => recognizes_modified .field (Grammar.fieldOf_append name domain) span

theorem recognizes_parseAssociation (span : Span) :
    Recognizes (parseAssociation span) (Grammar.association.after ⟨.keyword .ref, span⟩) := by
  simp only [Grammar.association, after_exactly_bind, if_true]
  exact recognizes_ident.bind fun name => ((recognizes_token _).hinting _).bind fun _ =>
    recognizes_ident.bind fun target =>
      recognizes_modified .association (Grammar.associationOf_append name target) span

theorem multiplicity?_eq : multiplicity? = Grammar.multiplicity? := by
  funext t
  cases t with
  | keyword word => cases word <;> rfl
  | _ => rfl

theorem recognizes_parseComposition (span : Span) :
    Recognizes (parseComposition span) (Grammar.composition.after ⟨.keyword .compose, span⟩) := by
  simp only [Grammar.composition, after_exactly_bind, if_true, ← multiplicity?_eq]
  refine recognizes_ident.bind fun name => ((recognizes_token _).hinting _).bind fun _ =>
    recognizes_ident.bind fun target => .optional_bind (fun multiplicity =>
      recognizes_modified .composition (Grammar.compositionOf_append name target multiplicity) span) ?_
  rintro _ b ⟨tokens, rest, parsed, rfl, hparsed, -⟩
  obtain ⟨first, others, rfl, hfirst⟩ := Grammar.modifiers_start hparsed
  refine ⟨first, others ++ rest, rfl, ?_⟩
  -- Only a label may follow, so `many` is the multiplicity here and no modifier.
  rcases hfirst with hsemi | ⟨m, hm, hword⟩
  · rw [hsemi]
    rfl
  · rw [hword]
    cases m with
    | label => rfl
    | _ => simp [Grammar.Accepts] at hm

theorem recognizes_parseAlias (span : Span) :
    Recognizes (parseAlias span) (Grammar.aliasItem.after ⟨.keyword .alias, span⟩) := by
  simp only [Grammar.aliasItem, after_exactly_bind, if_true]
  exact recognizes_ident.bind fun token => recognizes_modified .alias (Grammar.aliasOf_append token) span

/-! ### Rows -/

theorem recognizes_rowValueTurn (values : List (Spanned String × Spanned Literal)) :
    Recognizes (Parser.next >>= rowValueTurn values)
      ((do
          let value ← Grammar.rowValueComma
          require True
          return .more (values ++ [value]))
        <|> (do
          let ended ← Grammar.rowEnd
          return .done (values ++ ended.1.toList, ended.2))) := by
  refine .next_bind (fun _ => by
    simp [Grammar.rowValueComma, Grammar.rowEnd, opt, Grammar.rowValue, ident, either_iff]) fun ⟨t, span⟩ => ?_
  simp only [require_of trivial, Grammar.rowValueComma, Grammar.rowEnd, opt, Grammar.rowValue, ident,
    either_bind, bind_assoc, pure_bind, after_either, after_exactly_bind, after_one_bind, rowValueTurn]
  split
  · simp only [ident?, if_true, never_either, Option.toList_none, List.append_nil]
    exact recognizes_pure _
  · simp only [ident?, reduceCtorEq, if_false, either_never, ← bind_either]
    refine ((recognizes_token _).hinting _).bind fun _ => recognizes_literal.bind fun value => ?_
    refine .next_bind (fun _ => by simp [either_iff]) fun ⟨t, stop⟩ => ?_
    simp only [after_either, after_exactly_bind]
    split
    · simp only [Token.punctuation.injEq, reduceCtorEq, if_true, if_false, either_never]
      exact recognizes_pure _
    · simp only [Token.punctuation.injEq, reduceCtorEq, if_true, if_false, never_either]
      exact recognizes_pure _
    · next h₁ h₂ =>
      simp only [if_neg h₁, if_neg h₂, never_either]
      exact recognizes_fail _ _ _
  · next h₁ h₂ =>
    have hident : ident? t = none := by
      cases t with
      | ident name => exact absurd rfl (h₂ name)
      | _ => rfl
    simp only [hident, if_neg h₁, never_either]
    exact recognizes_fail _ _ _

theorem recognizes_rowValues :
    Recognizes (Parser.loop rowValueTurn []) (do
      let values ← Grammar.rowValues
      return (values, ← mark .rbrace)) := by
  have hloop := @Recognizes.loop _ _ _ _ rowValueTurn Grammar.rowValueComma Grammar.rowEnd id (fun _ => True)
    (fun values ended => (values ++ ended.1.toList, ended.2)) (fun _ _ h => h)
    (fun values _ => recognizes_rowValueTurn values) [] trivial
  simp only [require_of trivial, Grammar.rowEnd, bind_assoc, pure_bind] at hloop
  simpa only [Grammar.rowValues_eq, Grammar.rowValuesEnded, bind_assoc, pure_bind, List.nil_append, id_eq]
    using hloop

theorem recognizes_rowTurn (rows : List Row) :
    Recognizes (Parser.next >>= rowTurn rows)
      ((do
          let row ← Grammar.row
          require True
          return .more (rows ++ [row]))
        <|> (do let _ ← mark .rbrace; return .done rows)) := by
  refine .next_bind (fun _ => by simp [Grammar.row, ident, either_iff]) fun ⟨t, span⟩ => ?_
  simp only [require_of trivial, Grammar.row, ident, bind_assoc, pure_bind, after_either, after_exactly_bind,
    after_one_bind, rowTurn]
  split
  · simp only [ident?, if_true, never_either]
    exact recognizes_pure _
  · next name =>
    simp only [ident?, reduceCtorEq, if_false, either_never]
    refine (recognizes_token _).bind fun _ => ?_
    have h := recognizes_rowValues.bind fun parsed =>
      recognizes_pure (Parser.Turn.more (rows ++ [Row.mk ⟨name, span⟩ parsed.1 (span.merge parsed.2)]) :
        Parser.Turn (List Row) (List Row))
    simpa only [bind_assoc, pure_bind] using h
  · next h₁ h₂ =>
    have hident : ident? t = none := by
      cases t with
      | ident name => exact absurd rfl (h₂ name)
      | _ => rfl
    simp only [hident, if_neg h₁, never_either]
    exact recognizes_fail _ _ _

theorem recognizes_parseRows (rows : List Row) :
    Recognizes (parseRows rows) (do
      let _ ← mark .lbrace
      let more ← star Grammar.row
      let _ ← mark .rbrace
      return rows ++ more) := by
  have hloop := @Recognizes.loop _ _ _ _ rowTurn Grammar.row (mark .rbrace) id (fun _ => True)
    (fun rows _ => rows) (fun _ _ h => h) (fun rows _ => recognizes_rowTurn rows) rows trivial
  simp only [require_of trivial] at hloop
  exact (recognizes_token _).bind fun _ => hloop

/-! ### Classes -/

theorem recognizes_parseOnce {α : Type} (setting : Keyword) (written : Option (Spanned String))
    (hint : String) (result : Spanned String → α) :
    Recognizes (do let name ← parseOnce setting written hint; return result name) (do
      require (¬ written.isSome = true)
      let name ← ident
      semi
      return result name) := by
  rw [parseOnce, Parser.bind_assoc, ← bind_require_comm]
  refine recognizes_ident.bind fun name => .require_bind (fun hnew => ?_) fun hdup => ?_
  · rw [if_neg hnew, Parser.bind_assoc]
    have h := (recognizes_semi hint).bind fun _ => (recognizes_pure name).bind fun name =>
      recognizes_pure (result name)
    simpa only [pure_bind] using h
  · rw [if_pos (Classical.not_not.mp hdup)]
    have h := (recognizes_fail (.duplicateSetting setting) name.span none).bind fun name =>
      recognizes_pure (result name)
    simpa only [never_bind] using h

theorem recognizes_classTurn (start placeholder : Span) (name : Spanned String) (parent : Option (Spanned String))
    (stereotype : Option (Spanned Stereotype)) (items : List Grammar.ClassItem)
    (hitems : Grammar.SetsOnce items) :
    Recognizes (Parser.next >>= classTurn start (Grammar.classOf name parent stereotype items placeholder))
      ((do
          let i ← Grammar.classItem
          require (Grammar.SetsOnce (items ++ [i]))
          return .more (Grammar.classOf name parent stereotype (items ++ [i]) placeholder))
        <|> (do
          return .done (Grammar.classOf name parent stereotype items (start.merge (← mark .rbrace))))) := by
  refine .next_bind (fun _ => by
    simp [Grammar.classItem, Grammar.field_startsWith.bind_nil, Grammar.association_startsWith.bind_nil,
      Grammar.composition_startsWith.bind_nil, Grammar.aliasItem_startsWith.bind_nil, either_iff]) fun ⟨t, span⟩ => ?_
  simp only [Grammar.classItem, either_bind, bind_assoc, pure_bind, after_either, after_exactly_bind,
    Grammar.field_startsWith.after_bind, Grammar.association_startsWith.after_bind,
    Grammar.composition_startsWith.after_bind, Grammar.aliasItem_startsWith.after_bind, Grammar.classOf_append,
    Grammar.ClassItem.addTo, classTurn]
  split
  · simp only [reduceCtorEq, if_true, if_false, never_either]
    exact recognizes_pure _
  · simp only [Token.keyword.injEq, reduceCtorEq, if_true, if_false, either_never,
      Grammar.setsOnce_append_trigram hitems, bind_require_comm]
    exact recognizes_parseOnce _ _ _ _
  · simp only [Token.keyword.injEq, reduceCtorEq, if_true, if_false, never_either, either_never,
      Grammar.setsOnce_append_label hitems, bind_require_comm]
    exact recognizes_parseOnce _ _ _ _
  · simp only [Token.keyword.injEq, reduceCtorEq, if_true, if_false, never_either, either_never,
      Grammar.setsOnce_append_key hitems, bind_require_comm]
    exact recognizes_parseOnce _ _ _ _
  · simp only [Token.keyword.injEq, reduceCtorEq, if_true, if_false, never_either, either_never]
    exact (recognizes_semi _).bind fun _ =>
      recognizes_require_pure (Grammar.setsOnce_append_of_none hitems rfl rfl rfl)
  · simp only [Token.keyword.injEq, reduceCtorEq, if_true, if_false, never_either, either_never]
    exact (recognizes_semi _).bind fun _ =>
      recognizes_require_pure (Grammar.setsOnce_append_of_none hitems rfl rfl rfl)
  · simp only [Token.keyword.injEq, reduceCtorEq, if_true, if_false, never_either, either_never]
    exact (recognizes_parseField span).bind fun _ =>
      recognizes_require_pure (Grammar.setsOnce_append_of_none hitems rfl rfl rfl)
  · simp only [Token.keyword.injEq, reduceCtorEq, if_true, if_false, never_either, either_never]
    exact (recognizes_parseAssociation span).bind fun _ =>
      recognizes_require_pure (Grammar.setsOnce_append_of_none hitems rfl rfl rfl)
  · simp only [Token.keyword.injEq, reduceCtorEq, if_true, if_false, never_either, either_never]
    exact (recognizes_parseComposition span).bind fun _ =>
      recognizes_require_pure (Grammar.setsOnce_append_of_none hitems rfl rfl rfl)
  · simp only [Token.keyword.injEq, reduceCtorEq, if_true, if_false, never_either, either_never]
    exact (recognizes_parseAlias span).bind fun _ =>
      recognizes_require_pure (Grammar.setsOnce_append_of_none hitems rfl rfl rfl)
  · simp only [Token.keyword.injEq, reduceCtorEq, if_true, if_false, never_either, either_never]
    have hvalues (rows : List Row) : Grammar.SetsOnce (items ++ [.values rows]) :=
      Grammar.setsOnce_append_of_none hitems rfl rfl rfl
    have h := (recognizes_parseRows (Grammar.classOf name parent stereotype items placeholder).rows).bind
      fun rows => recognizes_pure (Parser.Turn.more
        { Grammar.classOf name parent stereotype items placeholder with rows } : Parser.Turn Class Class)
    simpa only [bind_assoc, pure_bind, require_of (hvalues _)] using h
  · next h₁ h₂ h₃ h₄ h₅ h₆ h₇ h₈ h₉ h₁₀ h₁₁ =>
    simp only [if_neg h₁, if_neg h₂, if_neg h₃, if_neg h₄, if_neg h₅, if_neg h₆, if_neg h₇, if_neg h₈,
      if_neg h₉, if_neg h₁₀, if_neg h₁₁, never_either]
    exact recognizes_fail _ _ _

theorem colon?_eq : colon? = fun token => if token = .punctuation .colon then some () else none := by
  funext token
  unfold colon?
  split
  · rw [if_pos rfl]
  · next hne => rw [if_neg hne]

theorem opt_parent : opt (do let _ ← mark .colon; ident) = (do
    match ← opt (one colon?) with
    | some _ => do let parent ← ident; return some parent
    | none => return none) := by
  simp only [opt, exactly, ← colon?_eq, either_bind, bind_assoc, pure_bind]

theorem stereotype?_eq : stereotype? = Grammar.stereotype? := by
  funext t
  cases t with
  | keyword word => cases word <;> rfl
  | _ => rfl

/-- What follows the parent of a class. -/
def Grammar.klassRest (start : Span) (name : Spanned String) (parent : Option (Spanned String)) :
    Phrase Class := do
  let stereotype ← opt (one Grammar.stereotype?)
  let _ ← mark .lbrace
  let items ← star Grammar.classItem
  let stop ← mark .rbrace
  require (Grammar.SetsOnce items)
  return Grammar.classOf name parent stereotype items (start.merge stop)

theorem Grammar.klassRest_start {start : Span} {name : Spanned String} {parent : Option (Spanned String)}
    {tokens : List (Spanned Token)} {klass : Class} (h : Grammar.klassRest start name parent tokens klass) :
    ∃ first others, tokens = first :: others ∧ colon? first.value = none := by
  obtain ⟨_, _, stereotype, rfl, hstereotype, hrest⟩ := h
  rcases opt_iff.mp hstereotype with ⟨_, ⟨token, rfl, haccept, -⟩, -⟩ | ⟨rfl, -⟩
  · refine ⟨token, _, rfl, ?_⟩
    unfold colon?
    split
    · next hcolon =>
      rw [hcolon] at haccept
      cases haccept
    · rfl
  · obtain ⟨span, rest, rfl, -⟩ := exactly_bind_iff.mp hrest
    exact ⟨_, _, rfl, rfl⟩

theorem recognizes_klassRest (start : Span) (name : Spanned String) (parent : Option (Spanned String)) :
    Recognizes
      (do
        let stereotype ← Parser.optional stereotype?
        let _ ← Parser.mark .lbrace
        Parser.loop (classTurn start) { name, parent, stereotype, span := name.span })
      (Grammar.klassRest start name parent) := by
  rw [Grammar.klassRest, ← stereotype?_eq]
  refine .optional_bind (fun stereotype => (recognizes_token _).bind fun _ => ?_) fun tokens klass h => ?_
  · exact @Recognizes.loop _ _ _ _ (classTurn start) Grammar.classItem (mark .rbrace)
      (fun items => Grammar.classOf name parent stereotype items name.span) Grammar.SetsOnce
      (fun items stop => Grammar.classOf name parent stereotype items (start.merge stop))
      Grammar.setsOnce_of_append (recognizes_classTurn start name.span name parent stereotype) []
      Grammar.setsOnce_nil
  · obtain ⟨span, rest, rfl, -⟩ := exactly_bind_iff.mp h
    exact ⟨_, _, rfl, rfl⟩

theorem recognizes_parseClass (span : Span) :
    Recognizes (parseClass span) (Grammar.klass.after ⟨.keyword .klass, span⟩) := by
  simp only [Grammar.klass, after_exactly_bind, if_true, opt_parent, bind_assoc]
  refine recognizes_ident.bind fun name => ?_
  rw [parseParent, Parser.bind_assoc]
  refine .optional_bind (fun colon => ?_) fun tokens klass h => ?_
  · cases colon with
    | none => exact (recognizes_pure _).bind fun parent => recognizes_klassRest span name parent
    | some colon =>
      exact (recognizes_ident.bind fun parent => recognizes_pure _).bind fun parent =>
        recognizes_klassRest span name parent
  · rw [pure_bind] at h
    exact Grammar.klassRest_start h

/-! ### Files -/

theorem recognizes_parseItem (items : List Grammar.Item) :
    Recognizes (Parser.next >>= parseItem (Grammar.fileOf items))
      (do let i ← Grammar.item; return Grammar.fileOf (items ++ [i])) := by
  refine .next_bind (fun _ => by
    simp [Grammar.item, Grammar.uses_startsWith.bind_nil, Grammar.domain_startsWith.bind_nil,
      Grammar.klass_startsWith.bind_nil, either_iff]) fun ⟨t, span⟩ => ?_
  simp only [Grammar.item, either_bind, bind_assoc, pure_bind, after_either, Grammar.uses_startsWith.after_bind,
    Grammar.domain_startsWith.after_bind, Grammar.klass_startsWith.after_bind, Grammar.fileOf_append,
    Grammar.Item.addTo, parseItem]
  split
  · simp only [Token.keyword.injEq, reduceCtorEq, if_true, if_false, either_never]
    exact (recognizes_parseUses span).bind fun _ => recognizes_pure _
  · simp only [Token.keyword.injEq, reduceCtorEq, if_true, if_false, never_either, either_never]
    exact (recognizes_parseDomain span).bind fun _ => recognizes_pure _
  · simp only [Token.keyword.injEq, reduceCtorEq, if_true, if_false, never_either]
    exact (recognizes_parseClass span).bind fun _ => recognizes_pure _
  · next h₁ h₂ h₃ =>
    simp only [if_neg h₁, if_neg h₂, if_neg h₃, never_either]
    exact recognizes_fail _ _ _

/-- What is left of a text is parsed when it is declarations, which follow those before. -/
theorem parseItems_eq_ok {stop : Nat} {items : List Grammar.Item} {input : List Lexeme} {file : File} :
    parseItems stop (Grammar.fileOf items) input = .ok file
      ↔ ∃ tokens more, input = tokens.map Lexeme.token ∧ Star Grammar.item tokens more
        ∧ file = Grammar.fileOf (items ++ more) := by
  obtain ⟨n, hn⟩ : ∃ n, input.length = n := ⟨_, rfl⟩
  induction n using Nat.strongRecOn generalizing input items with
  | ind n ih =>
    rcases input with _ | ⟨⟨t⟩ | ⟨piece⟩, rest⟩
    · rw [parseItems]
      constructor
      · rintro ⟨⟩
        exact ⟨[], [], rfl, .nil, by rw [List.append_nil]⟩
      · rintro ⟨tokens, more, htokens, hmore, rfl⟩
        obtain rfl := List.map_eq_nil_iff.mp htokens.symm
        rw [hmore.eq_nil Grammar.item_not_nil, List.append_nil]
    · have hitem {file' : File} {rest' : List Lexeme} :
          (∃ h, parseItem (Grammar.fileOf items) t stop rest = .ok ⟨file', rest', h⟩)
            ↔ ∃ tokens i, .token t :: rest = tokens.map Lexeme.token ++ rest' ∧ Grammar.item tokens i
              ∧ file' = Grammar.fileOf (items ++ [i]) := by
        rw [← Parser.next_bind_token, recognizes_parseItem items stop _ file' rest']
        simp only [bind_pure_iff, exists_and_left]
      rw [parseItems]
      constructor
      · intro hok
        split at hok
        · cases hok
        · next file' rest' hle hparse =>
          obtain ⟨first, i, hinput, hi, rfl⟩ := hitem.mp ⟨hle, hparse⟩
          obtain ⟨others, more, rfl, hmore, rfl⟩ := (ih _ (hn ▸ Nat.lt_succ_of_le hle) rfl).mp hok
          exact ⟨first ++ others, i :: more, by simpa using hinput, .cons hi hmore, by simp⟩
      · rintro ⟨_, _, hinput, _ | @⟨first, others, i, more, hi, hmore⟩, rfl⟩
        · simp at hinput
        · obtain ⟨hle, hparse⟩ := hitem.mpr ⟨first, i, by simpa using hinput, hi, rfl⟩
          simp only [hparse]
          exact (ih _ (hn ▸ Nat.lt_succ_of_le hle) rfl).mpr ⟨others, more, rfl, hmore, by simp⟩
    · rw [parseItems]
      refine iff_of_false (by simp) ?_
      rintro ⟨tokens, more, htokens, -⟩
      rcases tokens with _ | ⟨first, others⟩ <;> simp at htokens

/-- **The parser accepts the grammar.** A text is parsed exactly if all of it can be read and its tokens form
a model file, and what the parse yields is what they say. -/
theorem parse_eq_ok_iff (text : String) (file : File) :
    File.parse text = .ok file
      ↔ (∀ piece, Lexeme.unreadable piece ∉ Lexeme.scan text) ∧ Grammar.file (Token.ofText text) file := by
  have hparse := @parseItems_eq_ok text.utf8ByteSize [] (Lexeme.scan text) file
  have hfile : Grammar.file (Token.ofText text) file
      ↔ ∃ items, Star Grammar.item (Token.ofText text) items ∧ file = Grammar.fileOf items := bind_pure_iff
  rw [File.parse, hfile]
  refine hparse.trans ⟨?_, ?_⟩
  · rintro ⟨tokens, items, hinput, hitems, rfl⟩
    obtain ⟨hreadable, rfl⟩ := Lexeme.eq_map_token_iff.mp hinput
    exact ⟨hreadable, items, hitems, rfl⟩
  · rintro ⟨hreadable, items, hitems, rfl⟩
    exact ⟨Token.ofText text, items, Lexeme.eq_map_token_iff.mpr ⟨hreadable, rfl⟩, hitems, rfl⟩

end Declaration

end EntityModel
