import EntityModel.Proofs.Phrase

/-!
# The grammar of model files

The productions of model files as phrases. A production that repeats items takes them as a list in the order
they are written, and says what the list comes to: a setting that may be repeated has its last value, and
what may be written once at most, or not twice for one target, is a side condition.
-/

namespace EntityModel

namespace Phrase

/-! ### Single tokens -/

abbrev word (k : Keyword) : Phrase Span := exactly (.keyword k)

abbrev mark (p : Punctuation) : Phrase Span := exactly (.punctuation p)

def semi : Phrase Unit := do
  let _ ← mark .semi

/-- The name that a token is. -/
def ident? : Token → Option String
  | .ident name => some name
  | _ => none

def ident : Phrase (Spanned String) := one ident?

def string? : Token → Option String
  | .string value => some value
  | _ => none

def string : Phrase String := do return (← one string?).value

/-- The literal that a token is. -/
def literal? : Token → Option Literal
  | .string value => some (.string value)
  | .integer value => some (.integer value)
  | .number value => some (.number value)
  | .keyword .true => some (.bool true)
  | .keyword .false => some (.bool false)
  | .keyword .null => some .null
  | _ => none

def literal : Phrase (Spanned Literal) := one literal?

/-- The length or scale that a token is, an integer of 32 bits without sign. -/
def size? : Token → Option Nat
  | .integer value => if 0 ≤ value ∧ value < 0x100000000 then some value.toNat else none
  | _ => none

def size : Phrase Nat := do return (← one size?).value

end Phrase

namespace Declaration

namespace Grammar

open Phrase

/-! ### Files a file uses -/

/-- `uses module::kind::name;` -/
def uses : Phrase (Spanned FileId) := do
  let start ← word .uses
  let module ← ident
  let _ ← mark .pathSep
  let kind ← ident
  let _ ← mark .pathSep
  let name ← ident
  semi
  return ⟨⟨module.value, kind.value, name.value⟩, start.merge name.span⟩

/-! ### Domains -/

inductive DomainItem where
  | label (text : String)
  | length (value : Nat)
  | scale (value : Nat)
  | map (target : Spanned String) (type : String)

namespace DomainItem

def label? : DomainItem → Option String
  | label text => some text
  | _ => none

def length? : DomainItem → Option Nat
  | length value => some value
  | _ => none

def scale? : DomainItem → Option Nat
  | scale value => some value
  | _ => none

def mapping? : DomainItem → Option (Spanned String × String)
  | map target type => some (target, type)
  | _ => none

def addTo (domain : Domain) : DomainItem → Domain
  | label text => { domain with label := some text }
  | length value => { domain with length := some value }
  | scale value => { domain with scale := some value }
  | map target type => { domain with mappings := domain.mappings ++ [(target, type)] }

end DomainItem

def domainItem : Phrase DomainItem :=
  (do let _ ← word .label; let text ← string; semi; return .label text) <|>
  (do let _ ← word .length; let value ← size; semi; return .length value) <|>
  (do let _ ← word .scale; let value ← size; semi; return .scale value) <|>
  (do
    let _ ← word .map
    let target ← ident
    let _ ← mark .assign
    let type ← string
    semi
    return .map target type)

def domainOf (name : Spanned String) (items : List DomainItem) (span : Span) : Domain where
  name := name
  label := (items.filterMap DomainItem.label?).getLast?
  length := (items.filterMap DomainItem.length?).getLast?
  scale := (items.filterMap DomainItem.scale?).getLast?
  mappings := items.filterMap DomainItem.mapping?
  span := span

theorem domainOf_append (name : Spanned String) (items : List DomainItem) (item : DomainItem) (span : Span) :
    domainOf name (items ++ [item]) span = item.addTo (domainOf name items span) := by
  cases item <;>
    simp [domainOf, DomainItem.addTo, DomainItem.label?, DomainItem.length?, DomainItem.scale?,
      DomainItem.mapping?]

/-- No target is mapped twice. -/
def MapsOnce (items : List DomainItem) : Prop :=
  ((items.filterMap DomainItem.mapping?).map (·.1.value)).Nodup

theorem mapsOnce_nil : MapsOnce [] := List.nodup_nil

theorem mapsOnce_of_append (items more : List DomainItem) (h : MapsOnce (items ++ more)) : MapsOnce items := by
  simp only [MapsOnce, List.filterMap_append, List.map_append] at h ⊢
  exact (List.nodup_append.mp h).1

theorem mapsOnce_append_of_none {items : List DomainItem} (hitems : MapsOnce items) {item : DomainItem}
    (hitem : item.mapping? = none) : MapsOnce (items ++ [item]) := by
  rw [MapsOnce, List.filterMap_append, List.filterMap_cons_none hitem]
  simpa [MapsOnce] using hitems

theorem mapsOnce_append_map {items : List DomainItem} (hitems : MapsOnce items) (name : Spanned String)
    (span : Span) (target : Spanned String) (type : String) : MapsOnce (items ++ [.map target type])
      ↔ ¬ (domainOf name items span).mappings.any (·.1.value == target.value) = true := by
  have hlast : [DomainItem.map target type].filterMap DomainItem.mapping? = [(target, type)] := rfl
  rw [MapsOnce] at hitems
  rw [MapsOnce, List.filterMap_append, hlast, List.map_append, List.nodup_append, domainOf]
  generalize items.filterMap DomainItem.mapping? = mappings at hitems ⊢
  simp only [hitems, List.map_cons, List.map_nil, List.any_eq_true, beq_iff_eq, List.mem_singleton,
    List.nodup_cons, List.not_mem_nil, not_false_eq_true, List.nodup_nil, and_self, true_and, List.mem_map]
  constructor
  · rintro hne ⟨mapping, hmem, heq⟩
    exact hne _ ⟨mapping, hmem, rfl⟩ _ rfl heq
  · rintro hnone _ ⟨mapping, hmem, rfl⟩ _ rfl heq
    exact hnone ⟨mapping, hmem, heq⟩

/-- `domain Name { ... }` -/
def domain : Phrase Domain := do
  let start ← word .domain
  let name ← ident
  let _ ← mark .lbrace
  let items ← star domainItem
  let stop ← mark .rbrace
  require (MapsOnce items)
  return domainOf name items (start.merge stop)

/-! ### Properties -/

/-- A modifier, which stands where its word does. -/
def modifier : Phrase (Spanned Modifier) :=
  (do return ⟨.primary, ← word .primary⟩) <|>
  (do return ⟨.required, ← word .required⟩) <|>
  (do return ⟨.unique, ← word .unique⟩) <|>
  (do return ⟨.many, ← word .many⟩) <|>
  (do let span ← word .default; let value ← literal; return ⟨.default value, span⟩) <|>
  (do let span ← word .label; let text ← string; return ⟨.label text, span⟩) <|>
  (do let span ← word .column; let name ← string; return ⟨.column name, span⟩) <|>
  (do let span ← word .role; let name ← string; return ⟨.role name, span⟩)

/-- Whether a declaration of a kind accepts a modifier. -/
def Accepts (kind : PropertyKind) : Modifier → Prop
  | .primary | .unique | .default _ | .column _ => kind = .field
  | .required | .many => kind = .field ∨ kind = .association
  | .role _ => kind = .association
  | .label _ => True

/-- The modifiers that end a declaration of some kind, and where its `;` is. -/
def modifiers (kind : PropertyKind) : Phrase (List Modifier × Span) := do
  let written ← star modifier
  let stop ← mark .semi
  require (∀ m ∈ written, Accepts kind m.value)
  return (written.map Spanned.value, stop)

theorem modifier_start {tokens : List (Spanned Token)} {m : Spanned Modifier} (h : modifier tokens m) :
    ∃ others, tokens = ⟨.keyword m.value.keyword, m.span⟩ :: others := by
  rcases h with h | h | h | h | h | h | h | h <;> obtain ⟨span, others, rfl, hm⟩ := exactly_bind_iff.mp h
  · obtain ⟨rfl, rfl⟩ := pure_iff.mp hm
    exact ⟨[], rfl⟩
  · obtain ⟨rfl, rfl⟩ := pure_iff.mp hm
    exact ⟨[], rfl⟩
  · obtain ⟨rfl, rfl⟩ := pure_iff.mp hm
    exact ⟨[], rfl⟩
  · obtain ⟨rfl, rfl⟩ := pure_iff.mp hm
    exact ⟨[], rfl⟩
  · obtain ⟨value, -, rfl⟩ := bind_pure_iff.mp hm
    exact ⟨others, rfl⟩
  · obtain ⟨text, -, rfl⟩ := bind_pure_iff.mp hm
    exact ⟨others, rfl⟩
  · obtain ⟨name, -, rfl⟩ := bind_pure_iff.mp hm
    exact ⟨others, rfl⟩
  · obtain ⟨name, -, rfl⟩ := bind_pure_iff.mp hm
    exact ⟨others, rfl⟩

theorem modifiers_start {kind : PropertyKind} {tokens : List (Spanned Token)} {parsed : List Modifier × Span}
    (h : modifiers kind tokens parsed) : ∃ first others, tokens = first :: others
      ∧ (first.value = .punctuation .semi ∨ ∃ m, Accepts kind m ∧ first.value = .keyword m.keyword) := by
  obtain ⟨_, rest, written, rfl, hwritten, hrest⟩ := h
  obtain ⟨span, others, rfl, hstop⟩ := exactly_bind_iff.mp hrest
  obtain ⟨hkind, -⟩ := require_bind_iff.mp hstop
  rcases hwritten with _ | @⟨first, more, m, ms, hm, hms⟩
  · exact ⟨_, _, rfl, Or.inl rfl⟩
  · obtain ⟨tail, rfl⟩ := modifier_start hm
    exact ⟨_, _, rfl, Or.inr ⟨_, hkind m List.mem_cons_self, rfl⟩⟩

def default? : Modifier → Option (Spanned Literal)
  | .default value => some value
  | _ => none

def label? : Modifier → Option String
  | .label text => some text
  | _ => none

def column? : Modifier → Option String
  | .column name => some name
  | _ => none

def role? : Modifier → Option String
  | .role name => some name
  | _ => none

def fieldOf (name domain : Spanned String) (span : Span) (written : List Modifier) : Field where
  name := name
  domain := domain
  primaryKey := .primary ∈ written
  required := .required ∈ written
  unique := .unique ∈ written
  many := .many ∈ written
  default := (written.filterMap default?).getLast?
  label := (written.filterMap label?).getLast?
  column := (written.filterMap column?).getLast?
  span := span

theorem fieldOf_append (name domain : Spanned String) (span : Span) (written : List Modifier) (m : Modifier) :
    fieldOf name domain span (written ++ [m]) = (fieldOf name domain span written).modify m := by
  cases m <;> simp [fieldOf, Field.modify, default?, label?, column?]

/-- `field Name: DOMAIN ...;` -/
def field : Phrase Field := do
  let start ← word .field
  let name ← ident
  let _ ← mark .colon
  let domain ← ident
  let (written, stop) ← modifiers .field
  return fieldOf name domain (start.merge stop) written

def associationOf (name target : Spanned String) (span : Span) (written : List Modifier) : Association where
  name := name
  target := target
  role := (written.filterMap role?).getLast?
  required := .required ∈ written
  many := .many ∈ written
  label := (written.filterMap label?).getLast?
  span := span

theorem associationOf_append (name target : Spanned String) (span : Span) (written : List Modifier)
    (m : Modifier) : associationOf name target span (written ++ [m])
      = (associationOf name target span written).modify m := by
  cases m <;> simp [associationOf, Association.modify, label?, role?]

/-- `ref Name -> Target ...;` -/
def association : Phrase Association := do
  let start ← word .ref
  let name ← ident
  let _ ← mark .arrow
  let target ← ident
  let (written, stop) ← modifiers .association
  return associationOf name target (start.merge stop) written

/-- What a composition comes to with its modifiers. One is meant when no multiplicity is written. -/
def compositionOf (name target : Spanned String) (multiplicity : Option (Spanned Multiplicity)) (span : Span)
    (written : List Modifier) : Composition where
  name := name
  target := target
  multiplicity := (multiplicity.map Spanned.value).getD .one
  label := (written.filterMap label?).getLast?
  span := span

theorem compositionOf_append (name target : Spanned String) (multiplicity : Option (Spanned Multiplicity))
    (span : Span) (written : List Modifier) (m : Modifier) :
    compositionOf name target multiplicity span (written ++ [m])
      = (compositionOf name target multiplicity span written).modify m := by
  cases m <;> simp [compositionOf, Composition.modify, label?]

def multiplicity? : Token → Option Multiplicity
  | .keyword .one => some .one
  | .keyword .many => some .many
  | _ => none

/-- `compose Name -> Target one|many ...;` -/
def composition : Phrase Composition := do
  let start ← word .compose
  let name ← ident
  let _ ← mark .arrow
  let target ← ident
  let multiplicity ← opt (one multiplicity?)
  let (written, stop) ← modifiers .composition
  return compositionOf name target multiplicity (start.merge stop) written

def aliasOf (token : Spanned String) (span : Span) (written : List Modifier) : Alias where
  token := token
  label := (written.filterMap label?).getLast?
  span := span

theorem aliasOf_append (token : Spanned String) (span : Span) (written : List Modifier) (m : Modifier) :
    aliasOf token span (written ++ [m]) = (aliasOf token span written).modify m := by
  cases m <;> simp [aliasOf, Alias.modify, label?]

/-- `alias Class_Property ...;` -/
def aliasItem : Phrase Alias := do
  let start ← word .alias
  let token ← ident
  let (written, stop) ← modifiers .alias
  return aliasOf token (start.merge stop) written

/-! ### Rows -/

/-- `Field = value` -/
def rowValue : Phrase (Spanned String × Spanned Literal) := do
  let field ← ident
  let _ ← mark .assign
  let value ← literal
  return (field, value)

/-- The values of a row, which may end with a comma if there are any. -/
def rowValues : Phrase (List (Spanned String × Spanned Literal)) :=
  pure [] <|> do
    let first ← rowValue
    let others ← star (do let _ ← mark .comma; rowValue)
    let _ ← opt (mark .comma)
    return first :: others

/-- A value that more may follow, with its comma. -/
def rowValueComma : Phrase (Spanned String × Spanned Literal) := do
  let value ← rowValue
  let _ ← mark .comma
  return value

/-- The end of a row, after the last value if it has no comma. -/
def rowEnd : Phrase (Option (Spanned String × Spanned Literal) × Span) := do
  let last ← opt rowValue
  return (last, ← mark .rbrace)

/-- Values with their commas, and a last value if it has none. -/
def rowValuesEnded : Phrase (List (Spanned String × Spanned Literal)) := do
  let values ← star rowValueComma
  let last ← opt rowValue
  return values ++ last.toList

theorem rowValuesEnded_iff {tokens : List (Spanned Token)} {values : List (Spanned String × Spanned Literal)} :
    rowValuesEnded tokens values ↔ ∃ front back init last, tokens = front ++ back
      ∧ Star rowValueComma front init ∧ opt rowValue back last ∧ values = init ++ last.toList := by
  constructor
  · rintro ⟨front, back, init, rfl, hinit, hback⟩
    obtain ⟨last, hlast, rfl⟩ := bind_pure_iff.mp hback
    exact ⟨front, back, init, last, rfl, hinit, hlast, rfl⟩
  · rintro ⟨front, back, init, last, rfl, hinit, hlast, rfl⟩
    exact ⟨front, back, init, rfl, hinit, bind_pure_iff.mpr ⟨last, hlast, rfl⟩⟩

theorem rowValues_iff {tokens : List (Spanned Token)} {values : List (Spanned String × Spanned Literal)} :
    rowValues tokens values ↔ tokens = [] ∧ values = []
      ∨ ∃ front back last value others comma, tokens = front ++ (back ++ last) ∧ rowValue front value
        ∧ Star (do let _ ← mark .comma; rowValue) back others ∧ opt (mark .comma) last comma
        ∧ values = value :: others := by
  constructor
  · rintro (⟨rfl, rfl⟩ | ⟨front, _, value, rfl, hvalue, back, last, others, rfl, hothers, hlast⟩)
    · exact Or.inl ⟨rfl, rfl⟩
    · obtain ⟨comma, hcomma, rfl⟩ := bind_pure_iff.mp hlast
      exact Or.inr ⟨front, back, last, value, others, comma, rfl, hvalue, hothers, hcomma, rfl⟩
  · rintro (⟨rfl, rfl⟩ | ⟨front, back, last, value, others, comma, rfl, hvalue, hothers, hcomma, rfl⟩)
    · exact Or.inl ⟨rfl, rfl⟩
    · exact Or.inr ⟨front, back ++ last, value, rfl, hvalue, back, last, others, rfl, hothers,
        bind_pure_iff.mpr ⟨comma, hcomma, rfl⟩⟩

theorem rowValueComma_iff {tokens : List (Spanned Token)} {value : Spanned String × Spanned Literal} :
    rowValueComma tokens value
      ↔ ∃ front span, tokens = front ++ [⟨.punctuation .comma, span⟩] ∧ rowValue front value := by
  constructor
  · rintro ⟨front, back, value, rfl, hvalue, hcomma⟩
    obtain ⟨span, _, rfl, rfl, rfl⟩ := exactly_bind_iff.mp hcomma
    exact ⟨front, span, rfl, hvalue⟩
  · rintro ⟨front, span, rfl, hvalue⟩
    exact ⟨front, _, value, rfl, hvalue, exactly_bind_iff.mpr ⟨span, [], rfl, rfl, rfl⟩⟩

theorem rowValuesEnded_of_star {front back last : List (Spanned Token)}
    {value : Spanned String × Spanned Literal} {others : List (Spanned String × Spanned Literal)}
    {comma : Option Span} (hvalue : rowValue front value)
    (hothers : Star (do let _ ← mark .comma; rowValue) back others) (hcomma : opt (mark .comma) last comma) :
    rowValuesEnded (front ++ (back ++ last)) (value :: others) := by
  induction hothers generalizing front value with
  | nil =>
    rcases opt_iff.mp hcomma with ⟨span, hmark, -⟩ | ⟨rfl, -⟩
    · obtain rfl := exactly_iff.mp hmark
      have hfront := rowValueComma_iff.mpr ⟨front, span, rfl, hvalue⟩
      exact rowValuesEnded_iff.mpr ⟨_, [], [value], none, by simp, .cons hfront .nil,
        opt_iff.mpr (Or.inr ⟨rfl, rfl⟩), rfl⟩
    · exact rowValuesEnded_iff.mpr ⟨[], front, [], some value, by simp, .nil,
        opt_iff.mpr (Or.inl ⟨value, hvalue, rfl⟩), rfl⟩
  | cons hnext _ ih =>
    obtain ⟨span, next, rfl, hvalue'⟩ := exactly_bind_iff.mp hnext
    obtain ⟨front', back', init, last', htokens, hinit, hlast, hvalues⟩ := rowValuesEnded_iff.mp (ih hvalue')
    have hfront := rowValueComma_iff.mpr ⟨front, span, rfl, hvalue⟩
    exact rowValuesEnded_iff.mpr ⟨_, back', value :: init, last', by simp [htokens], .cons hfront hinit, hlast,
      by simp [hvalues]⟩

theorem rowValues_of_star {front back : List (Spanned Token)}
    {init : List (Spanned String × Spanned Literal)} {last : Option (Spanned String × Spanned Literal)}
    (hinit : Star rowValueComma front init) (hlast : opt rowValue back last) :
    rowValues (front ++ back) (init ++ last.toList) := by
  induction hinit with
  | nil =>
    rcases opt_iff.mp hlast with ⟨value, hvalue, rfl⟩ | ⟨rfl, rfl⟩
    · exact rowValues_iff.mpr (Or.inr ⟨back, [], [], value, [], none, by simp, hvalue, .nil,
        opt_iff.mpr (Or.inr ⟨rfl, rfl⟩), rfl⟩)
    · exact rowValues_iff.mpr (Or.inl ⟨rfl, rfl⟩)
  | @cons _ rest value values hvalue _ ih =>
    obtain ⟨first, span, rfl, hfirst⟩ := rowValueComma_iff.mp hvalue
    rcases rowValues_iff.mp ih with ⟨hnil, hvalues⟩ | ⟨next, more, end', value', others, comma, htokens, hvalue',
      hothers, hcomma, hvalues⟩
    · exact rowValues_iff.mpr (Or.inr ⟨first, [], [⟨.punctuation .comma, span⟩], value, [], some span,
        by simp [hnil], hfirst, .nil, opt_iff.mpr (Or.inl ⟨span, exactly_iff.mpr rfl, rfl⟩), by simp [hvalues]⟩)
    · have hnext : (do let _ ← mark .comma; rowValue) (⟨.punctuation .comma, span⟩ :: next) value' :=
        exactly_bind_iff.mpr ⟨span, next, rfl, hvalue'⟩
      exact rowValues_iff.mpr (Or.inr ⟨first, _, end', value, value' :: others, comma, by simp [htokens],
        hfirst, .cons hnext hothers, hcomma, by simp [hvalues]⟩)

/-- Values separated by commas are values with their commas, and a last value if it has none. -/
theorem rowValues_eq : rowValues = rowValuesEnded := by
  refine ext fun tokens values => ?_
  constructor
  · intro h
    rcases rowValues_iff.mp h with ⟨rfl, rfl⟩ | ⟨front, back, last, value, others, comma, rfl, hvalue,
      hothers, hcomma, rfl⟩
    · exact rowValuesEnded_iff.mpr ⟨[], [], [], none, rfl, .nil, opt_iff.mpr (Or.inr ⟨rfl, rfl⟩), rfl⟩
    · exact rowValuesEnded_of_star hvalue hothers hcomma
  · intro h
    obtain ⟨front, back, init, last, rfl, hinit, hlast, rfl⟩ := rowValuesEnded_iff.mp h
    exact rowValues_of_star hinit hlast

/-- `Row { Field = value, ... }` -/
def row : Phrase Row := do
  let name ← ident
  let _ ← mark .lbrace
  let values ← rowValues
  let stop ← mark .rbrace
  return { name, values, span := name.span.merge stop }

/-! ### Classes -/

theorem field_startsWith : StartsWith field .field := ⟨_, rfl⟩

theorem association_startsWith : StartsWith association .ref := ⟨_, rfl⟩

theorem composition_startsWith : StartsWith composition .compose := ⟨_, rfl⟩

theorem aliasItem_startsWith : StartsWith aliasItem .alias := ⟨_, rfl⟩

inductive ClassItem where
  | trigram (name : Spanned String)
  | label (name : Spanned String)
  | key (name : Spanned String)
  | abstract
  | databaseOnly
  | property (declared : Property)
  | values (rows : List Row)
deriving DecidableEq

namespace ClassItem

def trigram? : ClassItem → Option (Spanned String)
  | trigram name => some name
  | _ => none

def label? : ClassItem → Option (Spanned String)
  | label name => some name
  | _ => none

def key? : ClassItem → Option (Spanned String)
  | key name => some name
  | _ => none

def property? : ClassItem → Option Property
  | property declared => some declared
  | _ => none

def rows : ClassItem → List Row
  | values rows => rows
  | _ => []

def addTo (klass : Class) : ClassItem → Class
  | trigram name => { klass with trigram := some name }
  | label name => { klass with label := some name }
  | key name => { klass with key := some name }
  | abstract => { klass with isAbstract := true }
  | databaseOnly => { klass with databaseOnly := true }
  | property declared => { klass with properties := klass.properties ++ [declared] }
  | values rows => { klass with rows := klass.rows ++ rows }

end ClassItem

def classItem : Phrase ClassItem :=
  (do let _ ← word .trigram; let name ← ident; semi; return .trigram name) <|>
  (do let _ ← word .label; let property ← ident; semi; return .label property) <|>
  (do let _ ← word .key; let property ← ident; semi; return .key property) <|>
  (do let _ ← word .abstract; semi; return .abstract) <|>
  (do let _ ← word .dbonly; semi; return .databaseOnly) <|>
  (do return .property (.field (← field))) <|>
  (do return .property (.association (← association))) <|>
  (do return .property (.composition (← composition))) <|>
  (do return .property (.alias (← aliasItem))) <|>
  (do
    let _ ← word .values
    let _ ← mark .lbrace
    let rows ← star row
    let _ ← mark .rbrace
    return .values rows)

def classOf (name : Spanned String) (parent : Option (Spanned String))
    (stereotype : Option (Spanned Stereotype)) (items : List ClassItem) (span : Span) : Class where
  name := name
  parent := parent
  stereotype := stereotype
  trigram := (items.filterMap ClassItem.trigram?).getLast?
  label := (items.filterMap ClassItem.label?).getLast?
  key := (items.filterMap ClassItem.key?).getLast?
  isAbstract := .abstract ∈ items
  databaseOnly := .databaseOnly ∈ items
  properties := items.filterMap ClassItem.property?
  rows := items.flatMap ClassItem.rows
  span := span

theorem classOf_append (name : Spanned String) (parent : Option (Spanned String))
    (stereotype : Option (Spanned Stereotype)) (items : List ClassItem) (item : ClassItem) (span : Span) :
    classOf name parent stereotype (items ++ [item]) span
      = item.addTo (classOf name parent stereotype items span) := by
  cases item <;>
    simp [classOf, ClassItem.addTo, ClassItem.trigram?, ClassItem.label?, ClassItem.key?, ClassItem.property?,
      ClassItem.rows]

/-- The trigram, the label property and the key property are each set once at most. -/
structure SetsOnce (items : List ClassItem) : Prop where
  trigram : (items.filterMap ClassItem.trigram?).length ≤ 1
  label : (items.filterMap ClassItem.label?).length ≤ 1
  key : (items.filterMap ClassItem.key?).length ≤ 1

theorem setsOnce_nil : SetsOnce [] := ⟨Nat.zero_le 1, Nat.zero_le 1, Nat.zero_le 1⟩

theorem setsOnce_of_append (items more : List ClassItem) (h : SetsOnce (items ++ more)) : SetsOnce items := by
  obtain ⟨htrigram, hlabel, hkey⟩ := h
  simp only [List.filterMap_append, List.length_append] at htrigram hlabel hkey
  exact ⟨Nat.le_of_add_right_le htrigram, Nat.le_of_add_right_le hlabel, Nat.le_of_add_right_le hkey⟩

theorem length_filterMap_append_of_none {α β : Type} {f : α → Option β} {items : List α} {item : α}
    (hitems : (items.filterMap f).length ≤ 1) (hitem : f item = none) :
    ((items ++ [item]).filterMap f).length ≤ 1 := by
  rw [List.filterMap_append, List.filterMap_cons_none hitem]
  simpa using hitems

theorem length_filterMap_append_of_some {α β : Type} {f : α → Option β} {items : List α} {item : α} {value : β}
    (hitem : f item = some value) : ((items ++ [item]).filterMap f).length ≤ 1
      ↔ ¬ (items.filterMap f).getLast?.isSome = true := by
  rw [List.filterMap_append, List.filterMap_cons_some hitem]
  rcases items.filterMap f with _ | ⟨first, rest⟩ <;> simp

theorem setsOnce_append_of_none {items : List ClassItem} (hitems : SetsOnce items) {item : ClassItem}
    (htrigram : item.trigram? = none) (hlabel : item.label? = none) (hkey : item.key? = none) :
    SetsOnce (items ++ [item]) where
  trigram := length_filterMap_append_of_none hitems.trigram htrigram
  label := length_filterMap_append_of_none hitems.label hlabel
  key := length_filterMap_append_of_none hitems.key hkey

theorem setsOnce_append_trigram {items : List ClassItem} (hitems : SetsOnce items) (name : Spanned String) :
    SetsOnce (items ++ [.trigram name])
      ↔ ¬ (items.filterMap ClassItem.trigram?).getLast?.isSome = true := by
  rw [← length_filterMap_append_of_some (rfl : (ClassItem.trigram name).trigram? = some name)]
  exact ⟨SetsOnce.trigram, fun h => ⟨h, length_filterMap_append_of_none hitems.label rfl,
    length_filterMap_append_of_none hitems.key rfl⟩⟩

theorem setsOnce_append_label {items : List ClassItem} (hitems : SetsOnce items) (name : Spanned String) :
    SetsOnce (items ++ [.label name]) ↔ ¬ (items.filterMap ClassItem.label?).getLast?.isSome = true := by
  rw [← length_filterMap_append_of_some (rfl : (ClassItem.label name).label? = some name)]
  exact ⟨SetsOnce.label, fun h => ⟨length_filterMap_append_of_none hitems.trigram rfl, h,
    length_filterMap_append_of_none hitems.key rfl⟩⟩

theorem setsOnce_append_key {items : List ClassItem} (hitems : SetsOnce items) (name : Spanned String) :
    SetsOnce (items ++ [.key name]) ↔ ¬ (items.filterMap ClassItem.key?).getLast?.isSome = true := by
  rw [← length_filterMap_append_of_some (rfl : (ClassItem.key name).key? = some name)]
  exact ⟨SetsOnce.key, fun h => ⟨length_filterMap_append_of_none hitems.trigram rfl,
    length_filterMap_append_of_none hitems.label rfl, h⟩⟩

def stereotype? : Token → Option Stereotype
  | .keyword .enum => some .enumeration
  | .keyword .reference => some .reference
  | .keyword .plain => some .plain
  | _ => none

/-- `class Name : Parent stereotype { ... }` -/
def klass : Phrase Class := do
  let start ← word .klass
  let name ← ident
  let parent ← opt (do let _ ← mark .colon; ident)
  let stereotype ← opt (one stereotype?)
  let _ ← mark .lbrace
  let items ← star classItem
  let stop ← mark .rbrace
  require (SetsOnce items)
  return classOf name parent stereotype items (start.merge stop)

/-! ### Files -/

theorem uses_startsWith : StartsWith uses .uses := ⟨_, rfl⟩

theorem domain_startsWith : StartsWith domain .domain := ⟨_, rfl⟩

theorem klass_startsWith : StartsWith klass .klass := ⟨_, rfl⟩

inductive Item where
  | uses (file : Spanned FileId)
  | domain (declared : Domain)
  | klass (declared : Class)

namespace Item

def uses? : Item → Option (Spanned FileId)
  | uses file => some file
  | _ => none

def domain? : Item → Option Domain
  | domain declared => some declared
  | _ => none

def class? : Item → Option Class
  | klass declared => some declared
  | _ => none

def addTo (file : File) : Item → File
  | uses used => { file with uses := file.uses ++ [used] }
  | domain declared => { file with domains := file.domains ++ [declared] }
  | klass declared => { file with classes := file.classes ++ [declared] }

end Item

def item : Phrase Item :=
  (do return .uses (← uses)) <|> (do return .domain (← domain)) <|> (do return .klass (← klass))

theorem item_not_nil (i : Item) : ¬ item [] i := by
  simp [item, uses_startsWith.bind_nil, domain_startsWith.bind_nil, klass_startsWith.bind_nil, either_iff]

def fileOf (items : List Item) : File where
  uses := items.filterMap Item.uses?
  domains := items.filterMap Item.domain?
  classes := items.filterMap Item.class?

theorem fileOf_append (items : List Item) (item : Item) :
    fileOf (items ++ [item]) = item.addTo (fileOf items) := by
  cases item <;> simp [fileOf, Item.addTo, Item.uses?, Item.domain?, Item.class?]

def file : Phrase File := do
  let items ← star item
  return fileOf items

end Grammar

end Declaration

end EntityModel
