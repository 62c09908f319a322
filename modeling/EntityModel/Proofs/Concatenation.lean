import EntityModel.Proofs.Fallible
import EntityModel.Proofs.Junction
import EntityModel.Proofs.Parser

/-!
# Model files that follow one another

No production of the grammar looks at where its tokens are, and none looks beyond its last token. So tokens
further on form the same phrase, whose spans are as far further on (`Phrase.Moves`), and the declarations of two
texts with a line feed between them are those of the first and behind them those of the second
(`parse_append_newline`).
-/

namespace EntityModel

/-! ### Syntax trees further on -/

namespace Declaration

variable (bytes : Nat)

/-- The domain with its spans some bytes further on. -/
def Domain.shift (d : Domain) : Domain :=
  { d with
    name := d.name.shift bytes
    mappings := d.mappings.map fun mapping => (mapping.1.shift bytes, mapping.2)
    span := d.span.shift bytes }

def Field.shift (p : Field) : Field :=
  { p with
    name := p.name.shift bytes
    domain := p.domain.shift bytes
    default := p.default.map (Spanned.shift bytes)
    span := p.span.shift bytes }

def Association.shift (p : Association) : Association :=
  { p with name := p.name.shift bytes, target := p.target.shift bytes, span := p.span.shift bytes }

def Composition.shift (p : Composition) : Composition :=
  { p with name := p.name.shift bytes, target := p.target.shift bytes, span := p.span.shift bytes }

def Alias.shift (p : Alias) : Alias := { p with token := p.token.shift bytes, span := p.span.shift bytes }

def Property.shift : Property → Property
  | field p => field (p.shift bytes)
  | association p => association (p.shift bytes)
  | composition p => composition (p.shift bytes)
  | .alias p => .alias (p.shift bytes)

def Row.shiftValue (value : Spanned String × Spanned Literal) : Spanned String × Spanned Literal :=
  (value.1.shift bytes, value.2.shift bytes)

def Row.shift (r : Row) : Row where
  name := r.name.shift bytes
  values := r.values.map (shiftValue bytes)
  span := r.span.shift bytes

def Class.shift (c : Class) : Class :=
  { c with
    name := c.name.shift bytes
    parent := c.parent.map (Spanned.shift bytes)
    stereotype := c.stereotype.map (Spanned.shift bytes)
    trigram := c.trigram.map (Spanned.shift bytes)
    label := c.label.map (Spanned.shift bytes)
    key := c.key.map (Spanned.shift bytes)
    properties := c.properties.map (Property.shift bytes)
    rows := c.rows.map (Row.shift bytes)
    span := c.span.shift bytes }

namespace File

def shift (f : File) : File where
  uses := f.uses.map (Spanned.shift bytes)
  domains := f.domains.map (Domain.shift bytes)
  classes := f.classes.map (Class.shift bytes)

/-- The declarations of a file and then those of another. -/
def append (first last : File) : File where
  uses := first.uses ++ last.uses
  domains := first.domains ++ last.domains
  classes := first.classes ++ last.classes

instance : Append File := ⟨append⟩

end File

end Declaration

/-! ### Phrases further on -/

namespace Phrase

variable {α β : Type} {bytes : Nat}

/-- What tokens form, they form further on in another phrase, with what it says moved. -/
def Moves (bytes : Nat) (move : α → α) (p q : Phrase α) : Prop :=
  ∀ tokens a, p tokens a → q (tokens.map (Spanned.shift bytes)) (move a)

variable {move : α → α} {moveResult : β → β} {p q : Phrase α}

theorem moves_pure {a b : α} (h : move a = b) : Moves bytes move (pure a) (pure b) := by
  rintro _ _ ⟨rfl, rfl⟩
  exact ⟨rfl, h⟩

theorem Moves.bind (hp : Moves bytes move p q) {f g : α → Phrase β}
    (hf : ∀ a, Moves bytes moveResult (f a) (g (move a))) : Moves bytes moveResult (p >>= f) (q >>= g) := by
  rintro _ b ⟨first, rest, a, rfl, hfirst, hrest⟩
  exact ⟨_, _, move a, List.map_append, hp _ _ hfirst, hf a _ _ hrest⟩

theorem Moves.either {p' q' : Phrase α} (hp : Moves bytes move p q) (hp' : Moves bytes move p' q') :
    Moves bytes move (p <|> p') (q <|> q') := by
  intro tokens a h
  exact h.imp (hp tokens a) (hp' tokens a)

theorem moves_require {c d : Prop} (h : c → d) : Moves bytes id (require c) (require d) := by
  rintro _ _ ⟨rfl, hc⟩
  exact ⟨rfl, h hc⟩

theorem Moves.star (hp : Moves bytes move p q) : Moves bytes (List.map move) (star p) (star q) := by
  intro tokens items h
  induction h with
  | nil => exact .nil
  | cons hfirst _ ih =>
    rw [List.map_append, List.map_cons]
    exact .cons (hp _ _ hfirst) ih

theorem Star.append {first last : List (Spanned Token)} {as bs : List α} (h : Star p first as)
    (h' : Star p last bs) : Star p (first ++ last) (as ++ bs) := by
  induction h with
  | nil => exact h'
  | cons hfirst _ ih =>
    rw [List.append_assoc]
    exact .cons hfirst ih

theorem Moves.opt (hp : Moves bytes move p q) : Moves bytes (Option.map move) (opt p) (opt q) :=
  .either (hp.bind fun _ => moves_pure rfl) (moves_pure rfl)

theorem moves_one (accept : Token → Option α) : Moves bytes (Spanned.shift bytes) (one accept) (one accept) := by
  rintro _ a ⟨token, rfl, haccept, hspan⟩
  exact ⟨token.shift bytes, rfl, haccept, congrArg (Span.shift bytes) hspan⟩

theorem moves_value {accept : Token → Option α} :
    Moves bytes id (do return (← one accept).value) (do return (← one accept).value) :=
  (moves_one accept).bind fun _ => moves_pure rfl

theorem moves_exactly (expected : Token) : Moves bytes (Span.shift bytes) (exactly expected) (exactly expected) :=
  (moves_one _).bind fun _ => moves_pure rfl

theorem moves_semi : Moves bytes id semi semi := (moves_exactly _).bind fun _ => moves_pure rfl

end Phrase

namespace Declaration

def Modifier.shift (bytes : Nat) : Modifier → Modifier
  | default value => default (value.shift bytes)
  | m => m

namespace Grammar

open Phrase

variable {bytes : Nat}

/-! ### What items come to -/

theorem filterMap_map_of_same {ι β : Type} {f : ι → Option β} {move : ι → ι} (h : ∀ i, f (move i) = f i)
    (items : List ι) : (items.map move).filterMap f = items.filterMap f := by
  rw [List.filterMap_map, Function.comp_def]
  simp only [h]

theorem filterMap_map_of_moved {ι β : Type} {f : ι → Option β} {move : ι → ι} {moveResult : β → β}
    (h : ∀ i, f (move i) = (f i).map moveResult) (items : List ι) :
    (items.map move).filterMap f = (items.filterMap f).map moveResult := by
  rw [List.filterMap_map, List.map_filterMap, Function.comp_def]
  simp only [h]

theorem mem_map_of_fixed {ι : Type} {i : ι} {move : ι → ι} (h : ∀ j, move j = i ↔ j = i) (items : List ι) :
    i ∈ items.map move ↔ i ∈ items := by
  simp [List.mem_map, h]

def DomainItem.shift (bytes : Nat) : DomainItem → DomainItem
  | map target type => map (target.shift bytes) type
  | item => item

theorem mapping?_shift (item : DomainItem) : (item.shift bytes).mapping?
    = item.mapping?.map fun mapping => (mapping.1.shift bytes, mapping.2) := by
  cases item <;> rfl

theorem domainOf_shift (name : Spanned String) (items : List DomainItem) (span : Span) :
    (domainOf name items span).shift bytes
      = domainOf (name.shift bytes) (items.map (DomainItem.shift bytes)) (span.shift bytes) := by
  have hlabel (item : DomainItem) : (item.shift bytes).label? = item.label? := by cases item <;> rfl
  have hlength (item : DomainItem) : (item.shift bytes).length? = item.length? := by cases item <;> rfl
  have hscale (item : DomainItem) : (item.shift bytes).scale? = item.scale? := by cases item <;> rfl
  simp only [domainOf, Domain.shift, filterMap_map_of_same hlabel, filterMap_map_of_same hlength,
    filterMap_map_of_same hscale, filterMap_map_of_moved mapping?_shift]

theorem MapsOnce.shift {items : List DomainItem} (h : MapsOnce items) :
    MapsOnce (items.map (DomainItem.shift bytes)) := by
  rw [MapsOnce, filterMap_map_of_moved mapping?_shift, List.map_map]
  exact h

theorem mem_modifiers_shift {m : Modifier} (h : ∀ value, m ≠ .default value) (written : List Modifier) :
    m ∈ written.map (Modifier.shift bytes) ↔ m ∈ written := by
  refine mem_map_of_fixed (fun n => ?_) written
  cases n with
  | default value => exact iff_of_false (fun heq => h _ heq.symm) fun heq => h _ heq.symm
  | _ => exact Iff.rfl

theorem default?_shift (m : Modifier) : default? (m.shift bytes) = (default? m).map (Spanned.shift bytes) := by
  cases m <;> rfl

theorem label?_shift (m : Modifier) : label? (m.shift bytes) = label? m := by
  cases m <;> rfl

theorem column?_shift (m : Modifier) : column? (m.shift bytes) = column? m := by
  cases m <;> rfl

theorem role?_shift (m : Modifier) : role? (m.shift bytes) = role? m := by
  cases m <;> rfl

theorem accepts_shift (kind : PropertyKind) (m : Modifier) : Accepts kind (m.shift bytes) ↔ Accepts kind m := by
  cases m <;> rfl

theorem fieldOf_shift (name domain : Spanned String) (span : Span) (written : List Modifier) :
    (fieldOf name domain span written).shift bytes
      = fieldOf (name.shift bytes) (domain.shift bytes) (span.shift bytes) (written.map (Modifier.shift bytes)) := by
  simp [fieldOf, Field.shift, mem_modifiers_shift, filterMap_map_of_moved default?_shift,
    filterMap_map_of_same label?_shift, filterMap_map_of_same column?_shift]

theorem associationOf_shift (name target : Spanned String) (span : Span) (written : List Modifier) :
    (associationOf name target span written).shift bytes
      = associationOf (name.shift bytes) (target.shift bytes) (span.shift bytes)
          (written.map (Modifier.shift bytes)) := by
  simp [associationOf, Association.shift, mem_modifiers_shift, filterMap_map_of_same label?_shift,
    filterMap_map_of_same role?_shift]

theorem compositionOf_shift (name target : Spanned String) (multiplicity : Option (Spanned Multiplicity))
    (span : Span) (written : List Modifier) :
    (compositionOf name target multiplicity span written).shift bytes
      = compositionOf (name.shift bytes) (target.shift bytes) (multiplicity.map (Spanned.shift bytes))
          (span.shift bytes) (written.map (Modifier.shift bytes)) := by
  simp [compositionOf, Composition.shift, filterMap_map_of_same label?_shift, Function.comp_def]

theorem aliasOf_shift (token : Spanned String) (span : Span) (written : List Modifier) :
    (aliasOf token span written).shift bytes
      = aliasOf (token.shift bytes) (span.shift bytes) (written.map (Modifier.shift bytes)) := by
  simp [aliasOf, Alias.shift, filterMap_map_of_same label?_shift]

def ClassItem.shift (bytes : Nat) : ClassItem → ClassItem
  | trigram name => trigram (name.shift bytes)
  | label name => label (name.shift bytes)
  | key name => key (name.shift bytes)
  | property declared => property (declared.shift bytes)
  | values rows => values (rows.map (Row.shift bytes))
  | item => item

theorem trigram?_shift (item : ClassItem) :
    (item.shift bytes).trigram? = item.trigram?.map (Spanned.shift bytes) := by
  cases item <;> rfl

theorem classLabel?_shift (item : ClassItem) :
    (item.shift bytes).label? = item.label?.map (Spanned.shift bytes) := by
  cases item <;> rfl

theorem key?_shift (item : ClassItem) : (item.shift bytes).key? = item.key?.map (Spanned.shift bytes) := by
  cases item <;> rfl

theorem property?_shift (item : ClassItem) :
    (item.shift bytes).property? = item.property?.map (Property.shift bytes) := by
  cases item <;> rfl

theorem rows_shift (item : ClassItem) : (item.shift bytes).rows = item.rows.map (Row.shift bytes) := by
  cases item <;> rfl

theorem classOf_shift (name : Spanned String) (parent : Option (Spanned String))
    (stereotype : Option (Spanned Stereotype)) (items : List ClassItem) (span : Span) :
    (classOf name parent stereotype items span).shift bytes
      = classOf (name.shift bytes) (parent.map (Spanned.shift bytes)) (stereotype.map (Spanned.shift bytes))
          (items.map (ClassItem.shift bytes)) (span.shift bytes) := by
  have habstract (item : ClassItem) : item.shift bytes = .abstract ↔ item = .abstract := by
    cases item <;> simp [ClassItem.shift]
  have hdatabase (item : ClassItem) : item.shift bytes = .databaseOnly ↔ item = .databaseOnly := by
    cases item <;> simp [ClassItem.shift]
  simp only [classOf, Class.shift, mem_map_of_fixed habstract, mem_map_of_fixed hdatabase, List.getLast?_map,
    filterMap_map_of_moved trigram?_shift, filterMap_map_of_moved classLabel?_shift,
    filterMap_map_of_moved key?_shift, filterMap_map_of_moved property?_shift, List.flatMap_map, rows_shift,
    List.map_flatMap]

theorem SetsOnce.shift {items : List ClassItem} (h : SetsOnce items) :
    SetsOnce (items.map (ClassItem.shift bytes)) where
  trigram := by simpa only [filterMap_map_of_moved trigram?_shift, List.length_map] using h.trigram
  label := by simpa only [filterMap_map_of_moved classLabel?_shift, List.length_map] using h.label
  key := by simpa only [filterMap_map_of_moved key?_shift, List.length_map] using h.key

def Item.shift (bytes : Nat) : Item → Item
  | uses file => uses (file.shift bytes)
  | domain declared => domain (declared.shift bytes)
  | klass declared => klass (declared.shift bytes)

theorem fileOf_shift (items : List Item) :
    (fileOf items).shift bytes = fileOf (items.map (Item.shift bytes)) := by
  have huses (item : Item) : (item.shift bytes).uses? = item.uses?.map (Spanned.shift bytes) := by
    cases item <;> rfl
  have hdomain (item : Item) : (item.shift bytes).domain? = item.domain?.map (Domain.shift bytes) := by
    cases item <;> rfl
  have hclass (item : Item) : (item.shift bytes).class? = item.class?.map (Class.shift bytes) := by
    cases item <;> rfl
  simp only [fileOf, File.shift, filterMap_map_of_moved huses, filterMap_map_of_moved hdomain,
    filterMap_map_of_moved hclass]

/-! ### Productions further on -/

theorem moves_uses : Moves bytes (Spanned.shift bytes) uses uses := by
  refine (moves_exactly _).bind fun start => (moves_one _).bind fun module => (moves_exactly _).bind fun _ => ?_
  refine (moves_one _).bind fun kind => (moves_exactly _).bind fun _ => (moves_one _).bind fun name => ?_
  exact moves_semi.bind fun _ => moves_pure (congrArg (Spanned.mk _) (Span.merge_shift bytes start name.span).symm)

theorem moves_domainItem : Moves bytes (DomainItem.shift bytes) domainItem domainItem := by
  refine .either ?_ (.either ?_ (.either ?_ ?_))
  · exact (moves_exactly _).bind fun _ => moves_value.bind fun _ => moves_semi.bind fun _ => moves_pure rfl
  · exact (moves_exactly _).bind fun _ => moves_value.bind fun _ => moves_semi.bind fun _ => moves_pure rfl
  · exact (moves_exactly _).bind fun _ => moves_value.bind fun _ => moves_semi.bind fun _ => moves_pure rfl
  · refine (moves_exactly _).bind fun _ => (moves_one _).bind fun target => (moves_exactly _).bind fun _ => ?_
    exact moves_value.bind fun type => moves_semi.bind fun _ => moves_pure rfl

theorem moves_domain : Moves bytes (Domain.shift bytes) domain domain := by
  refine (moves_exactly _).bind fun start => (moves_one _).bind fun name => (moves_exactly _).bind fun _ => ?_
  refine moves_domainItem.star.bind fun items => (moves_exactly _).bind fun stop => ?_
  refine (moves_require MapsOnce.shift).bind fun _ => moves_pure ?_
  rw [domainOf_shift, Span.merge_shift]

theorem moves_modifier : Moves bytes (fun m => ⟨m.value.shift bytes, m.span.shift bytes⟩) modifier modifier := by
  refine .either ?_ (.either ?_ (.either ?_ (.either ?_ (.either ?_ (.either ?_ (.either ?_ ?_))))))
  · exact (moves_exactly _).bind fun _ => moves_pure rfl
  · exact (moves_exactly _).bind fun _ => moves_pure rfl
  · exact (moves_exactly _).bind fun _ => moves_pure rfl
  · exact (moves_exactly _).bind fun _ => moves_pure rfl
  · exact (moves_exactly _).bind fun _ => (moves_one _).bind fun _ => moves_pure rfl
  · exact (moves_exactly _).bind fun _ => moves_value.bind fun _ => moves_pure rfl
  · exact (moves_exactly _).bind fun _ => moves_value.bind fun _ => moves_pure rfl
  · exact (moves_exactly _).bind fun _ => moves_value.bind fun _ => moves_pure rfl

theorem moves_modifiers (kind : PropertyKind) :
    Moves bytes (fun parsed => (parsed.1.map (Modifier.shift bytes), parsed.2.shift bytes)) (modifiers kind)
      (modifiers kind) := by
  refine moves_modifier.star.bind fun written => (moves_exactly _).bind fun stop => ?_
  refine (moves_require fun h => ?_).bind fun _ => moves_pure ?_
  · simpa only [List.forall_mem_map, accepts_shift] using h
  · simp [Function.comp_def]

theorem moves_field : Moves bytes (Field.shift bytes) field field := by
  refine (moves_exactly _).bind fun start => (moves_one _).bind fun name => (moves_exactly _).bind fun _ => ?_
  refine (moves_one _).bind fun domain => (moves_modifiers _).bind fun (written, stop) => moves_pure ?_
  rw [fieldOf_shift, Span.merge_shift]

theorem moves_association : Moves bytes (Association.shift bytes) association association := by
  refine (moves_exactly _).bind fun start => (moves_one _).bind fun name => (moves_exactly _).bind fun _ => ?_
  refine (moves_one _).bind fun target => (moves_modifiers _).bind fun (written, stop) => moves_pure ?_
  rw [associationOf_shift, Span.merge_shift]

theorem moves_composition : Moves bytes (Composition.shift bytes) composition composition := by
  refine (moves_exactly _).bind fun start => (moves_one _).bind fun name => (moves_exactly _).bind fun _ => ?_
  refine (moves_one _).bind fun target => (moves_one _).opt.bind fun multiplicity => ?_
  refine (moves_modifiers _).bind fun (written, stop) => moves_pure ?_
  rw [compositionOf_shift, Span.merge_shift]

theorem moves_aliasItem : Moves bytes (Alias.shift bytes) aliasItem aliasItem := by
  refine (moves_exactly _).bind fun start => (moves_one _).bind fun token => ?_
  refine (moves_modifiers _).bind fun (written, stop) => moves_pure ?_
  rw [aliasOf_shift, Span.merge_shift]

theorem moves_rowValue : Moves bytes (Row.shiftValue bytes) rowValue rowValue :=
  (moves_one _).bind fun _ => (moves_exactly _).bind fun _ => (moves_one _).bind fun _ => moves_pure rfl

theorem moves_rowValues : Moves bytes (List.map (Row.shiftValue bytes)) rowValues rowValues := by
  refine .either (moves_pure rfl) (moves_rowValue.bind fun first => ?_)
  refine ((moves_exactly _).bind fun _ => moves_rowValue).star.bind fun others => ?_
  exact (moves_exactly _).opt.bind fun _ => moves_pure rfl

theorem moves_row : Moves bytes (Row.shift bytes) row row := by
  refine (moves_one _).bind fun name => (moves_exactly _).bind fun _ => moves_rowValues.bind fun values => ?_
  refine (moves_exactly _).bind fun stop => moves_pure ?_
  simp only [Row.shift, Spanned.span_shift, Span.merge_shift]

theorem moves_classItem : Moves bytes (ClassItem.shift bytes) classItem classItem := by
  refine .either ?_ (.either ?_ (.either ?_ (.either ?_ (.either ?_ (.either ?_ (.either ?_ (.either ?_
    (.either ?_ ?_))))))))
  · exact (moves_exactly _).bind fun _ => (moves_one _).bind fun _ => moves_semi.bind fun _ => moves_pure rfl
  · exact (moves_exactly _).bind fun _ => (moves_one _).bind fun _ => moves_semi.bind fun _ => moves_pure rfl
  · exact (moves_exactly _).bind fun _ => (moves_one _).bind fun _ => moves_semi.bind fun _ => moves_pure rfl
  · exact (moves_exactly _).bind fun _ => moves_semi.bind fun _ => moves_pure rfl
  · exact (moves_exactly _).bind fun _ => moves_semi.bind fun _ => moves_pure rfl
  · exact moves_field.bind fun _ => moves_pure rfl
  · exact moves_association.bind fun _ => moves_pure rfl
  · exact moves_composition.bind fun _ => moves_pure rfl
  · exact moves_aliasItem.bind fun _ => moves_pure rfl
  · refine (moves_exactly _).bind fun _ => (moves_exactly _).bind fun _ => moves_row.star.bind fun rows => ?_
    exact (moves_exactly _).bind fun _ => moves_pure rfl

theorem moves_klass : Moves bytes (Class.shift bytes) klass klass := by
  refine (moves_exactly _).bind fun start => (moves_one _).bind fun name => ?_
  refine ((moves_exactly _).bind fun _ => moves_one _).opt.bind fun parent => ?_
  refine (moves_one _).opt.bind fun stereotype => (moves_exactly _).bind fun _ => ?_
  refine moves_classItem.star.bind fun items => (moves_exactly _).bind fun stop => ?_
  refine (moves_require SetsOnce.shift).bind fun _ => moves_pure ?_
  rw [classOf_shift, Span.merge_shift]

theorem moves_item : Moves bytes (Item.shift bytes) item item := by
  refine .either ?_ (.either ?_ ?_)
  · exact moves_uses.bind fun _ => moves_pure rfl
  · exact moves_domain.bind fun _ => moves_pure rfl
  · exact moves_klass.bind fun _ => moves_pure rfl

theorem fileOf_append_items (items more : List Item) : fileOf (items ++ more) = fileOf items ++ fileOf more := by
  simp only [fileOf, List.filterMap_append]
  rfl

end Grammar

/-! ### Two texts -/

theorem parse_eq_ok_iff_items (text : String) (file : File) : File.parse text = .ok file
    ↔ ∃ tokens items, Lexeme.scan text = tokens.map Lexeme.token ∧ Phrase.Star Grammar.item tokens items
      ∧ file = Grammar.fileOf items :=
  @parseItems_eq_ok text.utf8ByteSize [] (Lexeme.scan text) file

/-- **Concatenation.** Two texts that are parsed are parsed with a line feed between them, and what the parse
yields is the declarations of the first and then those of the second, whose spans are further on by the bytes of
the first and the line feed. -/
theorem parse_append_newline {first last : String} {a b : File} (ha : File.parse first = .ok a)
    (hb : File.parse last = .ok b) :
    File.parse (first ++ "\n" ++ last) = .ok (a ++ b.shift (first.utf8ByteSize + 1)) := by
  obtain ⟨tokens, items, hscan, hitems, rfl⟩ := (parse_eq_ok_iff_items first a).mp ha
  obtain ⟨tokens', items', hscan', hitems', rfl⟩ := (parse_eq_ok_iff_items last b).mp hb
  have hread : ∀ piece, Lexeme.unreadable piece ∉ Lexeme.scan first := (Lexeme.eq_map_token_iff.mp hscan).1
  rw [parse_eq_ok_iff_items]
  generalize hbytes : first.utf8ByteSize + 1 = bytes
  refine ⟨tokens ++ tokens'.map (Spanned.shift bytes), items ++ items'.map (Grammar.Item.shift bytes), ?_, ?_, ?_⟩
  · rw [Lexeme.scan_append_newline hread, hbytes, hscan, hscan', List.map_append, List.map_map, List.map_map]
    rfl
  · exact hitems.append (Grammar.moves_item.star _ _ hitems')
  · rw [Grammar.fileOf_append_items, Grammar.fileOf_shift]

/-- A use, and behind it a domain and a class that end without a blank. -/
theorem parse_append_newline_domain :
    File.parse ("uses App::Data::Base;" ++ "\n" ++ "domain DO_ID \x7b length 4; \x7d class A \x7b \x7d")
      = .ok {
        uses := [⟨⟨"App", "Data", "Base"⟩, ⟨0, 20⟩⟩]
        domains := [{ name := ⟨"DO_ID", ⟨29, 34⟩⟩, length := some 4, span := ⟨22, 48⟩ }]
        classes := [{ name := ⟨"A", ⟨55, 56⟩⟩, span := ⟨49, 60⟩ }] } :=
  parse_append_newline
    (a := { uses := [⟨⟨"App", "Data", "Base"⟩, ⟨0, 20⟩⟩] })
    (b := {
      domains := [{ name := ⟨"DO_ID", ⟨7, 12⟩⟩, length := some 4, span := ⟨0, 26⟩ }]
      classes := [{ name := ⟨"A", ⟨33, 34⟩⟩, span := ⟨27, 38⟩ }] })
    (eq_ok_of_toOption (by decide +kernel)) (eq_ok_of_toOption (by decide +kernel))

end Declaration

end EntityModel
