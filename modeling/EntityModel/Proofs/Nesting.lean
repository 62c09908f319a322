import EntityModel.Proofs.Concatenation

/-!
# What is written inside a class

The tokens of a text stand one behind another, and the span of a class goes from its first token to its last. All
spans that a class holds are those of its tokens or merged from them (`Phrase.Ensures`), so that each lies within the
span of the class (`within_of_parse`).
-/

namespace EntityModel

/-! ### Spans within a span -/

namespace Span

/-- A span lies within another. -/
structure Within (s outer : Span) : Prop where
  start : outer.start ≤ s.start
  stop : s.stop ≤ outer.stop

theorem Within.merge {a b outer : Span} (ha : a.Within outer) (hb : b.Within outer) : (a.merge b).Within outer :=
  ⟨Nat.le_min.mpr ⟨ha.start, hb.start⟩, Nat.max_le.mpr ⟨ha.stop, hb.stop⟩⟩

/-- All of some spans lie within another. -/
def Covers (outer : Span) (spans : List Span) : Prop := ∀ s ∈ spans, s.Within outer

section covers

variable {outer s : Span} {first last : List Span} {α : Type}

theorem covers_nil : outer.Covers [] := fun _ h => absurd h List.not_mem_nil

theorem Covers.cons (hs : s.Within outer) (h : outer.Covers last) : outer.Covers (s :: last) :=
  List.forall_mem_cons.mpr ⟨hs, h⟩

theorem Covers.append (h : outer.Covers first) (h' : outer.Covers last) : outer.Covers (first ++ last) :=
  List.forall_mem_append.mpr ⟨h, h'⟩

theorem covers_flatMap {items : List α} {f : α → List Span} (h : ∀ a ∈ items, outer.Covers (f a)) :
    outer.Covers (items.flatMap f) := by
  intro s hs
  obtain ⟨a, ha, hs⟩ := List.mem_flatMap.mp hs
  exact h a ha s hs

theorem covers_optional {written : Option (Spanned α)} (h : ∀ a ∈ written, a.span.Within outer) :
    outer.Covers (written.toList.map Spanned.span) :=
  List.forall_mem_map.mpr fun a ha => h a (Option.mem_toList.mp ha)

end covers

/-- Spans that stand one behind another. -/
structure Aligned (spans : List Span) : Prop where
  upright : ∀ s ∈ spans, s.start ≤ s.stop
  apart : spans.Pairwise fun a b => a.stop ≤ b.start

theorem aligned_nil : Aligned [] := ⟨fun _ h => absurd h List.not_mem_nil, .nil⟩

theorem Aligned.cons {s : Span} {spans : List Span} (h : Aligned spans) (hs : s.start ≤ s.stop)
    (hbehind : ∀ t ∈ spans, s.stop ≤ t.start) : Aligned (s :: spans) :=
  ⟨List.forall_mem_cons.mpr ⟨hs, h.upright⟩, List.pairwise_cons.mpr ⟨hbehind, h.apart⟩⟩

theorem Aligned.sublist {spans part : List Span} (h : Aligned spans) (hpart : part.Sublist spans) : Aligned part :=
  ⟨fun s hs => h.upright s (hpart.mem hs), h.apart.sublist hpart⟩

theorem Aligned.covers {first last : Span} {between : List Span} (h : Aligned (first :: (between ++ [last]))) :
    (first.merge last).Covers (first :: (between ++ [last])) := by
  intro s hs
  obtain ⟨hfirst, hrest⟩ := List.pairwise_cons.mp h.apart
  have hlast := (List.pairwise_append.mp hrest).2.2
  have hstart : first.start ≤ s.start := by
    rcases List.mem_cons.mp hs with rfl | hs
    · exact Nat.le_refl _
    · exact Nat.le_trans (h.upright first List.mem_cons_self) (hfirst s hs)
  have hstop : s.stop ≤ last.stop := by
    have hupright := h.upright last (List.mem_cons_of_mem _ (List.mem_append_right _ List.mem_cons_self))
    rcases List.mem_cons.mp hs with rfl | hs
    · exact Nat.le_trans (hfirst last (List.mem_append_right _ List.mem_cons_self)) hupright
    · rcases List.mem_append.mp hs with hs | hs
      · exact Nat.le_trans (hlast s hs last List.mem_cons_self) hupright
      · exact Nat.le_of_eq (congrArg stop (List.mem_singleton.mp hs))
  exact ⟨Nat.le_trans (Nat.min_le_left _ _) hstart, Nat.le_trans hstop (Nat.le_max_right _ _)⟩

end Span

/-! ### Spans of lexemes -/

namespace Lexeme

def span : Lexeme → Span
  | token t => t.span
  | unreadable piece => piece.span

theorem span_of_ofPiece? {piece : Piece} {text : List Char} {s : Span} {l : Lexeme}
    (h : ofPiece? piece text s = some l) : l.span = s := by
  cases piece with
  | gap => cases h
  | token t => cases h; rfl
  | unreadable => cases h; rfl

theorem aligned_scanFrom (start : Nat) (text : List Char) :
    Span.Aligned ((scanFrom start text).map span) ∧ ∀ s ∈ (scanFrom start text).map span, start ≤ s.start := by
  obtain ⟨n, hn⟩ : ∃ n, text.length = n := ⟨_, rfl⟩
  induction n using Nat.strongRecOn generalizing start text with
  | ind n ih =>
    rcases text with _ | ⟨c, text⟩
    · rw [scanFrom]
      exact ⟨Span.aligned_nil, fun _ h => absurd h List.not_mem_nil⟩
    · have hlt : (text.drop (Piece.first c text).2).length < n := by
        rw [← hn, List.length_cons]
        exact Nat.lt_succ_of_le (List.drop_sublist _ _).length_le
      obtain ⟨stop, hstop⟩ : ∃ stop, start + byteLength (c :: text.take (Piece.first c text).2) = stop := ⟨_, rfl⟩
      have hle : start ≤ stop := hstop ▸ Nat.le_add_right _ _
      obtain ⟨hrest, hbehind⟩ := ih _ hlt stop _ rfl
      rw [scanFrom_cons, hstop, List.map_append]
      rcases hpiece : ofPiece? (Piece.first c text).1 (c :: text.take (Piece.first c text).2) ⟨start, stop⟩
        with _ | l
      · exact ⟨hrest, fun s hs => Nat.le_trans hle (hbehind s hs)⟩
      · have hspan : l.span = ⟨start, stop⟩ := span_of_ofPiece? hpiece
        rw [Option.toList_some, List.map_singleton, List.singleton_append, hspan]
        refine ⟨hrest.cons hle hbehind, List.forall_mem_cons.mpr ⟨Nat.le_refl _, fun s hs => ?_⟩⟩
        exact Nat.le_trans hle (hbehind s hs)

theorem aligned_scan {text : String} {tokens : List (Spanned Token)} (h : scan text = tokens.map token) :
    Span.Aligned (tokens.map Spanned.span) := by
  have haligned := (aligned_scanFrom 0 text.toList).1
  rw [show scanFrom 0 text.toList = tokens.map token from h, List.map_map] at haligned
  exact haligned

end Lexeme

/-! ### What phrases ensure -/

namespace Phrase

variable {α β : Type}

/-- Whatever tokens of a kind form a phrase, what it says is so. -/
def Ensures (kind : Spanned Token → Prop) (p : Phrase α) (holds : α → Prop) : Prop :=
  ∀ tokens a, p tokens a → (∀ t ∈ tokens, kind t) → holds a

variable {kind : Spanned Token → Prop} {p q : Phrase α} {f : α → Phrase β} {holds : α → Prop} {result : β → Prop}

theorem ensures_pure {a : α} (h : holds a) : Ensures kind (pure a) holds := by
  rintro _ _ ⟨rfl, rfl⟩ _
  exact h

theorem Ensures.bind (hp : Ensures kind p holds) (hf : ∀ a, holds a → Ensures kind (f a) result) :
    Ensures kind (p >>= f) result := by
  rintro _ b ⟨first, rest, a, rfl, hfirst, hrest⟩ hall
  obtain ⟨hleft, hright⟩ := List.forall_mem_append.mp hall
  exact hf a (hp first a hfirst hleft) rest b hrest hright

theorem Ensures.behind (hf : ∀ a, Ensures kind (f a) result) : Ensures kind (p >>= f) result := by
  rintro _ b ⟨first, rest, a, rfl, -, hrest⟩ hall
  exact hf a rest b hrest (List.forall_mem_append.mp hall).2

theorem Ensures.either (hp : Ensures kind p holds) (hq : Ensures kind q holds) : Ensures kind (p <|> q) holds :=
  fun tokens a h => h.elim (hp tokens a) (hq tokens a)

theorem Ensures.star (hp : Ensures kind p holds) : Ensures kind (star p) fun as => ∀ a ∈ as, holds a := by
  intro tokens as h
  induction h with
  | nil => exact fun _ _ h => absurd h List.not_mem_nil
  | cons hfirst _ ih =>
    intro hall
    obtain ⟨hleft, hright⟩ := List.forall_mem_append.mp hall
    exact List.forall_mem_cons.mpr ⟨hp _ _ hfirst hleft, ih hright⟩

theorem Ensures.opt (hp : Ensures kind p holds) : Ensures kind (opt p) fun found => ∀ a ∈ found, holds a := by
  refine .either (hp.bind fun a ha => ensures_pure fun b hb => ?_) (ensures_pure fun b hb => ?_)
  · exact Option.some.inj hb ▸ ha
  · cases hb

variable {outer : Span}

theorem ensures_one (accept : Token → Option α) :
    Ensures (·.span.Within outer) (one accept) (·.span.Within outer) := by
  rintro _ a ⟨token, rfl, -, hspan⟩ hall
  exact hspan ▸ hall token List.mem_cons_self

theorem ensures_exactly (expected : Token) :
    Ensures (·.span.Within outer) (exactly expected) (·.Within outer) :=
  (ensures_one _).bind fun _ h => ensures_pure h

theorem Star.exists_part {tokens : List (Spanned Token)} {as : List α} (h : Star p tokens as) {a : α} (ha : a ∈ as) :
    ∃ part, part.Sublist tokens ∧ p part a := by
  induction h with
  | nil => cases ha
  | @cons first rest b bs hfirst _ ih =>
    rcases List.mem_cons.mp ha with rfl | ha
    · exact ⟨first, List.sublist_append_left first rest, hfirst⟩
    · obtain ⟨part, hpart, hp⟩ := ih ha
      exact ⟨part, hpart.trans (List.sublist_append_right first rest), hp⟩

/-! ### First and last tokens -/

/-- A phrase ends with a token, and something is so of what it says and of where that token stands. -/
def Closes (p : Phrase α) (holds : α → Span → Prop) : Prop :=
  ∀ tokens a, p tokens a → ∃ between last, tokens = between ++ [last] ∧ holds a last.span

theorem closes_exactly (expected : Token) : Closes (exactly expected) (· = ·) := by
  intro tokens s h
  exact ⟨[], _, exactly_iff.mp h, rfl⟩

theorem Closes.behind {closing : β → Span → Prop} (hf : ∀ a, Closes (f a) closing) : Closes (p >>= f) closing := by
  rintro _ b ⟨first, _, a, rfl, -, hrest⟩
  obtain ⟨between, last, rfl, hlast⟩ := hf a _ b hrest
  exact ⟨first ++ between, last, (List.append_assoc ..).symm, hlast⟩

/-- A phrase that ends with a token is followed by no more. -/
theorem Closes.bind {closing : α → Span → Prop} {closing' : β → Span → Prop} (hp : Closes p closing)
    (hf : ∀ a s, closing a s → ∀ tokens b, f a tokens b → tokens = [] ∧ closing' b s) : Closes (p >>= f) closing' := by
  rintro _ b ⟨first, rest, a, rfl, hfirst, hrest⟩
  obtain ⟨between, last, rfl, hlast⟩ := hp first a hfirst
  obtain ⟨rfl, hb⟩ := hf a last.span hlast rest b hrest
  exact ⟨between, last, List.append_nil _, hb⟩

theorem closes_required {expected : Token} {condition : Prop} {value : Span → β} {closing : β → Span → Prop}
    (h : ∀ stop, closing (value stop) stop) :
    Closes (do let stop ← exactly expected; require condition; return value stop) closing := by
  refine (closes_exactly expected).bind ?_
  rintro stop _ rfl tokens b hb
  obtain ⟨-, rfl, rfl⟩ := require_bind_iff.mp hb
  exact ⟨rfl, h stop⟩

/-- What a phrase says goes from its first token to its last. -/
def Delimited (p : Phrase α) (span : α → Span) : Prop :=
  ∀ tokens a, p tokens a → ∃ first between last, tokens = first :: (between ++ [last])
    ∧ span a = first.span.merge last.span

theorem delimited_of_one {accept : Token → Option α} {f : Spanned α → Phrase β} {span : β → Span}
    (hf : ∀ first, Closes (f first) fun b last => span b = first.span.merge last) :
    Delimited (one accept >>= f) span := by
  rintro _ b ⟨_, _, first, rfl, ⟨token, rfl, -, hfirst⟩, hrest⟩
  obtain ⟨between, last, rfl, hlast⟩ := hf first _ b hrest
  exact ⟨token, between, last, rfl, hfirst ▸ hlast⟩

theorem delimited_of_exactly {expected : Token} {f : Span → Phrase β} {span : β → Span}
    (hf : ∀ first, Closes (f first) fun b last => span b = first.merge last) :
    Delimited (exactly expected >>= f) span := by
  intro tokens b h
  obtain ⟨start, _, rfl, hrest⟩ := exactly_bind_iff.mp h
  obtain ⟨between, last, rfl, hlast⟩ := hf start _ b hrest
  exact ⟨⟨expected, start⟩, between, last, rfl, hlast⟩

/-- What goes from its first token to its last covers all that is written in it. -/
theorem Delimited.covers {span : α → Span} {spans : α → List Span} (hdelimited : Delimited p span)
    (hspans : ∀ outer : Span, Ensures (·.span.Within outer) p (outer.Covers <| spans ·)) {tokens : List (Spanned Token)}
    {a : α} (h : p tokens a) (haligned : Span.Aligned (tokens.map Spanned.span)) : (span a).Covers (spans a) := by
  obtain ⟨first, between, last, rfl, hspan⟩ := hdelimited tokens a h
  rw [hspan]
  refine hspans _ _ a h fun t ht => ?_
  have hmem := List.mem_map_of_mem (f := Spanned.span) ht
  rw [List.map_cons, List.map_append] at haligned hmem
  exact haligned.covers _ hmem

theorem Delimited.ensures {span : α → Span} (hdelimited : Delimited p span) :
    Ensures (·.span.Within outer) p (span · |>.Within outer) := by
  intro tokens a h hall
  obtain ⟨first, between, last, rfl, hspan⟩ := hdelimited tokens a h
  have hlast : last ∈ first :: (between ++ [last]) :=
    List.mem_cons_of_mem _ (List.mem_append_right _ List.mem_cons_self)
  exact hspan ▸ (hall first List.mem_cons_self).merge (hall last hlast)

end Phrase

/-! ### Spans of declarations -/

namespace Declaration

/-- The places of a field and of what is written in it. -/
def Field.spans (p : Field) : List Span :=
  p.span :: p.name.span :: p.domain.span :: p.default.toList.map Spanned.span

def Association.spans (p : Association) : List Span := [p.span, p.name.span, p.target.span]

def Composition.spans (p : Composition) : List Span := [p.span, p.name.span, p.target.span]

def Alias.spans (p : Alias) : List Span := [p.span, p.token.span]

def Property.spans : Property → List Span
  | field p => p.spans
  | association p => p.spans
  | composition p => p.spans
  | .alias p => p.spans

/-- The places of a value of a row: its field and its literal. -/
def Row.valueSpans (value : Spanned String × Spanned Literal) : List Span := [value.1.span, value.2.span]

def Row.spans (r : Row) : List Span := r.span :: r.name.span :: r.values.flatMap valueSpans

/-- The places of what is written in a class. -/
def Class.spansInside (c : Class) : List Span :=
  c.name.span :: c.parent.toList.map Spanned.span ++ c.stereotype.toList.map Spanned.span
    ++ c.trigram.toList.map Spanned.span ++ c.label.toList.map Spanned.span ++ c.key.toList.map Spanned.span
    ++ c.properties.flatMap Property.spans ++ c.rows.flatMap Row.spans

theorem Property.span_mem (p : Property) : p.span ∈ p.spans := by
  cases p <;> exact List.mem_cons_self

namespace Class

variable {c : Class} {s : Span}

theorem name_mem (c : Class) : c.name.span ∈ c.spansInside := by simp [spansInside]

theorem parent_mem {name : Spanned String} (h : c.parent = some name) : name.span ∈ c.spansInside := by
  simp [spansInside, h]

theorem label_mem {name : Spanned String} (h : c.label = some name) : name.span ∈ c.spansInside := by
  simp [spansInside, h]

theorem property_mem {p : Property} (hp : p ∈ c.properties) (hs : s ∈ p.spans) : s ∈ c.spansInside :=
  List.mem_append_left _ (List.mem_append_right _ (List.mem_flatMap.mpr ⟨p, hp, hs⟩))

theorem row_mem {row : Row} (hrow : row ∈ c.rows) (hs : s ∈ row.spans) : s ∈ c.spansInside :=
  List.mem_append_right _ (List.mem_flatMap.mpr ⟨row, hrow, hs⟩)

end Class

namespace Grammar

open Phrase

variable {outer : Span}

/-- The places of the literals among modifiers. -/
def modifierSpans (written : List Modifier) : List Span := (written.filterMap default?).map Spanned.span

def ClassItem.spans (item : ClassItem) : List Span :=
  item.trigram?.toList.map Spanned.span ++ item.label?.toList.map Spanned.span ++ item.key?.toList.map Spanned.span
    ++ item.property?.toList.flatMap Property.spans ++ item.rows.flatMap Row.spans

/-! ### Productions -/

theorem ensures_modifier :
    Ensures (·.span.Within outer) modifier fun m => outer.Covers (modifierSpans [m.value]) := by
  refine .either ?_ (.either ?_ (.either ?_ (.either ?_ (.either ?_ (.either ?_ (.either ?_ ?_))))))
  · exact .behind fun _ => ensures_pure Span.covers_nil
  · exact .behind fun _ => ensures_pure Span.covers_nil
  · exact .behind fun _ => ensures_pure Span.covers_nil
  · exact .behind fun _ => ensures_pure Span.covers_nil
  · exact .behind fun _ => (ensures_one _).bind fun _ hvalue => ensures_pure (Span.covers_nil.cons hvalue)
  · exact .behind fun _ => .behind fun _ => ensures_pure Span.covers_nil
  · exact .behind fun _ => .behind fun _ => ensures_pure Span.covers_nil
  · exact .behind fun _ => .behind fun _ => ensures_pure Span.covers_nil

theorem covers_modifierSpans {written : List Modifier} (h : ∀ m ∈ written, outer.Covers (modifierSpans [m])) :
    outer.Covers (modifierSpans written) := by
  refine List.forall_mem_map.mpr fun value hvalue => ?_
  obtain ⟨m, hm, hdefault⟩ := List.mem_filterMap.mp hvalue
  refine h m hm _ (List.mem_map_of_mem ?_)
  exact List.mem_filterMap.mpr ⟨m, List.mem_cons_self, hdefault⟩

theorem ensures_modifiers (kind : PropertyKind) : Ensures (·.span.Within outer) (modifiers kind) fun parsed =>
    outer.Covers (modifierSpans parsed.1) ∧ parsed.2.Within outer := by
  refine ensures_modifier.star.bind fun written hwritten => (ensures_exactly _).bind fun stop hstop => ?_
  exact .behind fun _ => ensures_pure ⟨covers_modifierSpans (List.forall_mem_map.mpr hwritten), hstop⟩

theorem ensures_field : Ensures (·.span.Within outer) field (outer.Covers ·.spans) := by
  refine (ensures_exactly _).bind fun start hstart => (ensures_one _).bind fun name hname => .behind fun _ => ?_
  refine (ensures_one _).bind fun domain hdomain => ?_
  refine (ensures_modifiers _).bind fun (written, stop) ⟨hwritten, hstop⟩ => ensures_pure ?_
  refine .cons (hstart.merge hstop) (.cons hname (.cons hdomain (Span.covers_optional fun value hvalue => ?_)))
  exact hwritten _ (List.mem_map_of_mem (List.mem_of_getLast? hvalue))

theorem ensures_association : Ensures (·.span.Within outer) association (outer.Covers ·.spans) := by
  refine (ensures_exactly _).bind fun start hstart => (ensures_one _).bind fun name hname => .behind fun _ => ?_
  refine (ensures_one _).bind fun target htarget => ?_
  refine (ensures_modifiers _).bind fun (written, stop) ⟨_, hstop⟩ => ensures_pure ?_
  exact .cons (hstart.merge hstop) (.cons hname (.cons htarget Span.covers_nil))

theorem ensures_composition : Ensures (·.span.Within outer) composition (outer.Covers ·.spans) := by
  refine (ensures_exactly _).bind fun start hstart => (ensures_one _).bind fun name hname => .behind fun _ => ?_
  refine (ensures_one _).bind fun target htarget => .behind fun multiplicity => ?_
  refine (ensures_modifiers _).bind fun (written, stop) ⟨_, hstop⟩ => ensures_pure ?_
  exact .cons (hstart.merge hstop) (.cons hname (.cons htarget Span.covers_nil))

theorem ensures_aliasItem : Ensures (·.span.Within outer) aliasItem (outer.Covers ·.spans) := by
  refine (ensures_exactly _).bind fun start hstart => (ensures_one _).bind fun token htoken => ?_
  refine (ensures_modifiers _).bind fun (written, stop) ⟨_, hstop⟩ => ensures_pure ?_
  exact .cons (hstart.merge hstop) (.cons htoken Span.covers_nil)

theorem ensures_rowValue : Ensures (·.span.Within outer) rowValue (outer.Covers <| Row.valueSpans ·) := by
  refine (ensures_one _).bind fun field hfield => .behind fun _ => ?_
  exact (ensures_one _).bind fun value hvalue => ensures_pure (.cons hfield (.cons hvalue Span.covers_nil))

theorem ensures_rowValues :
    Ensures (·.span.Within outer) rowValues fun values => ∀ value ∈ values, outer.Covers (Row.valueSpans value) := by
  refine .either (ensures_pure fun _ h => absurd h List.not_mem_nil) (ensures_rowValue.bind fun first hfirst => ?_)
  refine (Ensures.star (.behind fun _ => ensures_rowValue)).bind fun others hothers => .behind fun _ => ?_
  exact ensures_pure (List.forall_mem_cons.mpr ⟨hfirst, hothers⟩)

theorem ensures_row : Ensures (·.span.Within outer) row (outer.Covers ·.spans) := by
  refine (ensures_one _).bind fun name hname => .behind fun _ => ensures_rowValues.bind fun values hvalues => ?_
  refine (ensures_exactly _).bind fun stop hstop => ensures_pure ?_
  exact .cons (hname.merge hstop) (.cons hname (Span.covers_flatMap hvalues))

theorem covers_property {p : Property} (h : outer.Covers p.spans) : outer.Covers (ClassItem.property p).spans :=
  (h.append Span.covers_nil).append Span.covers_nil

theorem ensures_classItem : Ensures (·.span.Within outer) classItem (outer.Covers ·.spans) := by
  refine .either ?_ (.either ?_ (.either ?_ (.either ?_ (.either ?_ (.either ?_ (.either ?_ (.either ?_
    (.either ?_ ?_))))))))
  · refine .behind fun _ => (ensures_one _).bind fun name hname => .behind fun _ => ensures_pure ?_
    exact Span.covers_nil.cons hname
  · refine .behind fun _ => (ensures_one _).bind fun name hname => .behind fun _ => ensures_pure ?_
    exact Span.covers_nil.cons hname
  · refine .behind fun _ => (ensures_one _).bind fun name hname => .behind fun _ => ensures_pure ?_
    exact Span.covers_nil.cons hname
  · exact .behind fun _ => .behind fun _ => ensures_pure Span.covers_nil
  · exact .behind fun _ => .behind fun _ => ensures_pure Span.covers_nil
  · exact ensures_field.bind fun _ h => ensures_pure (covers_property h)
  · exact ensures_association.bind fun _ h => ensures_pure (covers_property h)
  · exact ensures_composition.bind fun _ h => ensures_pure (covers_property h)
  · exact ensures_aliasItem.bind fun _ h => ensures_pure (covers_property h)
  · refine .behind fun _ => .behind fun _ => ensures_row.star.bind fun rows hrows => ?_
    exact .behind fun _ => ensures_pure (Span.covers_flatMap hrows)

section classOf

variable {α : Type} (setting : Spanned String → α) (ofProperty : Property → List α) (ofRow : Row → List α)

/-- What an item of a class holds, of each kind. -/
def ClassItem.parts (item : ClassItem) : List α :=
  item.trigram?.toList.map setting ++ item.label?.toList.map setting ++ item.key?.toList.map setting
    ++ item.property?.toList.flatMap ofProperty ++ item.rows.flatMap ofRow

/-- What the items of a class come to, of each kind. -/
def partsOf (items : List ClassItem) : List α :=
  (items.filterMap ClassItem.trigram?).getLast?.toList.map setting
    ++ (items.filterMap ClassItem.label?).getLast?.toList.map setting
    ++ (items.filterMap ClassItem.key?).getLast?.toList.map setting
    ++ (items.filterMap ClassItem.property?).flatMap ofProperty ++ (items.flatMap ClassItem.rows).flatMap ofRow

variable {setting ofProperty ofRow}

theorem forall_mem_partsOf {items : List ClassItem} {holds : α → Prop}
    (hitems : ∀ item ∈ items, ∀ a ∈ item.parts setting ofProperty ofRow, holds a) :
    ∀ a ∈ partsOf setting ofProperty ofRow items, holds a := by
  simp only [ClassItem.parts, List.forall_mem_append] at hitems
  have hsetting {f : ClassItem → Option (Spanned String)}
      (hf : ∀ item ∈ items, ∀ a ∈ (f item).toList.map setting, holds a) :
      ∀ a ∈ (items.filterMap f).getLast?.toList.map setting, holds a := by
    refine List.forall_mem_map.mpr fun name hname => ?_
    obtain ⟨item, hitem, hfound⟩ :=
      List.mem_filterMap.mp (List.mem_of_getLast? (Option.mem_toList.mp hname))
    exact hf item hitem _ (List.mem_map_of_mem (Option.mem_toList.mpr hfound))
  simp only [partsOf, List.forall_mem_append]
  refine ⟨⟨⟨⟨?_, ?_⟩, ?_⟩, ?_⟩, ?_⟩
  · exact hsetting fun item hitem => (hitems item hitem).1.1.1.1
  · exact hsetting fun item hitem => (hitems item hitem).1.1.1.2
  · exact hsetting fun item hitem => (hitems item hitem).1.1.2
  · intro a ha
    obtain ⟨p, hp, ha⟩ := List.mem_flatMap.mp ha
    obtain ⟨item, hitem, hfound⟩ := List.mem_filterMap.mp hp
    exact (hitems item hitem).1.2 a (List.mem_flatMap.mpr ⟨p, Option.mem_toList.mpr hfound, ha⟩)
  · intro a ha
    obtain ⟨row, hrow, ha⟩ := List.mem_flatMap.mp ha
    obtain ⟨item, hitem, hrow⟩ := List.mem_flatMap.mp hrow
    exact (hitems item hitem).2 a (List.mem_flatMap.mpr ⟨row, hrow, ha⟩)

end classOf

theorem covers_classOf {name : Spanned String} {parent : Option (Spanned String)}
    {stereotype : Option (Spanned Stereotype)} {items : List ClassItem} (span : Span) (hname : name.span.Within outer)
    (hparent : ∀ name ∈ parent, name.span.Within outer) (hstereotype : ∀ s ∈ stereotype, s.span.Within outer)
    (hitems : ∀ item ∈ items, outer.Covers item.spans) :
    outer.Covers (classOf name parent stereotype items span).spansInside := by
  have hhead := ((Span.covers_optional hparent).cons hname).append (Span.covers_optional hstereotype)
  have hparts : outer.Covers (partsOf Spanned.span Property.spans Row.spans items) := forall_mem_partsOf hitems
  have hall := hhead.append hparts
  simp only [partsOf, ← List.append_assoc] at hall
  exact hall

theorem ensures_klass : Ensures (·.span.Within outer) klass (outer.Covers ·.spansInside) := by
  refine .behind fun start => (ensures_one _).bind fun name hname => ?_
  refine (Ensures.opt (.behind fun _ => ensures_one _)).bind fun parent hparent => ?_
  refine (ensures_one _).opt.bind fun stereotype hstereotype => .behind fun _ => ?_
  refine ensures_classItem.star.bind fun items hitems => .behind fun stop => .behind fun _ => ?_
  exact ensures_pure (covers_classOf _ hname hparent hstereotype hitems)

theorem delimited_klass : Delimited klass Class.span :=
  delimited_of_exactly fun _ => .behind fun _ => .behind fun _ => .behind fun _ => .behind fun _ => .behind fun _ =>
    closes_required fun _ => rfl

theorem klass_of_item {tokens : List (Spanned Token)} {c : Class} (h : item tokens (.klass c)) : klass tokens c := by
  rcases h with h | h | h
  · obtain ⟨_, -, hitem⟩ := bind_pure_iff.mp h
    cases hitem
  · obtain ⟨_, -, hitem⟩ := bind_pure_iff.mp h
    cases hitem
  · obtain ⟨_, hklass, hitem⟩ := bind_pure_iff.mp h
    cases hitem
    exact hklass

end Grammar

/-- **A class holds what is written in it.** Whatever a class of a text holds is written within the span of the
class. -/
theorem within_of_parse {text : String} {file : File} (h : File.parse text = .ok file) {c : Class}
    (hc : c ∈ file.classes) : c.span.Covers c.spansInside := by
  obtain ⟨tokens, items, hscan, hitems, rfl⟩ := (parse_eq_ok_iff_items text file).mp h
  obtain ⟨item, hitem, hclass⟩ := List.mem_filterMap.mp hc
  obtain rfl : item = .klass c := by
    cases item with
    | klass declared => exact congrArg Grammar.Item.klass (Option.some.inj hclass)
    | _ => cases hclass
  obtain ⟨part, hpart, hphrase⟩ := hitems.exists_part hitem
  have hklass := Grammar.klass_of_item hphrase
  have haligned := (Lexeme.aligned_scan hscan).sublist (hpart.map Spanned.span)
  exact Grammar.delimited_klass.covers (fun _ => Grammar.ensures_klass) hklass haligned

end Declaration

end EntityModel
