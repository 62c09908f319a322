import EntityModel.Proofs.Excerpt
import Mathlib.Data.List.DropRight

/-!
# Offsets and locations

The location of an offset counts the characters that start before it (`Location.ofOffset_eq_place`): the line feeds
among them and those behind the last line feed. A character more stands behind on the line or on a later line, so that
offsets between characters and locations go one to one (`Location.ofOffset_spec`).
-/

namespace EntityModel

open Lexeme (byteLength byteLength_cons byteLength_append byteLength_toList prefix_of_byteLength_le)

/-! ### Characters before an offset -/

/-- An offset stands between characters of a text. -/
def Text.IsBoundary (text : String) (offset : Nat) : Prop :=
  ∃ before after, text = before ++ after ∧ offset = before.utf8ByteSize

/-- The characters of a text that start before an offset. -/
structure Text.StartBefore (text : List Char) (offset : Nat) (before : List Char) : Prop where
  start : before <+: text
  iff : ∀ first c, first ++ [c] <+: text → (first ++ [c] <+: before ↔ byteLength first < offset)

namespace Location

/-- The location behind some characters: one line more than line feeds, one column more than characters since the last
line feed. -/
def behind (before : List Char) : Location :=
  ⟨1 + before.count '\n', 1 + (before.rtakeWhile (· ≠ '\n')).length⟩

/-- Locations in order: lines first, then columns. -/
def Precedes (a b : Location) : Prop := a.line < b.line ∨ a.line = b.line ∧ a.column < b.column

theorem foldl_advance_first (before : List Char) : before.foldl advance first = behind before := by
  induction before using List.reverseRecOn with
  | nil => rfl
  | append_singleton before c ih =>
    rw [List.foldl_append, ih, List.foldl_cons, List.foldl_nil, advance, behind, behind, List.count_append,
      List.rtakeWhile_concat]
    by_cases hc : c = '\n'
    · simp [hc, Nat.add_assoc]
    · simp [hc, Nat.add_assoc]

theorem precedes_advance (place : Location) (c : Char) : place.Precedes (place.advance c) := by
  unfold advance Precedes
  split
  · exact .inl (Nat.lt_succ_self _)
  · exact .inr ⟨rfl, Nat.lt_succ_self _⟩

theorem Precedes.trans {a b c : Location} (hab : a.Precedes b) (hbc : b.Precedes c) : a.Precedes c := by
  unfold Precedes at *
  omega

theorem Precedes.ne {a b : Location} (h : a.Precedes b) : a ≠ b := by
  rintro rfl
  unfold Precedes at h
  omega

theorem precedes_foldl_advance {more : List Char} (h : more ≠ []) (place : Location) :
    place.Precedes (more.foldl advance place) := by
  induction more generalizing place with
  | nil => exact absurd rfl h
  | cons c more ih =>
    rw [List.foldl_cons]
    rcases more with _ | ⟨d, more⟩
    · exact precedes_advance place c
    · exact (precedes_advance place c).trans (ih (by simp) _)

/-! ### Locations of offsets -/

/-- The characters that start before an offset are those that its location is behind. -/
theorem exists_startBefore (text : List Char) (offset : Nat) (place : Location) :
    ∃ before, Text.StartBefore text offset before ∧ after offset text place = before.foldl advance place := by
  induction text generalizing offset place with
  | nil => exact ⟨[], ⟨List.prefix_rfl, by simp⟩, rfl⟩
  | cons c rest ih =>
    by_cases hzero : offset = 0
    · refine ⟨[], ⟨List.nil_prefix, by simp [hzero]⟩, ?_⟩
      rw [after, if_pos hzero, List.foldl_nil]
    · obtain ⟨before, ⟨hinit, hiff⟩, hplace⟩ := ih (offset - c.utf8Size) (place.advance c)
      refine ⟨c :: before, ⟨List.cons_prefix_cons.mpr ⟨rfl, hinit⟩, fun start d hstart => ?_⟩, ?_⟩
      · rcases start with _ | ⟨e, start⟩
        · obtain ⟨rfl, -⟩ := List.cons_prefix_cons.mp hstart
          simp only [List.nil_append, List.cons_prefix_cons, List.nil_prefix, and_self, true_iff]
          show 0 < offset
          omega
        · rw [List.cons_append, List.cons_prefix_cons] at hstart
          obtain ⟨rfl, hstart⟩ := hstart
          rw [List.cons_append, List.cons_prefix_cons, and_iff_right rfl, byteLength_cons, hiff start d hstart]
          omega
      · rw [after, if_neg hzero, hplace, List.foldl_cons]

theorem ofOffset_append (before after : String) :
    ofOffset (before ++ after) before.utf8ByteSize = behind before.toList := by
  rw [ofOffset, String.toList_append, ← byteLength_toList, after_append, foldl_advance_first]

theorem after_of_le {text : List Char} {offset : Nat} (h : byteLength text ≤ offset) (place : Location) :
    after offset text place = text.foldl advance place := by
  induction text generalizing offset place with
  | nil => rfl
  | cons c rest ih =>
    rw [byteLength_cons] at h
    have hpos := c.utf8Size_pos
    rw [after, if_neg (by omega), ih (by omega), List.foldl_cons]

theorem precedes_of_lt {text : String} {a b : Nat} (ha : Text.IsBoundary text a) (hb : Text.IsBoundary text b)
    (hlt : a < b) : (ofOffset text a).Precedes (ofOffset text b) := by
  obtain ⟨before, after, rfl, rfl⟩ := ha
  obtain ⟨before', after', htext, rfl⟩ := hb
  have hinit : before.toList <+: before'.toList := by
    have hleft : before.toList <+: (before ++ after).toList := by simp
    have hright : before'.toList <+: (before ++ after).toList := by simp [htext]
    refine prefix_of_byteLength_le hleft hright ?_
    rw [byteLength_toList, byteLength_toList]
    omega
  obtain ⟨more, hmore⟩ := hinit
  have hne : more ≠ [] := by
    rintro rfl
    rw [List.append_nil, String.toList_inj] at hmore
    rw [hmore] at hlt
    omega
  rw [ofOffset_append, htext, ofOffset_append, ← hmore, ← foldl_advance_first, ← foldl_advance_first,
    List.foldl_append]
  exact precedes_foldl_advance hne _

/-- **Offsets and locations correspond.** Between characters a greater offset is a later location, and no other. The
location of any offset is behind the characters that start before it, and at the end of the text and past it they are
all of them. -/
theorem ofOffset_spec (text : String) :
    (∀ a b, Text.IsBoundary text a → Text.IsBoundary text b →
      (a < b ↔ (ofOffset text a).Precedes (ofOffset text b)))
    ∧ (∀ before after, text = before ++ after → ofOffset text before.utf8ByteSize = behind before.toList)
    ∧ (∀ offset, ∃ before, Text.StartBefore text.toList offset before ∧ ofOffset text offset = behind before)
    ∧ ∀ offset, text.utf8ByteSize ≤ offset → ofOffset text offset = behind text.toList := by
  refine ⟨fun a b ha hb => ⟨precedes_of_lt ha hb, fun h => ?_⟩, ?_, fun offset => ?_, fun offset h => ?_⟩
  · by_contra hnot
    rcases Nat.lt_or_eq_of_le (Nat.le_of_not_lt hnot) with hlt | rfl
    · exact (h.trans (precedes_of_lt hb ha hlt)).ne rfl
    · exact h.ne rfl
  · rintro before after rfl
    exact ofOffset_append before after
  · obtain ⟨before, hbefore, hplace⟩ := exists_startBefore text.toList offset first
    exact ⟨before, hbefore, hplace.trans (foldl_advance_first before)⟩
  · rw [← byteLength_toList] at h
    rw [ofOffset, after_of_le h, foldl_advance_first]

end Location

end EntityModel
