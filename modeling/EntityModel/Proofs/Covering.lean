import EntityModel.Proofs.LexicalRules
import EntityModel.Proofs.Placement

/-!
# The lexemes of a text cover it

Tokens and unreadable pieces stand one behind another, each from one character of the text to another, and every byte
outside them is that of a blank or of a comment which goes on to the end of its line. Each token is the longest piece
that a rule matches where it stands, and it is a reserved word exactly when all of its text is one. Main statement:
`Lexeme.scan_covers`.
-/

namespace EntityModel

open Lexeme (byteLength byteLength_append byteLength_toList scanFrom_cons)

namespace Span

/-- A byte of a text lies in a span. -/
def Holds (s : Span) (byte : Nat) : Prop := s.start ≤ byte ∧ byte < s.stop

/-- A span cuts a text into what stands before it, what it holds, and what stands behind it. -/
structure Parts (s : Span) (text : String) (before piece after : List Char) : Prop where
  text : text.toList = before ++ piece ++ after
  start : s.start = byteLength before
  stop : s.stop = byteLength before + byteLength piece

theorem Parts.liesIn {s : Span} {text : String} {before piece after : List Char} (h : s.Parts text before piece after) :
    s.LiesIn text := by
  refine ⟨String.ofList piece, String.ofList before, String.ofList after, ?_, ?_, ?_⟩
  · rw [← String.toList_inj, h.text]
    simp
  · rw [h.start, ← byteLength_toList, String.toList_ofList]
  · rw [h.stop, ← byteLength_toList, ← byteLength_toList, String.toList_ofList, String.toList_ofList]

end Span

namespace Piece

/-- Text that is skipped: blanks, or a comment to the end of its line. -/
def Skipped (piece after : List Char) : Prop :=
  (∀ c ∈ piece, isSpace c = true)
    ∨ ∃ line, piece = '/' :: '/' :: line ∧ '\n' ∉ line ∧ (after = [] ∨ ∃ rest, after = '\n' :: rest)

theorem Longest.skipped {piece after : List Char} (h : Longest piece .gap after) : Skipped piece after := by
  obtain ⟨hforms, hlongest⟩ := h
  cases hforms with
  | spaces _ hspace => exact .inl hspace
  | @comment line hline =>
    refine .inr ⟨line, rfl, hline, ?_⟩
    rcases after with _ | ⟨c, rest⟩
    · exact .inl rfl
    · by_cases hc : c = '\n'
      · exact .inr ⟨rest, by rw [hc]⟩
      · have hmore : Forms ('/' :: '/' :: (line ++ [c])) .gap := .comment (by simpa [hline] using Ne.symm hc)
        have hle := hlongest _ _ hmore ⟨rest, by simp⟩
        simp only [List.length_cons, List.length_append, List.length_nil] at hle
        omega

theorem Forms.eq_of_keyword {text : List Char} {k : Keyword} (h : Forms text (.token (.keyword k))) :
    k.text.toList = text := by
  cases h
  rfl

variable {c : Char} {rest : List Char} {t : Token}

/-- A token is a reserved word exactly when all of its text is one. -/
theorem keyword_first_iff (h : (first c rest).1 = .token t) (k : Keyword) :
    t = .keyword k ↔ k.text.toList = c :: rest.take (first c rest).2 := by
  constructor
  · rintro rfl
    exact (longest_of_first h (by simp)).forms.eq_of_keyword
  · intro hk
    obtain ⟨d, tail, htext, hword, -⟩ := toList_keyword k
    obtain ⟨rfl, -⟩ := List.cons.inj (htext.symm.trans hk)
    have hfirst : first d rest = (.token (.ofWord (String.ofList (d :: rest.takeWhile inWord))),
        (rest.takeWhile inWord).length) := by
      unfold first
      simp [isSpace_of_startsWord hword, hword]
    rw [hfirst, take_length_takeWhile] at hk
    have hall : Keyword.ofText? (String.ofList (d :: rest.takeWhile inWord)) = some k := by
      rw [ofText?_eq_some_iff, ← hk, String.ofList_toList]
    rw [hfirst, Token.ofWord, hall] at h
    simpa using h.symm

end Piece

namespace Lexeme

/-- What it is for lexemes to cover a text. -/
structure Covers (text : String) (lexemes : List Lexeme) : Prop where
  /-- Each holds some bytes, and its ends stand between characters of the text. -/
  placed : ∀ l ∈ lexemes, l.span.start < l.span.stop ∧ l.span.LiesIn text
  /-- They stand in order, none within another. -/
  ordered : lexemes.Pairwise fun a b => a.span.start < b.span.start ∧ a.span.stop ≤ b.span.start
  /-- A byte in none of them is in skipped text that none of them touches. -/
  skipped : ∀ byte < text.utf8ByteSize, (∃ l ∈ lexemes, l.span.Holds byte)
    ∨ ∃ s : Span, ∃ before piece after, s.Parts text before piece after ∧ s.Holds byte ∧ Piece.Skipped piece after
      ∧ ∀ l ∈ lexemes, l.span.stop ≤ s.start ∨ s.stop ≤ l.span.start
  /-- A token is the longest piece where it stands, and a reserved word exactly when its text is. -/
  tokens : ∀ t, token t ∈ lexemes → ∃ before piece after, t.span.Parts text before piece after
    ∧ Piece.Longest piece (.token t.value) after ∧ ∀ k : Keyword, t.value = .keyword k ↔ k.text.toList = piece
  /-- What is unreadable is an integer of more than 64 bits, or no rule matches there. -/
  refused : ∀ u, unreadable u ∈ lexemes → ∃ before piece after, u.span.Parts text before piece after
    ∧ (Piece.Longest piece .unreadable after ∨ Piece.Formless (piece ++ after))

theorem byteLength_cons_pos (c : Char) (text : List Char) : 0 < byteLength (c :: text) := by
  have hpos := c.utf8Size_pos
  simp only [byteLength, List.foldr_cons]
  omega

theorem exists_parts {text : String} {l : Lexeme} (h : l ∈ scan text) : ∃ before c rest,
    l.span.Parts text before (c :: rest.take (Piece.first c rest).2) (rest.drop (Piece.first c rest).2)
      ∧ ofPiece? (Piece.first c rest).1 (c :: rest.take (Piece.first c rest).2) l.span = some l := by
  obtain ⟨before, c, rest, htext, hl⟩ := exists_piece h
  have hspan := span_of_ofPiece? hl
  refine ⟨before, c, rest, ⟨?_, ?_, ?_⟩, hspan ▸ hl⟩
  · rw [htext, List.append_assoc, List.cons_append, List.take_append_drop]
  · rw [hspan, Nat.zero_add]
  · rw [hspan, Nat.zero_add]

/-- A gap, with all lexemes before it or behind it. -/
structure GapAt (start : Nat) (lexemes : List Lexeme) (before piece after : List Char) : Prop where
  longest : Piece.Longest piece .gap after
  apart : ∀ l ∈ lexemes, l.span.stop ≤ start + byteLength before
    ∨ start + byteLength (before ++ piece) ≤ l.span.start

theorem GapAt.behind {start : Nat} {first before piece after : List Char} {lexemes more : List Lexeme}
    (h : GapAt (start + byteLength first) lexemes before piece after)
    (hmore : ∀ l ∈ more, l.span.stop = start + byteLength first) :
    GapAt start (more ++ lexemes) (first ++ before) piece after := by
  refine ⟨h.longest, fun l hl => ?_⟩
  rcases List.mem_append.mp hl with hl | hl
  · rw [hmore l hl, byteLength_append]
    omega
  · simpa [byteLength_append, Nat.add_assoc] using h.apart l hl

theorem holds_or_gap {start byte : Nat} {text : List Char} (hstart : start ≤ byte)
    (hstop : byte < start + byteLength text) : (∃ l ∈ scanFrom start text, l.span.Holds byte)
    ∨ ∃ before piece after, text = before ++ piece ++ after ∧ GapAt start (scanFrom start text) before piece after
      ∧ start + byteLength before ≤ byte ∧ byte < start + byteLength (before ++ piece) := by
  obtain ⟨n, hn⟩ : ∃ n, text.length = n := ⟨_, rfl⟩
  induction n using Nat.strongRecOn generalizing start text with
  | ind n ih =>
    rcases text with _ | ⟨c, text⟩
    · simp only [byteLength, List.foldr_nil] at hstop
      omega
    have hlt : (text.drop (Piece.first c text).2).length < n := by
      rw [← hn, List.length_cons, List.length_drop]
      omega
    have htext : c :: text = (c :: text.take (Piece.first c text).2) ++ text.drop (Piece.first c text).2 := by
      rw [List.cons_append, List.take_append_drop]
    have hgap : (Piece.first c text).1 = .gap →
        Piece.Longest (c :: text.take (Piece.first c text).2) .gap (text.drop (Piece.first c text).2) := fun h =>
      Piece.longest_of_first h (by simp)
    have hbytes := congrArg byteLength htext
    rw [byteLength_append] at hbytes
    rw [scanFrom_cons]
    generalize c :: text.take (Piece.first c text).2 = piece at hgap htext hbytes ⊢
    generalize text.drop (Piece.first c text).2 = after at hgap hlt htext hbytes ⊢
    rw [htext]
    have hbehind := (aligned_scanFrom (start + byteLength piece) after).2
    by_cases hin : byte < start + byteLength piece
    · -- the byte is in the first piece
      rcases hfirst : (Piece.first c text).1 with _ | t | _
      · refine .inr ⟨[], piece, after, rfl, ⟨hgap hfirst, fun l hl => .inr ?_⟩, hstart, hin⟩
        exact hbehind _ (List.mem_map_of_mem hl)
      · refine .inl ⟨token ⟨t, ⟨start, start + byteLength piece⟩⟩, ?_, hstart, hin⟩
        simp [ofPiece?]
      · refine .inl ⟨unreadable ⟨String.ofList piece, ⟨start, start + byteLength piece⟩⟩, ?_, hstart, hin⟩
        simp [ofPiece?]
    · have hfrom : start + byteLength piece ≤ byte := by omega
      rcases ih _ hlt hfrom (by omega) rfl with ⟨l, hl, hholds⟩ | ⟨before, gap, behind, hafter, hgapAt, hfrom, hto⟩
      · exact .inl ⟨l, List.mem_append_right _ hl, hholds⟩
      · refine .inr ⟨piece ++ before, gap, behind, by rw [hafter]; simp, hgapAt.behind fun l hl => ?_, ?_, ?_⟩
        · rw [span_of_ofPiece? (Option.mem_toList.mp hl)]
        · rw [byteLength_append]
          omega
        · simpa [byteLength_append, Nat.add_assoc] using hto

theorem first_of_token {piece : Piece} {text : List Char} {s : Span} {t : Spanned Token}
    (h : ofPiece? piece text s = some (token t)) : piece = .token t.value := by
  cases piece with
  | token t' =>
    obtain rfl : (⟨t', s⟩ : Spanned Token) = t := by simpa [ofPiece?] using h
    rfl
  | _ => simp [ofPiece?] at h

theorem first_of_unreadable {piece : Piece} {text : List Char} {s : Span} {u : Spanned String}
    (h : ofPiece? piece text s = some (unreadable u)) : piece = .unreadable := by
  cases piece with
  | unreadable => rfl
  | _ => simp [ofPiece?] at h

theorem start_lt_stop {text : String} {l : Lexeme} (h : l ∈ scan text) : l.span.start < l.span.stop := by
  obtain ⟨before, c, rest, hparts, -⟩ := exists_parts h
  have hpos := byteLength_cons_pos c (rest.take (Piece.first c rest).2)
  rw [hparts.start, hparts.stop]
  omega

theorem ordered_scan (text : String) :
    (scan text).Pairwise fun a b => a.span.start < b.span.start ∧ a.span.stop ≤ b.span.start := by
  have hapart := List.pairwise_map.mp (aligned_scanFrom 0 text.toList).1.apart
  refine List.Pairwise.imp_of_mem (fun {a b} ha _ hab => ⟨?_, hab⟩) hapart
  have hlt := start_lt_stop (show a ∈ scan text from ha)
  omega

/-- **The lexemes of a text cover it**: they and the gaps are all of the text, each cut off by the longest match. -/
theorem scan_covers (text : String) : Covers text (scan text) where
  placed l hl := by
    obtain ⟨before, c, rest, hparts, -⟩ := exists_parts hl
    exact ⟨start_lt_stop hl, hparts.liesIn⟩
  ordered := ordered_scan text
  skipped byte hbyte := by
    have hstop : byte < 0 + byteLength text.toList := by
      rw [byteLength_toList]
      omega
    rcases holds_or_gap (Nat.zero_le byte) hstop with hheld | ⟨before, piece, after, htext, hgap, hfrom, hto⟩
    · exact .inl hheld
    · rw [Nat.zero_add] at hfrom hto
      rw [byteLength_append] at hto
      refine .inr ⟨⟨byteLength before, byteLength before + byteLength piece⟩, before, piece, after, ⟨htext, rfl, rfl⟩,
        ⟨hfrom, hto⟩, hgap.longest.skipped, fun l hl => ?_⟩
      simpa [byteLength_append] using hgap.apart l hl
  tokens t ht := by
    obtain ⟨before, c, rest, hparts, hl⟩ := exists_parts ht
    have hfirst := first_of_token hl
    exact ⟨before, _, _, hparts, Piece.longest_of_first hfirst (by simp), Piece.keyword_first_iff hfirst⟩
  refused u hu := by
    obtain ⟨before, c, rest, hparts, hl⟩ := exists_parts hu
    have hfirst := first_of_unreadable hl
    refine ⟨before, _, _, hparts, ?_⟩
    rcases Piece.munches_first c rest with hlongest | ⟨-, hnone⟩
    · rw [hfirst] at hlongest
      exact .inl hlongest
    · rw [List.cons_append, List.take_append_drop]
      exact .inr hnone

end Lexeme

end EntityModel
