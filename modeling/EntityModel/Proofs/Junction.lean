import EntityModel.Token.Scanner

/-!
# Texts that follow one another

No piece of a readable text goes on behind a line feed put after the text: words, numbers and marks end there, a
comment ends before it, and a string literal is closed. Only blanks may go on, and they may be cut anywhere
(`scanFrom_space`). So a readable text and another one, with a line feed between them, have the lexemes of the
first and behind them those of the second, as far further on as the second is (`scan_append_newline`).
-/

namespace EntityModel

/-! ### Places further on -/

/-- The range some bytes further on. -/
def Span.shift (bytes : Nat) (s : Span) : Span := ⟨s.start + bytes, s.stop + bytes⟩

def Spanned.shift {α : Type} (bytes : Nat) (a : Spanned α) : Spanned α := ⟨a.value, a.span.shift bytes⟩

@[simp] theorem Spanned.value_shift {α : Type} (bytes : Nat) (a : Spanned α) : (a.shift bytes).value = a.value := rfl

@[simp] theorem Spanned.span_shift {α : Type} (bytes : Nat) (a : Spanned α) :
    (a.shift bytes).span = a.span.shift bytes := rfl

theorem Span.merge_shift (bytes : Nat) (a b : Span) :
    (a.shift bytes).merge (b.shift bytes) = (a.merge b).shift bytes := by
  simp only [merge, shift, Span.mk.injEq]
  omega

def Lexeme.shift (bytes : Nat) : Lexeme → Lexeme
  | token t => token (t.shift bytes)
  | unreadable piece => unreadable (piece.shift bytes)

/-! ### Pieces before a line feed -/

theorem takeWhile_append_cons {α : Type} {p : α → Bool} {a : α} (ha : p a = false) (first rest : List α) :
    (first ++ a :: rest).takeWhile p = first.takeWhile p := by
  induction first with
  | nil => simp [ha]
  | cons b first ih => by_cases hb : p b = true <;> simp [hb, ih]

theorem dropWhile_append_cons {α : Type} {p : α → Bool} {a : α} (ha : p a = false) (first rest : List α) :
    (first ++ a :: rest).dropWhile p = first.dropWhile p ++ a :: rest := by
  induction first with
  | nil => simp [ha]
  | cons b first ih => by_cases hb : p b = true <;> simp [hb, ih]

namespace Piece

theorem stringBody_append {text body : List Char} (h : stringBody text = (body, true)) (rest : List Char) :
    stringBody (text ++ rest) = (body, true) ∧ body.length + 1 ≤ text.length := by
  fun_induction stringBody text generalizing body with
  | case1 => cases h
  | case2 text =>
    cases h
    exact ⟨rfl, by simp⟩
  | case3 => cases h
  | case4 c text hc body' closed hbody ih =>
    cases h
    obtain ⟨heq, hle⟩ := ih hbody
    refine ⟨?_, by simpa using hle⟩
    rw [List.cons_append, List.cons_append, stringBody, if_neg hc, heq]
  | case5 => cases h
  | case6 c text hquote hescape hend body' closed hbody ih =>
    cases h
    obtain ⟨heq, hle⟩ := ih hbody
    have hc : c ≠ '\\' := by
      intro hc
      rcases text with _ | ⟨d, rest'⟩
      · exact hend hc rfl
      · exact hescape d rest' hc rfl
    refine ⟨?_, by simpa using hle⟩
    rw [List.cons_append, stringBody, heq]
    · exact hquote
    · exact fun _ _ h _ => hc h
    · exact fun h _ => hc h

theorem string_append {text : List Char} (h : (string text).1 ≠ .unreadable) (rest : List Char) :
    string (text ++ rest) = string text ∧ (string text).2 ≤ text.length := by
  rcases hbody : stringBody text with ⟨body, closed⟩
  cases closed with
  | false =>
    rw [string, hbody] at h
    exact absurd rfl h
  | true =>
    obtain ⟨heq, hle⟩ := stringBody_append hbody rest
    rw [string, string, heq, hbody]
    exact ⟨rfl, hle⟩

theorem number_append (negative : Bool) (text rest : List Char) :
    number negative (text ++ '\n' :: rest) = number negative text := by
  have hfeed : Char.isDigit '\n' = false := by decide
  unfold number
  rw [takeWhile_append_cons hfeed, dropWhile_append_cons hfeed]
  rcases text.dropWhile Char.isDigit with _ | ⟨c, tail⟩
  · rfl
  · by_cases hc : c = '.'
    · subst hc
      simp only [List.cons_append, takeWhile_append_cons hfeed]
    · simp [hc]

theorem number_le (negative : Bool) (text : List Char) : (number negative text).2 ≤ text.length := by
  have hlength := congrArg List.length (List.takeWhile_append_dropWhile (p := Char.isDigit) (l := text))
  rw [List.length_append] at hlength
  unfold number
  dsimp only
  split
  · next rest htext =>
    have hpart := (List.takeWhile_sublist Char.isDigit (l := rest)).length_le
    rw [htext, List.length_cons] at hlength
    split
    · simp only
      omega
    · next part hne =>
      simp only
      omega
  · simp only
    omega

/-- The first piece of a text, unless it cannot be read or is blank, is within the text and does not go on behind
a line feed. -/
theorem first_append {c : Char} {text : List Char} (hread : (first c text).1 ≠ .unreadable)
    (hspace : isSpace c = false) (rest : List Char) :
    first c (text ++ '\n' :: rest) = first c text ∧ (first c text).2 ≤ text.length := by
  have hfeed : inWord '\n' = false := by decide
  unfold first at hread ⊢
  simp only [hspace, Bool.false_eq_true, if_false] at hread ⊢
  by_cases hword : startsWord c = true
  · simp only [hword, if_true, takeWhile_append_cons hfeed, true_and]
    exact (List.takeWhile_sublist inWord).length_le
  simp only [hword, Bool.false_eq_true, if_false] at hread ⊢
  by_cases hdigit : c.isDigit = true
  · have hle := number_le false (c :: text)
    simp only [hdigit, if_true, ← List.cons_append, number_append, true_and]
    rw [List.length_cons] at hle
    omega
  simp only [hdigit, Bool.false_eq_true, if_false] at hread ⊢
  split at hread
  · exact string_append hread _
  · next tail =>
    refine ⟨?_, (List.takeWhile_sublist _).length_le⟩
    have hline : decide ('\n' ≠ '\n') = false := by decide
    have htaken := takeWhile_append_cons (p := fun x => decide (x ≠ '\n')) hline ('/' :: tail) rest
    exact congrArg (fun taken => (gap, List.length taken)) htaken
  · exact ⟨rfl, Nat.le_add_left 1 _⟩
  · next d tail harrow =>
    by_cases hd : d.isDigit = true
    · simp only [List.cons_append, hd, if_true]
      exact ⟨number_append true (d :: tail) rest, number_le true (d :: tail)⟩
    · rw [if_neg hd] at hread
      exact absurd rfl hread
  · exact ⟨rfl, Nat.le_add_left 1 _⟩
  · next hsep =>
    refine ⟨?_, Nat.zero_le _⟩
    rcases text with _ | ⟨d, tail⟩
    · rfl
    · have hd : d ≠ ':' := fun h => hsep tail (h ▸ rfl)
      simp [hd]
  · exact ⟨rfl, Nat.zero_le _⟩
  · exact ⟨rfl, Nat.zero_le _⟩
  · exact ⟨rfl, Nat.zero_le _⟩
  · exact ⟨rfl, Nat.zero_le _⟩
  · exact ⟨rfl, Nat.zero_le _⟩
  · exact absurd rfl hread

end Piece

/-! ### Lexemes before a line feed -/

namespace Lexeme

open Piece (isSpace)

theorem byteLength_append (first last : List Char) :
    byteLength (first ++ last) = byteLength first + byteLength last := by
  induction first with
  | nil => simp [byteLength]
  | cons c first ih =>
    simp only [byteLength, List.cons_append, List.foldr_cons] at ih ⊢
    omega

theorem byteLength_toList (text : String) : byteLength text.toList = text.utf8ByteSize := by
  obtain ⟨text, rfl⟩ : ∃ chars, text = String.ofList chars := ⟨text.toList, String.ofList_toList.symm⟩
  rw [String.toList_ofList]
  induction text with
  | nil => rfl
  | cons c text ih => simpa [byteLength] using ih

theorem scanFrom_cons (start : Nat) (c : Char) (text : List Char) :
    scanFrom start (c :: text)
      = (ofPiece? (Piece.first c text).1 (c :: text.take (Piece.first c text).2)
          ⟨start, start + byteLength (c :: text.take (Piece.first c text).2)⟩).toList
        ++ scanFrom (start + byteLength (c :: text.take (Piece.first c text).2))
          (text.drop (Piece.first c text).2) := by
  rw [scanFrom]

theorem scanFrom_shift (bytes start : Nat) (text : List Char) :
    scanFrom (start + bytes) text = (scanFrom start text).map (shift bytes) := by
  obtain ⟨n, hn⟩ : ∃ n, text.length = n := ⟨_, rfl⟩
  induction n using Nat.strongRecOn generalizing start text with
  | ind n ih =>
    rcases text with _ | ⟨c, text⟩
    · rw [scanFrom, scanFrom, List.map_nil]
    · have hlt : (text.drop (Piece.first c text).2).length < n := by
        rw [← hn, List.length_cons]
        exact Nat.lt_succ_of_le (List.drop_sublist _ _).length_le
      have hpiece (piece : Piece) (text : List Char) (span : Span) :
          (ofPiece? piece text span).toList.map (shift bytes) = (ofPiece? piece text (span.shift bytes)).toList := by
        cases piece <;> rfl
      rw [scanFrom_cons, scanFrom_cons, List.map_append, hpiece, Nat.add_right_comm, ih _ hlt _ _ rfl, Span.shift]

/-- A blank may be taken off alone: those behind it make up a gap of their own. -/
theorem scanFrom_space (start : Nat) {c : Char} (hc : isSpace c = true) (text : List Char) :
    scanFrom start (c :: text) = scanFrom (start + c.utf8Size) text := by
  have hgap {c : Char} (hc : isSpace c = true) (text : List Char) :
      Piece.first c text = (.gap, (text.takeWhile isSpace).length) := if_pos hc
  rw [scanFrom_cons, hgap hc]
  rcases text with _ | ⟨d, text⟩
  · rfl
  · by_cases hd : isSpace d = true
    · rw [scanFrom_cons, hgap hd]
      simp [hd, ofPiece?, byteLength, Nat.add_assoc]
    · simp [hd, ofPiece?, byteLength]

/-- A readable text with a line feed behind it has its own lexemes and then those of what follows. -/
theorem scanFrom_append {start : Nat} {first : List Char}
    (hread : ∀ piece, unreadable piece ∉ scanFrom start first) (rest : List Char) :
    scanFrom start (first ++ '\n' :: rest)
      = scanFrom start first ++ scanFrom (start + byteLength first + 1) rest := by
  obtain ⟨n, hn⟩ : ∃ n, first.length = n := ⟨_, rfl⟩
  induction n using Nat.strongRecOn generalizing start first with
  | ind n ih =>
    rcases first with _ | ⟨c, first⟩
    · rw [List.nil_append, scanFrom_space start (by decide) rest, scanFrom]
      rfl
    rw [List.length_cons] at hn
    rw [List.cons_append]
    by_cases hc : isSpace c = true
    · -- a blank may be part of the gap that the line feed belongs to
      rw [scanFrom_space start hc] at hread
      rw [scanFrom_space start hc, scanFrom_space start hc, ih first.length (by omega) hread rfl, Nat.add_assoc start]
      rfl
    · have hpiece : (Piece.first c first).1 ≠ .unreadable := by
        intro h
        rw [scanFrom_cons, h] at hread
        exact hread _ List.mem_cons_self
      obtain ⟨heq, hle⟩ := Piece.first_append hpiece (Bool.eq_false_iff.mpr hc) rest
      have hbytes : byteLength (c :: first)
          = byteLength (c :: first.take (Piece.first c first).2) + byteLength (first.drop (Piece.first c first).2) := by
        rw [← byteLength_append, List.cons_append, List.take_append_drop]
      rw [scanFrom_cons] at hread
      have hrest : ∀ unread, unreadable unread ∉ scanFrom _ (first.drop (Piece.first c first).2) :=
        fun unread h => hread unread (List.mem_append_right _ h)
      have hlt : (first.drop (Piece.first c first).2).length < n := by
        rw [List.length_drop]
        omega
      rw [scanFrom_cons, heq, List.take_append_of_le_length hle, List.drop_append_of_le_length hle,
        ih _ hlt hrest rfl, scanFrom_cons start c first, List.append_assoc, hbytes]
      simp only [Nat.add_assoc]

/-- **Texts that follow one another.** A readable text and another, with a line feed between them, have the lexemes
of the first and then those of the second, as far further on as the second is. -/
theorem scan_append_newline {first : String} (hread : ∀ piece, unreadable piece ∉ scan first) (last : String) :
    scan (first ++ "\n" ++ last) = scan first ++ (scan last).map (shift (first.utf8ByteSize + 1)) := by
  have htext : (first ++ "\n" ++ last).toList = first.toList ++ '\n' :: last.toList := by simp
  unfold scan
  rw [htext, scanFrom_append hread, byteLength_toList, Nat.add_assoc, scanFrom_shift]

end Lexeme

end EntityModel
