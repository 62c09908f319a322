import EntityModel.Proofs.Nesting

/-!
# Where lexemes stand

Every lexeme of a text is the first piece of what is left of the text where it stands (`Lexeme.exists_piece`). So its
span cuts its characters out of the text: all of them where it cannot be read, and the name where it is an identifier.
-/

namespace EntityModel

/-- A span cuts a piece out of a text: the piece stands in the text from the byte where the span starts to the byte
where it stops. -/
def Span.Cuts (s : Span) (text piece : String) : Prop :=
  ∃ before after, text = before ++ piece ++ after ∧ s.start = before.utf8ByteSize
    ∧ s.stop = before.utf8ByteSize + piece.utf8ByteSize

/-- A span lies in a text, from one character to another. -/
def Span.LiesIn (s : Span) (text : String) : Prop := ∃ piece, s.Cuts text piece

theorem Span.cuts_end (text : String) : Span.Cuts ⟨text.utf8ByteSize, text.utf8ByteSize⟩ text "" :=
  ⟨text, "", by simp, rfl, rfl⟩

namespace Piece

theorem number_ne_ident (negative : Bool) (text : List Char) (name : String) :
    (number negative text).1 ≠ .token (.ident name) := by
  have hinteger (valid : Bool) (value : Int) :
      (if valid = true then token (.integer value) else unreadable) ≠ .token (.ident name) := by
    cases valid <;> simp
  unfold number
  dsimp only
  split
  · split
    · exact hinteger _ _
    · simp
  · exact hinteger _ _

theorem string_ne_ident (text : List Char) (name : String) : (string text).1 ≠ .token (.ident name) := by
  unfold string
  split <;> simp

/-- A name is all of its piece. -/
theorem eq_of_first_ident {c : Char} {rest : List Char} {name : String} (h : (first c rest).1 = .token (.ident name)) :
    name = String.ofList (c :: rest.take (first c rest).2) := by
  unfold first at h ⊢
  by_cases hspace : isSpace c = true
  · rw [if_pos hspace] at h
    cases h
  by_cases hword : startsWord c = true
  · simp only [hspace, hword, Bool.false_eq_true, if_true, if_false] at h ⊢
    rw [← List.prefix_iff_eq_take.mp (List.takeWhile_prefix inWord)]
    unfold Token.ofWord at h
    split at h
    · cases h
    · cases h
      rfl
  by_cases hdigit : c.isDigit = true
  · simp only [hspace, hword, hdigit, Bool.false_eq_true, if_true, if_false] at h
    exact absurd h (number_ne_ident false (c :: rest) name)
  -- what starts with no letter is no name
  simp only [hspace, hword, hdigit, Bool.false_eq_true, if_false] at h
  split at h
  · exact absurd h (string_ne_ident rest name)
  · cases h
  · cases h
  · split at h
    · exact absurd h (number_ne_ident true _ name)
    · cases h
  all_goals cases h

end Piece

namespace Lexeme

theorem exists_piece {start : Nat} {text : List Char} {l : Lexeme} (h : l ∈ scanFrom start text) :
    ∃ before c rest, text = before ++ c :: rest
      ∧ ofPiece? (Piece.first c rest).1 (c :: rest.take (Piece.first c rest).2)
        ⟨start + byteLength before, start + byteLength before + byteLength (c :: rest.take (Piece.first c rest).2)⟩
        = some l := by
  obtain ⟨n, hn⟩ : ∃ n, text.length = n := ⟨_, rfl⟩
  induction n using Nat.strongRecOn generalizing start text with
  | ind n ih =>
    rcases text with _ | ⟨c, text⟩
    · rw [scanFrom] at h
      exact absurd h List.not_mem_nil
    · rw [scanFrom_cons] at h
      rcases List.mem_append.mp h with h | h
      · exact ⟨[], c, text, rfl, Option.mem_toList.mp h⟩
      · have hlt : (text.drop (Piece.first c text).2).length < n := by
          rw [← hn, List.length_cons]
          exact Nat.lt_succ_of_le (List.drop_sublist _ _).length_le
        obtain ⟨before, d, rest, hrest, hl⟩ := ih _ hlt h rfl
        refine ⟨c :: text.take (Piece.first c text).2 ++ before, d, rest, ?_, ?_⟩
        · rw [List.append_assoc, ← hrest, List.cons_append, List.take_append_drop]
        · rw [byteLength_append, ← Nat.add_assoc]
          exact hl

theorem exists_cut {text : String} {l : Lexeme} (h : l ∈ scan text) : ∃ c rest,
    l.span.Cuts text (String.ofList (c :: rest.take (Piece.first c rest).2))
      ∧ ofPiece? (Piece.first c rest).1 (c :: rest.take (Piece.first c rest).2) l.span = some l := by
  obtain ⟨before, c, rest, htext, hl⟩ := exists_piece h
  have hspan := span_of_ofPiece? hl
  refine ⟨c, rest, ⟨String.ofList before, String.ofList (rest.drop (Piece.first c rest).2), ?_, ?_, ?_⟩, hspan ▸ hl⟩
  · rw [← String.toList_inj, htext]
    simp
  · rw [hspan, Nat.zero_add, ← byteLength_toList, String.toList_ofList]
  · rw [hspan, Nat.zero_add, ← byteLength_toList, ← byteLength_toList, String.toList_ofList, String.toList_ofList]

theorem exists_opening {text : String} {l : Lexeme} (h : l ∈ scan text) :
    ∃ piece, l.span.Cuts text piece ∧ ∀ c ∈ piece.toList.head?, Piece.isSpace c = false := by
  obtain ⟨c, rest, hcut, hl⟩ := exists_cut h
  refine ⟨_, hcut, fun d hd => ?_⟩
  rw [String.toList_ofList, List.head?_cons] at hd
  obtain rfl := Option.some.inj hd
  cases hspace : Piece.isSpace c with
  | false => rfl
  | true =>
    unfold Piece.first at hl
    rw [if_pos hspace] at hl
    cases hl

theorem cuts_of_unreadable {text : String} {piece : Spanned String} (h : unreadable piece ∈ scan text) :
    piece.span.Cuts text piece.value := by
  obtain ⟨value, s⟩ := piece
  obtain ⟨c, rest, hcut, hl⟩ := exists_cut h
  dsimp only [span] at hl hcut
  rcases hpiece : (Piece.first c rest).1 with _ | t | _ <;> rw [hpiece] at hl <;> cases hl
  exact hcut

theorem cuts_of_ident {text name : String} {s : Span} (h : token ⟨.ident name, s⟩ ∈ scan text) : s.Cuts text name := by
  obtain ⟨c, rest, hcut, hl⟩ := exists_cut h
  dsimp only [span] at hl hcut
  rcases hpiece : (Piece.first c rest).1 with _ | t | _ <;> rw [hpiece] at hl <;> cases hl
  rw [Piece.eq_of_first_ident hpiece]
  exact hcut

end Lexeme

end EntityModel
