import EntityModel.Proofs.LookAhead
import EntityModel.Proofs.Recognition

/-!
# Parsing from a reader

Parsers take lexemes from a list. The same lexemes can be had from a reader, with or without a look at the next token
before (`Reader.At`): a parser that takes a token gets what the reader hands out if the reader has passed nothing
unreadable on the way, and fails otherwise (`Parser.next_agrees`); a parser that may take a token takes what the look
ahead shows, if that is acceptable and nothing unreadable is in the way (`Parser.optional_agrees`). All other parsers
are made of these two (`Parser.loop_eq`, `Declaration.parseItems_eq`).
-/

namespace EntityModel

namespace Reader

/-- A reader is before some lexemes, and has looked at the next token at most. -/
def At (r : Reader) (input : List Lexeme) : Prop :=
  r = { rest := input } ∨ r = (peek { rest := input }).2

/-- What a reader says that is asked for a token, and then for unreadable pieces: the token, with the reader behind
it, an unreadable piece on the way, or that the text is over. -/
inductive Reading where
  | token (t : Spanned Token) (behind : Reader)
  | refused (piece : Span)
  | over

/-- Asks for a token, and then for unreadable pieces. -/
def read (r : Reader) : Reading :=
  match r.next.2.takeUnreadable, r.next.1 with
  | (some piece, _), _ => .refused piece
  | (none, behind), some t => .token t behind
  | (none, _), none => .over

variable {r : Reader} {input rest : List Lexeme}

theorem at_ofText (text : String) : (ofText text).At (Lexeme.scan text) := .inl rfl

theorem At.peek_eq (h : r.At input) : r.peek = peek { rest := input } := by
  rcases h with rfl | rfl <;> rfl

theorem At.peek (h : r.At input) : r.peek.2.At input := .inr (congrArg Prod.snd h.peek_eq)

theorem At.next_eq (h : r.At input) : r.next = next { rest := input } := by
  rcases h with rfl | rfl <;> rfl

theorem At.read_eq (h : r.At input) : r.read = read { rest := input } := by
  rw [read, h.next_eq, read]

theorem read_token (t : Spanned Token) (rest : List Lexeme) : read { rest := .token t :: rest } = .token t { rest } :=
  rfl

theorem read_nil : read { rest := [] } = .over := rfl

theorem advance_passed (piece : Span) (rest : List Lexeme) : (advance (some piece) rest).2.2 = some piece := by
  obtain ⟨_, -, ⟨_, _, _, hadvance⟩ | ⟨_, hadvance⟩⟩ := advance_spec (some piece) rest <;> rw [hadvance] <;> rfl

theorem read_unreadable (piece : Spanned String) (rest : List Lexeme) :
    read { rest := .unreadable piece :: rest } = .refused piece.span := by
  have hpassed : (next { rest := .unreadable piece :: rest }).2.passed = some piece.span := advance_passed _ rest
  rw [read, takeUnreadable, hpassed]

theorem peek_token (t : Spanned Token) (rest : List Lexeme) : (Reader.peek { rest := .token t :: rest }).1 = some t :=
  rfl

/-- The lexemes are over if a look ahead finds no token and nothing unreadable has been passed. -/
theorem At.eq_nil_iff (h : r.At input) : input = [] ↔ r.peek.1 = none ∧ r.peek.2.takeUnreadable.1 = none := by
  rw [h.peek_eq]
  rcases input with _ | ⟨t | piece, rest⟩
  · exact iff_of_true rfl ⟨rfl, rfl⟩
  · exact iff_of_false (List.cons_ne_nil _ _) fun hpeek => Option.some_ne_none t hpeek.1
  · refine iff_of_false (List.cons_ne_nil _ _) fun hpeek => ?_
    have hpassed : (Reader.peek { rest := .unreadable piece :: rest }).2.passed = some piece.span :=
      advance_passed _ rest
    exact Option.some_ne_none piece.span (hpassed.symm.trans hpeek.2)

end Reader

namespace Parser

open Reader (Reading)

variable {α : Type} {r : Reader} {input : List Lexeme} {stop : Nat}

/-- A parser that takes a token comes to what a reader says. -/
inductive Agrees (stop : Nat) (input : List Lexeme) : Reading → Except ParseError (Parsed (Spanned Token) input) → Prop
  | token {t : Spanned Token} {rest : List Lexeme} {h : rest.length ≤ input.length} :
      Agrees stop input (.token t { rest }) (.ok ⟨t, rest, h⟩)
  | refused (piece : Spanned String) :
      Agrees stop input (.refused piece.span) (.error ⟨.unreadable piece.value, piece.span, none⟩)
  | over : Agrees stop input .over (.error ⟨.endOfInput, ⟨stop, stop⟩, none⟩)

/-- **The next token is that of the reader.** -/
theorem next_agrees (h : r.At input) (stop : Nat) : Agrees stop input r.read (next stop input) := by
  rw [h.read_eq]
  rcases input with _ | ⟨t | piece, rest⟩
  · rw [Reader.read_nil]
    exact .over
  · rw [Reader.read_token]
    exact .token
  · rw [Reader.read_unreadable]
    exact .refused piece

/-- What a parser comes to that may take a token, after a look ahead of a reader. A token that it does not accept is
left, and so is one behind something unreadable, which the next call for a token reports. -/
inductive Chooses (accept : Token → Option α) (r : Reader) (input : List Lexeme) :
    Except ParseError (Parsed (Option (Spanned α)) input) → Prop
  | taken {t : Spanned Token} {a : α} {rest : List Lexeme} {h : rest.length ≤ input.length} : r.peek.1 = some t →
      accept t.value = some a → r.peek.2.read = .token t { rest } →
      Chooses accept r input (.ok ⟨some ⟨a, t.span⟩, rest, h⟩)
  | declined : r.peek.1.bind (accept ·.value) = none →
      Chooses accept r input (.ok ⟨none, input, Nat.le_refl _⟩)
  | refused {piece : Span} : r.peek.2.read = .refused piece →
      Chooses accept r input (.ok ⟨none, input, Nat.le_refl _⟩)

/-- **An optional token is one that the reader sees ahead.** -/
theorem optional_agrees (h : r.At input) (accept : Token → Option α) (stop : Nat) :
    Chooses accept r input (optional accept stop input) := by
  have hread := h.peek.read_eq
  have hpeek := congrArg Prod.fst h.peek_eq
  rcases input with _ | ⟨t | piece, rest⟩
  · exact .declined (by rw [hpeek]; rfl)
  · rw [Reader.peek_token] at hpeek
    rw [Reader.read_token] at hread
    unfold optional
    dsimp only
    split
    · next a ha => exact .taken hpeek ha hread
    · next ha => exact .declined (by rw [hpeek, Option.bind_some, ha])
  · rw [Reader.read_unreadable] at hread
    exact .refused hread

end Parser

/-- The declarations of a file end where a look ahead shows the end of the text. Before that, each takes a token and
what belongs to it. -/
theorem Declaration.parseItems_eq (stop : Nat) (file : File) {r : Reader} {input : List Lexeme} (h : r.At input) :
    (r.peek.1 = none ∧ r.peek.2.takeUnreadable.1 = none → parseItems stop file input = .ok file)
      ∧ (¬ (r.peek.1 = none ∧ r.peek.2.takeUnreadable.1 = none) → parseItems stop file input
        = match (Parser.next >>= parseItem file) stop input with
          | .error e => .error e
          | .ok ⟨file', rest, _⟩ => parseItems stop file' rest) := by
  rw [← h.eq_nil_iff]
  refine ⟨?_, fun hinput => ?_⟩
  · rintro rfl
    rw [parseItems]
  · rcases input with _ | ⟨t | piece, rest⟩
    · exact absurd rfl hinput
    · have hbind : (Parser.next >>= parseItem file) = Parser.andThen Parser.next (parseItem file) := rfl
      rw [parseItems, hbind, Parser.andThen, Parser.next]
      dsimp only
      rcases parseItem file t stop rest with e | ⟨file', rest', hle⟩ <;> rfl
    · rw [parseItems]
      rfl

end EntityModel
