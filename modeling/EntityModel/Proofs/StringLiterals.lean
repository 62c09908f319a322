import EntityModel.Declaration.Parser
import EntityModel.Proofs.LexicalRules
import EntityModel.Token.Reader

/-!
# Texts written as string literals

A text is spelled out between quotes character by character: a quote or a backslash behind a backslash, a line feed or
a tab as it is or by its letter behind a backslash, all else as it is. However a text is spelled, none of its quotes
ends the literal and every backslash is read together with the one character behind it, so that the literal is one
token with the text as its value (`Lexeme.scanFrom_spelled`). In particular every text has a literal
(`Lexeme.readsAs_literalOf`).
-/

namespace EntityModel

namespace Piece

/-! ### Spelling -/

/-- What a letter stands for behind a backslash. -/
inductive Escapes : Char → Char → Prop
  | feed : Escapes 'n' '\n'
  | tab : Escapes 't' '\t'
  | backslash : Escapes '\\' '\\'
  | quote : Escapes '"' '"'

/-- A row of characters between quotes spells out a text. -/
inductive Spells : List Char → List Char → Prop
  | nil : Spells [] []
  | plain {c : Char} {body value : List Char} : c ≠ '"' → c ≠ '\\' → Spells body value → Spells (c :: body) (c :: value)
  | escape {letter c : Char} {body value : List Char} : Escapes letter c → Spells body value →
      Spells ('\\' :: letter :: body) (c :: value)

variable {body value : List Char}

theorem Spells.quoted (h : Spells body value) : Quoted body := by
  induction h with
  | nil => exact .nil
  | plain hquote hbackslash _ ih => exact .plain hquote hbackslash ih
  | escape hescape _ ih =>
    refine .escaped ?_ ih
    cases hescape <;> decide

theorem unescape_cons {c : Char} (h : c ≠ '\\') (rest : List Char) : unescape (c :: rest) = c :: unescape rest := by
  rw [unescape]
  -- what is left are the equations for a backslash
  all_goals
    intros
    contradiction

theorem Spells.unescape_eq (h : Spells body value) : unescape body = value := by
  induction h with
  | nil => rfl
  | plain _ hbackslash _ ih => rw [unescape_cons hbackslash, ih]
  | escape hescape _ ih => cases hescape <;> rw [unescape, ih]

theorem first_quote (rest : List Char) : first '"' rest = string rest := by
  rw [first, if_neg (by decide), if_neg (by decide), if_neg (by decide)]

theorem first_spelled (h : Spells body value) (rest : List Char) :
    first '"' (body ++ '"' :: rest) = (.token (.string (String.ofList value)), body.length + 1) := by
  rw [first_quote, string, stringBody_of_quoted h.quoted]
  dsimp only
  rw [h.unescape_eq]

/-! ### Escaping -/

/-- How a character is written between quotes. The quote and the backslash are always escaped, line feeds and tabs
where `feeds` asks for it. -/
def escape (feeds : Bool) (c : Char) : List Char :=
  if c = '"' ∨ c = '\\' then ['\\', c]
  else if feeds = true ∧ c = '\n' then ['\\', 'n']
  else if feeds = true ∧ c = '\t' then ['\\', 't']
  else [c]

theorem spells_escape (feeds : Bool) (value : List Char) : Spells (value.flatMap (escape feeds)) value := by
  induction value with
  | nil => exact .nil
  | cons c value ih =>
    rw [List.flatMap_cons, escape]
    split
    · next hc =>
      rcases hc with rfl | rfl
      · exact .escape .quote ih
      · exact .escape .backslash ih
    · next hc =>
      obtain ⟨hquote, hbackslash⟩ := not_or.mp hc
      split
      · next hfeed => exact hfeed.2 ▸ .escape .feed ih
      · split
        · next htab => exact htab.2 ▸ .escape .tab ih
        · exact .plain hquote hbackslash ih

end Piece

namespace Lexeme

/-! ### Reading -/

/-- A text that is spelled out between quotes is one token, whatever stands behind it. -/
theorem scanFrom_spelled {body value : List Char} (h : Piece.Spells body value) (start : Nat) (rest : List Char) :
    scanFrom start ('"' :: (body ++ '"' :: rest))
      = token ⟨.string (String.ofList value), ⟨start, start + byteLength ('"' :: (body ++ ['"']))⟩⟩
        :: scanFrom (start + byteLength ('"' :: (body ++ ['"']))) rest := by
  have htake : (body ++ '"' :: rest).take (body.length + 1) = body ++ ['"'] := by
    rw [List.take_length_add_append, List.take_succ_cons, List.take_zero]
  have hdrop : (body ++ '"' :: rest).drop (body.length + 1) = rest := by
    rw [List.drop_length_add_append, List.drop_succ_cons, List.drop_zero]
  rw [scanFrom_cons, Piece.first_spelled h, htake, hdrop]
  rfl

/-- A text is read as a string and nothing else. -/
structure ReadsAs (text value : String) : Prop where
  /-- It is one token, and nothing of it is unreadable. -/
  lexemes : scan text = [token ⟨.string value, ⟨0, text.utf8ByteSize⟩⟩]
  tokens : Token.ofText text = [⟨.string value, ⟨0, text.utf8ByteSize⟩⟩]
  /-- A reader hands out the token, and has then nothing left and has passed nothing unreadable. -/
  reader : (Reader.ofText text).next = (some ⟨.string value, ⟨0, text.utf8ByteSize⟩⟩, { rest := [] })
  /-- As a literal it is the string. -/
  literal : ∀ stop, ∃ parsed, Parser.literal stop (scan text) = .ok parsed
    ∧ parsed.value = ⟨.string value, ⟨0, text.utf8ByteSize⟩⟩ ∧ parsed.rest = []

theorem readsAs_of_scan {text value : String} (h : scan text = [token ⟨.string value, ⟨0, text.utf8ByteSize⟩⟩]) :
    ReadsAs text value := by
  refine ⟨h, ?_, ?_, fun stop => ?_⟩
  · rw [Token.ofText, h]
    rfl
  · rw [Reader.ofText, h]
    rfl
  · rw [h]
    exact ⟨_, rfl, rfl, rfl⟩

theorem readsAs_spelled {body : List Char} {value : String} (h : Piece.Spells body value.toList) :
    ReadsAs (String.ofList ('"' :: (body ++ ['"']))) value := by
  refine readsAs_of_scan ?_
  rw [scan, ← byteLength_toList, String.toList_ofList, scanFrom_spelled h, scanFrom, String.ofList_toList, Nat.zero_add]

/-- A string literal with the text as its value. -/
def literalOf (feeds : Bool) (value : String) : String :=
  String.ofList ('"' :: (value.toList.flatMap (Piece.escape feeds) ++ ['"']))

/-- **Every text has a literal**, whether its line feeds and tabs are escaped or not. -/
theorem readsAs_literalOf (feeds : Bool) (value : String) : ReadsAs (literalOf feeds value) value :=
  readsAs_spelled (Piece.spells_escape feeds value.toList)

example : literalOf false "\\n\t" = "\"\\\\n\t\"" ∧ literalOf true "\\n\t" = "\"\\\\n\\t\"" := by decide

end Lexeme

end EntityModel
