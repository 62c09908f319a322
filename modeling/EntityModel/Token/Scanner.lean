import EntityModel.Span
import EntityModel.Token

/-!
# From text to lexemes

A text is cut from left to right into gaps (blanks and comments), tokens and unreadable pieces. Each
piece is the longest that its first character allows and holds at least that character, so what
remains is shorter. Main definitions: `Piece.first` for one piece, `Lexeme.scan` for the whole text.
-/

namespace EntityModel

/-- What the first characters of a text form. -/
inductive Piece where
  | gap
  | token (token : Token)
  | unreadable
deriving DecidableEq

namespace Piece

/-- The characters between tokens. -/
def isSpace (c : Char) : Bool := c == ' ' || c == '\t' || c == '\r' || c == '\n'

def startsWord (c : Char) : Bool := c.isAlpha || c == '_'

def inWord (c : Char) : Bool := c.isAlphanum || c == '_'

/-- The value of a string literal's body. An escape other than the four known ones stands for
itself, backslash included. -/
def unescape : List Char → List Char
  | [] => []
  | '\\' :: 'n' :: rest => '\n' :: unescape rest
  | '\\' :: 't' :: rest => '\t' :: unescape rest
  | '\\' :: '\\' :: rest => '\\' :: unescape rest
  | '\\' :: '"' :: rest => '"' :: unescape rest
  | '\\' :: c :: rest => '\\' :: c :: unescape rest
  | c :: rest => c :: unescape rest

/-- The body of a string literal after its opening quote, and whether a closing quote follows. A
backslash takes the next character with it, which may be no line feed. -/
def stringBody : List Char → List Char × Bool
  | [] => ([], false)
  | '"' :: _ => ([], true)
  | '\\' :: c :: rest =>
    if c = '\n' then ([], false)
    else let (body, closed) := stringBody rest; ('\\' :: c :: body, closed)
  | ['\\'] => ([], false)
  | c :: rest => let (body, closed) := stringBody rest; (c :: body, closed)

/-- The integers of 64 bits. -/
def isInt64 (value : Int) : Bool := -0x8000000000000000 ≤ value && value < 0x8000000000000000

/-- A string literal, given what follows its opening quote. -/
def string (rest : List Char) : Piece × Nat :=
  match stringBody rest with
  | (body, true) => (.token (.string (String.ofList (unescape body))), body.length + 1)
  | (body, false) => (.unreadable, body.length)

/-- A number, given its text without the sign. A point belongs to it when a digit follows; an
integer outside 64 bits is unreadable. -/
def number (negative : Bool) (text : List Char) : Piece × Nat :=
  let whole := text.takeWhile Char.isDigit
  let integer : Piece × Nat :=
    let size : Int := Text.natOfDigits whole
    let value := if negative then -size else size
    (if isInt64 value then .token (.integer value) else .unreadable, whole.length)
  match text.dropWhile Char.isDigit with
  | '.' :: rest =>
    match rest.takeWhile Char.isDigit with
    | [] => integer
    | part => (.token (.number (Binary64.ofDecimal negative (Text.natOfDigits (whole ++ part))
        (-part.length))), whole.length + 1 + part.length)
  | _ => integer

def mark (p : Punctuation) : Piece × Nat := (.token (.punctuation p), 0)

/-- The piece that starts with `c`, and how many of the characters after `c` belong to it. -/
def first (c : Char) (rest : List Char) : Piece × Nat :=
  if isSpace c then (.gap, (rest.takeWhile isSpace).length)
  else if startsWord c then
    let tail := rest.takeWhile inWord
    (.token (.ofWord (String.ofList (c :: tail))), tail.length)
  else if c.isDigit then
    let (piece, n) := number false (c :: rest)
    (piece, n - 1)
  else match c, rest with
    | '"', _ => string rest
    | '/', '/' :: _ => (.gap, (rest.takeWhile (· ≠ '\n')).length)
    | '-', '>' :: _ => (.token (.punctuation .arrow), 1)
    | '-', d :: _ => if d.isDigit then number true rest else (.unreadable, 0)
    | ':', ':' :: _ => (.token (.punctuation .pathSep), 1)
    | ':', _ => mark .colon
    | ';', _ => mark .semi
    | ',', _ => mark .comma
    | '=', _ => mark .assign
    | '{', _ => mark .lbrace
    | '}', _ => mark .rbrace
    | _, _ => (.unreadable, 0)

end Piece

/-- A token or an unreadable piece, where it stands in the text. -/
inductive Lexeme where
  | token (token : Spanned Token)
  | unreadable (text : Spanned String)
deriving DecidableEq

namespace Lexeme

/-- The bytes of a row of characters. -/
def byteLength (text : List Char) : Nat := text.foldr (fun c n => c.utf8Size + n) 0

/-- The lexeme of a piece, if it is no gap. -/
def ofPiece? (piece : Piece) (text : List Char) (span : Span) : Option Lexeme :=
  match piece with
  | .gap => none
  | .token t => some (.token ⟨t, span⟩)
  | .unreadable => some (.unreadable ⟨String.ofList text, span⟩)

/-- The lexemes of a text that starts at a byte offset. -/
def scanFrom (start : Nat) : List Char → List Lexeme
  | [] => []
  | c :: rest =>
    let (piece, n) := Piece.first c rest
    let text := c :: rest.take n
    let stop := start + byteLength text
    have : (rest.drop n).length < rest.length + 1 :=
      Nat.lt_succ_of_le (List.drop_sublist n rest).length_le
    (ofPiece? piece text ⟨start, stop⟩).toList ++ scanFrom stop (rest.drop n)
termination_by text => text.length
decreasing_by exact this

/-- The lexemes of a text. -/
def scan (text : String) : List Lexeme := scanFrom 0 text.toList

def token? : Lexeme → Option (Spanned Token)
  | token t => some t
  | unreadable _ => none

end Lexeme

/-- The tokens of a text, unreadable pieces left out. -/
def Token.ofText (text : String) : List (Spanned Token) := (Lexeme.scan text).filterMap Lexeme.token?

end EntityModel
