import EntityModel.Token.Scanner

/-!
# Reading tokens one at a time

A reader stands in the lexemes of a text. It hands out the next token, can look at it first, and
remembers where the first unreadable piece stood that it has passed since it was last asked.
-/

namespace EntityModel

/-- A place in the lexemes of a text. `ahead` is the answer of a look ahead that no read has used yet,
itself perhaps the end of the text. -/
structure Reader where
  rest : List Lexeme
  ahead : Option (Option (Spanned Token)) := none
  passed : Option Span := none

namespace Reader

def ofText (text : String) : Reader := { rest := Lexeme.scan text }

/-- The next token of the lexemes, what follows it, and the unreadable piece remembered by then. -/
def advance (passed : Option Span) :
    List Lexeme → Option (Spanned Token) × List Lexeme × Option Span
  | [] => (none, [], passed)
  | .token t :: rest => (some t, rest, passed)
  | .unreadable piece :: rest => advance (passed.or piece.span) rest

def next (r : Reader) : Option (Spanned Token) × Reader :=
  match r.ahead with
  | some token => (token, { r with ahead := none })
  | none =>
    let (token, rest, passed) := advance r.passed r.rest
    (token, { rest, passed })

def peek (r : Reader) : Option (Spanned Token) × Reader :=
  match r.ahead with
  | some token => (token, r)
  | none =>
    let (token, rest, passed) := advance r.passed r.rest
    (token, { rest, ahead := some token, passed })

/-- Hands out the unreadable piece it remembers, and forgets it. -/
def takeUnreadable (r : Reader) : Option Span × Reader := (r.passed, { r with passed := none })

end Reader

end EntityModel
