/-!
# Places in a text

Byte ranges of a UTF-8 text, and the line and column that a byte offset stands at. Lines and columns
count from one, columns count characters.
-/

namespace EntityModel

/-- A range of bytes, its end excluded. -/
structure Span where
  start : Nat
  stop : Nat
deriving DecidableEq, Inhabited

namespace Span

/-- The smallest span that covers both. -/
def merge (a b : Span) : Span := ⟨min a.start b.start, max a.stop b.stop⟩

/-- Length in bytes, nothing when the ends are the wrong way round. -/
def length (s : Span) : Nat := s.stop - s.start

/-- A span that holds no byte. -/
def isEmpty (s : Span) : Bool := s.stop ≤ s.start

end Span

/-- A value and the place where it is written. -/
structure Spanned (α : Type) where
  value : α
  span : Span
deriving DecidableEq

/-- A line and a column, both counted from one. -/
structure Location where
  line : Nat
  column : Nat
deriving DecidableEq

namespace Location

def first : Location := ⟨1, 1⟩

/-- The location after one more character. -/
def advance (place : Location) (c : Char) : Location :=
  if c = '\n' then ⟨place.line + 1, 1⟩ else ⟨place.line, place.column + 1⟩

/-- The location `offset` bytes further on, the end of the text if there are fewer. A character is
passed when it starts before the offset. -/
def after (offset : Nat) : List Char → Location → Location
  | [], place => place
  | c :: rest, place =>
    if offset = 0 then place else after (offset - c.utf8Size) rest (place.advance c)

/-- The location of a byte offset in a text. -/
def ofOffset (text : String) (offset : Nat) : Location := after offset text.toList first

/-- Written as `line:column`. -/
def text (place : Location) : String := s!"{place.line}:{place.column}"

end Location

/-- The location where a span starts. -/
def Span.locate (s : Span) (text : String) : Location := Location.ofOffset text s.start

end EntityModel
