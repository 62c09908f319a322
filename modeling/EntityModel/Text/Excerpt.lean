import EntityModel.Span
import EntityModel.Text.Blank

/-!
# Messages with an excerpt of the text

A message about a span is shown with the line it starts on and a marker under it: a caret at the
column, then one tilde for each further unit of the span on that line.
-/

namespace EntityModel.Text

/-- A number right-aligned in three places. -/
def lineNumber (n : Nat) : String :=
  let digits := toString n
  String.ofList (List.replicate (3 - digits.length) ' ') ++ digits

/-- The marker line for a span of `length` bytes that starts at `column` of `line`. -/
def marker (line : List Char) (column length : Nat) : String :=
  let room := (String.ofList line).utf8ByteSize - (column - 1)
  String.ofList (List.replicate column ' ' ++ '^' :: List.replicate (min length room - 1) '~')

/-- The excerpt: a margin, the numbered line, and the marker. Empty when the text has no such line. -/
def excerpt (text : String) (span : Span) : String :=
  let place := span.locate text
  match (lines text.toList)[place.line - 1]? with
  | none => ""
  | some line =>
    s!"   |\n{lineNumber place.line}| {String.ofList line}\n   |"
      ++ marker line place.column span.length ++ "\n"

/-- A message, where it applies, the excerpt and an optional hint, each on lines of its own. -/
def withExcerpt (text message : String) (span : Span) (hint : Option String) : String :=
  s!"error: {message}\n  --> line {(span.locate text).text}\n" ++ excerpt text span
    ++ match hint with
      | some hint => s!"   = hint: {hint}\n"
      | none => ""

end EntityModel.Text
