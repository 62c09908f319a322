import EntityModel.Text.Excerpt
import EntityModel.Token

/-!
# Why a text is no model file

An error has a cause, the place it was found at, and sometimes a hint on what to write.
-/

namespace EntityModel

/-- What the grammar asks for at a place. -/
inductive Expectation where
  | token (token : Token)
  | declaration
  | identifier
  | string
  | integer
  | literal
  | modifier
  | rowEnd
deriving DecidableEq

def Expectation.text : Expectation → String
  | token t => t.describe
  | declaration => "'uses', 'domain' or 'class'"
  | identifier => "identifier"
  | string => "string literal"
  | integer => "integer"
  | literal => "literal value"
  | modifier => "a modifier or ';'"
  | rowEnd => "',' or '\x7d'"

inductive PropertyKind where
  | field
  | association
  | composition
  | alias
deriving DecidableEq

namespace PropertyKind

def text : PropertyKind → String
  | field => "field"
  | association => "association"
  | composition => "composition"
  | .alias => "alias"

/-- The modifiers that a declaration of the kind accepts. -/
def modifiers : PropertyKind → List Keyword
  | field => [.primary, .required, .unique, .many, .default, .label, .column]
  | association => [.required, .many, .role, .label]
  | composition => [.label]
  | .alias => [.label]

end PropertyKind

/-- Why a text is refused. -/
inductive ParseError.Cause where
  | unreadable (text : String)
  | endOfInput
  | expected (what : Expectation) (found : Token)
  | notInDomain (found : Token)
  | notInClass (name : String) (found : Token)
  | duplicateMapping (target : String)
  | duplicateSetting (setting : Keyword)
  | sizeOutOfRange (value : Int)
  | modifierNotAllowed (modifier : Keyword) (kind : PropertyKind)
deriving DecidableEq

def ParseError.Cause.message : ParseError.Cause → String
  | unreadable text => s!"unexpected input '{text}'"
  | endOfInput => "unexpected end of input"
  | expected what found => s!"expected {what.text}, found {found.describe}"
  | notInDomain found => s!"unexpected {found.describe} in domain"
  | notInClass name found => s!"unexpected {found.describe} in class '{name}'"
  | duplicateMapping target => s!"duplicate mapping for target '{target}'"
  | duplicateSetting setting => s!"duplicate '{setting.text}' setting"
  | sizeOutOfRange value => s!"size {value} is out of range"
  | modifierNotAllowed modifier kind =>
    s!"modifier '{modifier.text}' is not allowed on {kind.text} declarations"

structure ParseError where
  cause : ParseError.Cause
  span : Span
  hint : Option String := none
deriving DecidableEq

namespace ParseError

def message (e : ParseError) : String := e.cause.message

/-- The error with the line of the text it was found in. -/
def render (e : ParseError) (text : String) : String :=
  Text.withExcerpt text e.message e.span e.hint

end ParseError

end EntityModel
