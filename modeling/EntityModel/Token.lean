import EntityModel.Binary64.Shortest

/-!
# Tokens of model files

Keywords, punctuation, identifiers and literals, with the words that messages use for them.
-/

namespace EntityModel

inductive Keyword where
  | uses | domain | klass
  | length | scale | map
  | enum | reference | plain
  | trigram | label | key | abstract | dbonly | values
  | field | ref | compose | alias
  | primary | required | unique | many | one | default | column | role
  | true | false | null
deriving DecidableEq

namespace Keyword

def all : List Keyword :=
  [.uses, .domain, .klass, .length, .scale, .map, .enum, .reference, .plain, .trigram, .label,
    .key, .abstract, .dbonly, .values, .field, .ref, .compose, .alias, .primary, .required,
    .unique, .many, .one, .default, .column, .role, .true, .false, .null]

def text : Keyword → String
  | uses => "uses"
  | domain => "domain"
  | klass => "class"
  | length => "length"
  | scale => "scale"
  | map => "map"
  | enum => "enum"
  | reference => "reference"
  | plain => "plain"
  | trigram => "trigram"
  | label => "label"
  | key => "key"
  | abstract => "abstract"
  | dbonly => "dbonly"
  | values => "values"
  | field => "field"
  | ref => "ref"
  | compose => "compose"
  | .alias => "alias"
  | primary => "primary"
  | required => "required"
  | unique => "unique"
  | many => "many"
  | one => "one"
  | default => "default"
  | column => "column"
  | role => "role"
  | true => "true"
  | false => "false"
  | null => "null"

def ofText? (word : String) : Option Keyword := all.find? fun k => k.text == word

end Keyword

inductive Punctuation where
  | arrow | pathSep | colon | semi | comma | assign | lbrace | rbrace
deriving DecidableEq

def Punctuation.text : Punctuation → String
  | arrow => "->"
  | pathSep => "::"
  | colon => ":"
  | semi => ";"
  | comma => ","
  | assign => "="
  | lbrace => "\x7b"
  | rbrace => "\x7d"

/-- A token. Strings hold their value, escapes resolved; integers are those of 64 bits. -/
inductive Token where
  | keyword (word : Keyword)
  | punctuation (mark : Punctuation)
  | ident (name : String)
  | string (value : String)
  | integer (value : Int)
  | number (value : Binary64)
deriving DecidableEq

namespace Token

/-- The token of an identifier-shaped text: a reserved word only when it is all of one. -/
def ofWord (word : String) : Token :=
  match Keyword.ofText? word with
  | some k => .keyword k
  | none => .ident word

/-- How messages speak of a token. -/
def describe : Token → String
  | keyword word => s!"keyword '{word.text}'"
  | punctuation mark => s!"'{mark.text}'"
  | ident name => s!"identifier '{name}'"
  | string value => s!"string \"{value}\""
  | integer value => s!"integer {value}"
  | number value => s!"number {value.text}"

end Token

end EntityModel
