import EntityModel.Text.Blank
import EntityModel.Text.Case

/-!
# Names derived from names

Column names in constant case, accessor names in Pascal case, and the parts that roles and alias
affixes add to a column.
-/

namespace EntityModel.Naming

open Text (isUpper isLower upper upperText lowerText)

/-- The characters between words that are dropped. -/
def isSeparator (c : Char) : Bool := c == ' ' || c == '-' || c == '_'

/-- Whether an upper-case character starts a word, from the characters beside it: it does after a
lower-case character or a digit, and as the last capital of an acronym before a lower-case one. -/
def startsWord (previous next : Option Char) : Bool :=
  match previous with
  | none => false
  | some p => isLower p || p.isDigit || (isUpper p && next.any isLower)

/-- Constant case, character by character. `previous` is the character before, and `inWord` says that
something is written and no underscore ends it. -/
def constantCaseFrom (previous : Option Char) (inWord : Bool) : List Char → List Char
  | [] => []
  | c :: rest =>
    if isSeparator c then
      (if inWord then ['_'] else []) ++ constantCaseFrom (some c) false rest
    else
      (if inWord && isUpper c && startsWord previous rest.head? then ['_'] else [])
        ++ upper c ++ constantCaseFrom (some c) true rest

/-- A name in constant case: its words in upper case, joined by underscores. -/
def constantCase (name : String) : String :=
  String.ofList (Text.dropEndWhile (· == '_') (constantCaseFrom none false name.toList))

/-- A word with its first character in upper case; the rest goes to lower case unless it has a
lower-case character already. -/
def capitalize : List Char → List Char
  | [] => []
  | c :: rest => upper c ++ if rest.any isLower then rest else lowerText rest

/-- A name in Pascal case: its words capitalised and run together. -/
def pascalCase (text : String) : String :=
  String.ofList ((text.toList.splitOnP isSeparator).flatMap capitalize)

def uppercase (text : String) : String := String.ofList (upperText text.toList)

/-- What a role adds to a column: the role trimmed, its spaces underscores, in upper case. -/
def roleSuffix (role : String) : String :=
  let words := (Text.trim role.toList).map fun c => if c = ' ' then '_' else c
  uppercase (String.ofList words)

/-- The column of a declared field, after the trigram of its class. -/
def fieldColumn (trigram : Option String) (name : String) : String :=
  match trigram with
  | some trigram => uppercase trigram ++ "_" ++ constantCase name
  | none => constantCase name

/-- A column between the affixes of an alias. -/
def affixColumn (column : String) (before after : Option String) : String :=
  (match before with
    | some affix => constantCase affix ++ "_"
    | none => "")
    ++ column
    ++ match after with
      | some affix => "_" ++ constantCase affix
      | none => ""

end EntityModel.Naming
