import EntityModel.Binary64.Shortest

/-!
# Literal values

The values that defaults and rows are written with.
-/

namespace EntityModel

inductive Literal where
  | null
  | bool (value : Bool)
  | integer (value : Int)
  | number (value : Binary64)
  | string (value : String)
deriving DecidableEq

/-- Equality of values: that of numbers for two numbers. -/
def Literal.equals : Literal → Literal → Bool
  | number x, number y => x.equals y
  | a, b => a == b

/-- A literal as messages and tables show it. A string stands between quotes as it is. -/
def Literal.text : Literal → String
  | null => "null"
  | bool true => "true"
  | bool false => "false"
  | integer value => toString value
  | number value => value.text
  | string value => s!"\"{value}\""

end EntityModel
