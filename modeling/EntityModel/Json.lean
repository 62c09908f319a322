import EntityModel.Binary64.Shortest

/-!
# JSON values and their text

Values with the members of objects in a fixed order, and the two ways to write them: on one line
without blanks, or one item a line with two blanks for each level. Numbers are written with the fewest
digits that read back.
-/

namespace EntityModel

inductive Json where
  | null
  | bool (value : Bool)
  | integer (value : Int)
  | number (value : Binary64)
  | string (value : String)
  | array (items : List Json)
  | object (members : List (String × Json))

namespace Json

/-- A text, or null. -/
def ofText? : Option String → Json
  | some text => .string text
  | none => .null

def hexDigit (n : Nat) : Char := if n < 10 then Char.ofNat (48 + n) else Char.ofNat (87 + n)

/-- A character inside a string. Only quotes, backslashes and control characters are escaped. -/
def escape (c : Char) : List Char :=
  if c = '"' then ['\\', '"']
  else if c = '\\' then ['\\', '\\']
  else if c = '\n' then ['\\', 'n']
  else if c = '\t' then ['\\', 't']
  else if c = '\r' then ['\\', 'r']
  else if c.toNat = 8 then ['\\', 'b']
  else if c.toNat = 12 then ['\\', 'f']
  else if c.toNat < 32 then ['\\', 'u', '0', '0', hexDigit (c.toNat / 16), hexDigit (c.toNat % 16)]
  else [c]

def quote (text : String) : String :=
  "\"" ++ String.ofList (text.toList.flatMap escape) ++ "\""

/-- A decimal in a JSON document: with a point and at least one digit after it when the exponent of
its first digit lies between -5 and 15, otherwise with an exponent and its sign. -/
def decimalText (d : Binary64.Decimal) : String :=
  let digits := (toString d.digits).toList
  let first : Int := digits.length + d.exponent - 1
  if -5 ≤ first ∧ first ≤ 15 then
    if 0 ≤ d.exponent then d.plain ++ ".0" else d.plain
  else
    let mantissa := digits.take 1 ++ if digits.length = 1 then [] else '.' :: digits.drop 1
    String.ofList mantissa ++ "e" ++ (if first < 0 then "-" else "+") ++ toString first.natAbs

/-- A number in a JSON document: shortest digits with ties going to the even one. Infinities and what is
no number are null. -/
def numberText (x : Binary64) : String :=
  if x.isSpecial then "null"
  else x.sign ++ if x.isZero then "0.0" else decimalText (x.shortest .even)

/-- The text of a value that holds no others. -/
def atomText : Json → String
  | null => "null"
  | bool true => "true"
  | bool false => "false"
  | integer value => toString value
  | number value => numberText value
  | string value => quote value
  | array _ => "[]"
  | object _ => "\x7b\x7d"

/-! ## On one line -/

mutual

/-- A value on one line. -/
def compact : Json → String
  | array items => "[" ++ compactItems items ++ "]"
  | object members => "\x7b" ++ compactMembers members ++ "\x7d"
  | atom => atom.atomText

/-- Items with commas between them. -/
def compactItems : List Json → String
  | [] => ""
  | [item] => item.compact
  | item :: items => item.compact ++ "," ++ compactItems items

def compactMembers : List (String × Json) → String
  | [] => ""
  | [(name, value)] => quote name ++ ":" ++ value.compact
  | (name, value) :: members => quote name ++ ":" ++ value.compact ++ "," ++ compactMembers members

end

/-! ## One item a line -/

/-- A line break and the blanks of a level. -/
def newline (level : Nat) : String := "\n" ++ String.ofList (List.replicate (2 * level) ' ')

mutual

/-- A value at a level. -/
def prettyAt (level : Nat) : Json → String
  | array (item :: items) => "[" ++ prettyItems (level + 1) (item :: items) ++ newline level ++ "]"
  | object (member :: members) =>
    "\x7b" ++ prettyMembers (level + 1) (member :: members) ++ newline level ++ "\x7d"
  | atom => atom.atomText

/-- Items on lines of their own. -/
def prettyItems (level : Nat) : List Json → String
  | [] => ""
  | [item] => newline level ++ item.prettyAt level
  | item :: items => newline level ++ item.prettyAt level ++ "," ++ prettyItems level items

def prettyMembers (level : Nat) : List (String × Json) → String
  | [] => ""
  | [(name, value)] => newline level ++ quote name ++ ": " ++ value.prettyAt level
  | (name, value) :: members =>
    newline level ++ quote name ++ ": " ++ value.prettyAt level ++ "," ++ prettyMembers level members

end

/-- A value with one item a line. -/
def pretty (value : Json) : String := value.prettyAt 0

end Json

end EntityModel
