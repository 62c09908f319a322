import EntityModel.Binary64

/-!
# Reading numbers

A number is written with an optional sign, digits with an optional point among them, and an optional
exponent. Infinity and what is no number have names.
-/

namespace EntityModel.Binary64

/-- A value with the other sign if asked. -/
def special (negative : Bool) (name : List Char) : Option Binary64 :=
  if name ∈ ["inf".toList, "infinity".toList] then some (ofMagnitude negative infinityMagnitude)
  else if name = "nan".toList then some (ofMagnitude negative (infinityMagnitude + Nat.pow 2 51))
  else none

def signedDigits? (text : List Char) : Option Int :=
  let (negative, digits) : Bool × List Char := match text with
    | '-' :: rest => (true, rest)
    | '+' :: rest => (false, rest)
    | rest => (false, rest)
  if digits.isEmpty || !digits.all Char.isDigit then none
  else
    let size : Int := Text.natOfDigits digits
    some (if negative then -size else size)

/-- The exponent after a mantissa, nothing being zero. -/
def exponent? : List Char → Option Int
  | [] => some 0
  | c :: rest => if c = 'e' ∨ c = 'E' then signedDigits? rest else none

def unsigned? (negative : Bool) (text : List Char) : Option Binary64 :=
  let whole := text.takeWhile Char.isDigit
  let (part, rest) : List Char × List Char := match text.dropWhile Char.isDigit with
    | '.' :: after => (after.takeWhile Char.isDigit, after.dropWhile Char.isDigit)
    | after => ([], after)
  if whole.isEmpty && part.isEmpty then special negative (text.map Char.toLower)
  else (exponent? rest).map fun exponent =>
    ofDecimal negative (Text.natOfDigits (whole ++ part)) (exponent - part.length)

/-- The value nearest to the number that a text writes. -/
def read? (text : String) : Option Binary64 :=
  match text.toList with
  | '-' :: rest => unsigned? true rest
  | '+' :: rest => unsigned? false rest
  | rest => unsigned? false rest

end EntityModel.Binary64
