import EntityModel.Binary64

/-!
# The fewest digits that read back

A finite value is printed with the fewest decimal digits that lie in its rounding interval, the
nearest to the value among those. Where two are as near, a rule for ties decides. `shortest` selects
the digits, `plain` lays them out without an exponent.
-/

namespace EntityModel.Binary64

/-- The decimal `digits * 10 ^ exponent`. -/
structure Decimal where
  digits : Nat
  exponent : Int
deriving DecidableEq

/-- Which of two integers stands for a value half way between them: the greater, or the even one. -/
inductive Tie where
  | up
  | even
deriving DecidableEq

/-- Whether a tie between an integer and the next one goes to the lower. -/
def Tie.keeps : Tie → Nat → Bool
  | up, _ => false
  | even, below => below % 2 == 0

/-- The multiple of `10 ^ k` that is to stand for the value, if one lies in its rounding interval.
The interval reaches half way to each neighbour, and holds its ends when the significand is even;
below a power of two the lower neighbour is twice as near. All quantities are scaled by the same
power of two and of ten to be integers. -/
def onGrid (x : Binary64) (tie : Tie) (k : Int) : Option Decimal :=
  let q := x.exponent - 2
  let scale := Nat.pow 2 q.toNat * Nat.pow 10 (-k).toNat
  let unit := Nat.pow 2 (-q).toNat * Nat.pow 10 k.toNat
  let m := x.significand
  let value := 4 * m * scale
  let low := (4 * m - if x.fraction == 0 && 1 < x.biased then 1 else 2) * scale
  let high := (4 * m + 2) * scale
  let inside (c : Nat) : Bool :=
    if m % 2 == 0 then low ≤ c * unit && c * unit ≤ high else low < c * unit && c * unit < high
  let below := value / unit
  let twice := 2 * (value - below * unit)
  let nearer := if twice < unit || (twice == unit && tie.keeps below) then below else below + 1
  let farther := if nearer = below then below + 1 else below
  if inside nearer then some ⟨nearer, k⟩ else if inside farther then some ⟨farther, k⟩ else none

/-- The shortest decimal of a finite value other than zero: the coarsest power of ten with a
multiple in the rounding interval. The search starts above the value and needs few steps, since
seventeen digits always suffice. -/
def shortest (x : Binary64) (tie : Tie) : Decimal :=
  let top : Int := ((x.significand.log2 : Int) + x.exponent + 1) * 1233 / 4096 + 2
  ((List.range 24).findSome? fun (i : Nat) => x.onGrid tie (top - i)).getD ⟨0, 0⟩

/-- The digits of a decimal with a point and without an exponent. -/
def Decimal.plain (d : Decimal) : String :=
  let digits := toString d.digits
  let zeros (n : Nat) : String := String.ofList (List.replicate n '0')
  let point : Int := digits.length + d.exponent
  if 0 ≤ d.exponent then digits ++ zeros d.exponent.toNat
  else if 0 < point then
    String.ofList (digits.toList.take point.toNat) ++ "."
      ++ String.ofList (digits.toList.drop point.toNat)
  else "0." ++ zeros (-point).toNat ++ digits

def sign (x : Binary64) : String := if x.isNegative then "-" else ""

/-- The plain text of a value: shortest digits with ties going up, never an exponent, no point after
an integer. -/
def text (x : Binary64) : String :=
  if x.isNaN then "NaN"
  else if x.isSpecial then x.sign ++ "inf"
  else if x.isZero then x.sign ++ "0"
  else x.sign ++ (x.shortest .up).plain

end EntityModel.Binary64
