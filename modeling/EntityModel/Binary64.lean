/-!
# Double-precision numbers

The values of the 64-bit binary format, kept as their bits: a sign, eleven bits of exponent, and a
fraction of fifty-two bits. A decimal is read as the nearest value, a tie going to the even one, by
exact arithmetic on natural numbers.
-/

namespace EntityModel

/-- A value of the 64-bit binary format. Two are one if their bits are; the comparison of numbers is
`Binary64.equals`. -/
structure Binary64 where
  bits : UInt64
deriving DecidableEq

namespace Binary64

/-- The sign bit. -/
def isNegative (x : Binary64) : Bool := x.bits.toNat / Nat.pow 2 63 == 1

def biased (x : Binary64) : Nat := x.bits.toNat / Nat.pow 2 52 % Nat.pow 2 11

def fraction (x : Binary64) : Nat := x.bits.toNat % Nat.pow 2 52

/-- Infinities and values that are no number. -/
def isSpecial (x : Binary64) : Bool := x.biased == 2047

def isNaN (x : Binary64) : Bool := x.isSpecial && x.fraction != 0

/-- Zero of either sign. -/
def isZero (x : Binary64) : Bool := x.biased == 0 && x.fraction == 0

/-- Equality of numbers: zero equals zero of either sign, and what is no number equals nothing. -/
def equals (x y : Binary64) : Bool := !x.isNaN && !y.isNaN && (x == y || x.isZero && y.isZero)

/-- The integer `m` of a finite value `m * 2 ^ q`. -/
def significand (x : Binary64) : Nat :=
  if x.biased == 0 then x.fraction else Nat.pow 2 52 + x.fraction

/-- The exponent `q` of a finite value `m * 2 ^ q`. -/
def exponent (x : Binary64) : Int := max x.biased 1 - 1075

/-- The value with a given sign and the remaining sixty-three bits. -/
def ofMagnitude (negative : Bool) (magnitude : Nat) : Binary64 :=
  ⟨UInt64.ofNat (magnitude + if negative then Nat.pow 2 63 else 0)⟩

def infinityMagnitude : Nat := 2047 * Nat.pow 2 52

/-- A quotient rounded to the nearest integer, a tie going to the even one. -/
def roundQuotient (num den : Nat) : Nat :=
  let q := num / den
  let twice := 2 * (num % den)
  if twice < den || (twice == den && q % 2 == 0) then q else q + 1

/-- The magnitude nearest to the positive quotient `num / den`. The exponent is the one that gives
the quotient fifty-three bits, or the least there is; a rounding up that carries out of the
significand then falls into the exponent, and past the greatest one into infinity. -/
def nearestMagnitude (num den : Nat) : Nat :=
  let estimate : Int := (num.log2 : Int) - den.log2 - 52
  let scaled (q : Int) : Nat × Nat := (num * Nat.pow 2 (-q).toNat, den * Nat.pow 2 q.toNat)
  let exact : Int :=
    let (n, d) := scaled estimate
    if n < d * Nat.pow 2 52 then estimate - 1 else estimate
  let q := max exact (-1074)
  let (n, d) := scaled q
  min ((q + 1074).toNat * Nat.pow 2 52 + roundQuotient n d) infinityMagnitude

/-- The value nearest to `digits * 10 ^ exponent`, with a sign. -/
def ofDecimal (negative : Bool) (digits : Nat) (exponent : Int) : Binary64 :=
  if digits = 0 then ofMagnitude negative 0
  else if exponent + digits.log2 / 3 + 1 < -330 then ofMagnitude negative 0
  else if 310 < exponent then ofMagnitude negative infinityMagnitude
  else ofMagnitude negative
    (nearestMagnitude (digits * Nat.pow 10 exponent.toNat) (Nat.pow 10 (-exponent).toNat))

end Binary64

/-- The number that a row of decimal digits writes. -/
def Text.natOfDigits (digits : List Char) : Nat :=
  digits.foldl (fun n d => 10 * n + (d.toNat - 48)) 0

end EntityModel
