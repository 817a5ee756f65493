/-! # Binary fractions

The numbers with 53 significant bits and eleven bits for the exponent, with signed zeros, infinities
and the indefinite value. A decimal numeral denotes the nearest of them, and of two equally near
ones that with the even mantissa.
-/

namespace Lamplighter.Decimal

/-- A number with 53 significant bits: `mantissa * 2 ^ exponent`, or one past all of these. -/
inductive Binary where
  | indefinite
  | infinite (negative : Bool)
  | finite (negative : Bool) (mantissa : Nat) (exponent : Int)
deriving DecidableEq, Repr

def leastExponent : Int := -1074

def greatestExponent : Int := 971

def mantissaBits : Nat := 53

/-- The quotient of two numbers, rounded to the nearest one, and to the even one of two. -/
def divideNearest (num den : Nat) : Nat :=
  let quotient := num / den
  let twice := 2 * (num % den)
  if twice < den then quotient
  else if den < twice then quotient + 1
  else quotient + quotient % 2

/-- A quotient divided by a power of two, as a quotient. -/
def shiftQuotient (num den : Nat) (exponent : Int) : Nat × Nat :=
  (num * Nat.pow 2 (-exponent).toNat, den * Nat.pow 2 exponent.toNat)

/-- The exponent for the binary number nearest to a positive quotient. -/
def exponentFor (num den : Nat) : Int :=
  let estimate : Int := Nat.log2 num - Nat.log2 den - mantissaBits
  let (num, den) := shiftQuotient num den estimate
  max leastExponent (if den * Nat.pow 2 mantissaBits ≤ num then estimate + 1 else estimate)

/-- The binary number nearest to a positive quotient. -/
def ofQuotient (negative : Bool) (num den : Nat) : Binary :=
  let exponent := exponentFor num den
  let (num, den) := shiftQuotient num den exponent
  let mantissa := divideNearest num den
  let (mantissa, exponent) :=
    if mantissa = Nat.pow 2 mantissaBits then (Nat.pow 2 (mantissaBits - 1), exponent + 1)
    else (mantissa, exponent)
  if greatestExponent < exponent then .infinite negative else .finite negative mantissa exponent

/-- The power of ten below which every number rounds to zero, and above which none is finite. -/
def decimalRange : Int × Int := (-330, 310)

/-- The binary number nearest to `digits * 10 ^ exponent`. -/
def ofDecimal (negative : Bool) (digits : Nat) (exponent : Int) : Binary :=
  let size : Int := (Nat.toDigits 10 digits).length + exponent
  if digits = 0 ∨ size < decimalRange.1 then .finite negative 0 leastExponent
  else if decimalRange.2 < size then .infinite negative
  else ofQuotient negative (digits * Nat.pow 10 exponent.toNat) (Nat.pow 10 (-exponent).toNat)

end Lamplighter.Decimal
