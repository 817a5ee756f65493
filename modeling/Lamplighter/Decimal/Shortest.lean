import Lamplighter.Decimal.Binary
import Lamplighter.Text.Basic

/-! # The shortest decimal of a binary number

A binary number is written with the fewest digits that read back as the same number, and of those
decimals with the nearest one, or of two equally near ones with the even one. It is found on the
coarsest grid of multiples of a power of ten that has a point in the interval of numbers that round
to the given one. Numbers from `10 ^ -4` to below `10 ^ 16` are written without an exponent.
-/

namespace Lamplighter.Decimal

/-- The numbers that round to a positive binary number, in quarters of its last place: the lower
end, the number itself, the upper end, and whether the ends belong to it. -/
structure Interval where
  low : Nat
  value : Nat
  high : Nat
  closed : Bool

/-- The interval of a mantissa; below a power of two the neighbours are twice as close. -/
def intervalOf (mantissa : Nat) (exponent : Int) : Interval :=
  let narrow := mantissa = Nat.pow 2 (mantissaBits - 1) ∧ leastExponent < exponent
  { low := if narrow then 4 * mantissa - 1 else 4 * mantissa - 2
    value := 4 * mantissa
    high := 4 * mantissa + 2
    closed := mantissa % 2 = 0 }

/-- The point next to the number on the grid of multiples of `10 ^ power`, if the interval has one. -/
def gridPoint? (interval : Interval) (exponent power : Int) : Option Nat :=
  let up := Nat.pow 2 (exponent - 2).toNat * Nat.pow 10 (-power).toNat
  let down := Nat.pow 2 (2 - exponent).toNat * Nat.pow 10 power.toNat
  let inside (point : Nat) : Bool :=
    if interval.closed then interval.low * up ≤ point * down && point * down ≤ interval.high * up
    else interval.low * up < point * down && point * down < interval.high * up
  let below := interval.value * up / down
  let rest := interval.value * up % down
  match inside below, inside (below + 1) with
  | true, true =>
    some (if 2 * rest < down then below else if down < 2 * rest then below + 1 else below + below % 2)
  | true, false => some below
  | false, true => some (below + 1)
  | false, false => none

/-- The powers of ten that can be the last place of a shortest decimal, greatest first. -/
def gridPowers : List Int := (List.range 640).map fun (step : Nat) => 309 - (step : Int)

/-- The shortest decimal of a positive binary number: its digits and the power of ten of the last. -/
def shortest (mantissa : Nat) (exponent : Int) : Nat × Int :=
  let interval := intervalOf mantissa exponent
  (gridPowers.findSome? fun power =>
    (gridPoint? interval exponent power).map fun point => (point, power)).getD (mantissa, 0)

def zeros (count : Int) : Text := List.replicate count.toNat '0'

/-- An exponent with its sign and at least two digits. -/
def exponentText (exponent : Int) : Text :=
  let digits := Nat.toDigits 10 exponent.natAbs
  (if exponent < 0 then '-' else '+') :: zeros (2 - digits.length) ++ digits

/-- Digits with a point, where `point` digits stand before it. -/
def layout (digits : Text) (point : Int) : Text :=
  if -4 < point ∧ point ≤ 16 then
    if point ≤ 0 then '0' :: '.' :: zeros (-point) ++ digits
    else if digits.length ≤ point then digits ++ zeros (point - digits.length) ++ ['.', '0']
    else digits.take point.toNat ++ '.' :: digits.drop point.toNat
  else
    match digits with
    | [digit] => digit :: 'e' :: exponentText (point - 1)
    | digits => digits.take 1 ++ '.' :: digits.drop 1 ++ 'e' :: exponentText (point - 1)

/-- A positive binary number, or zero, as a decimal. -/
def magnitudeText (mantissa : Nat) (exponent : Int) : Text :=
  if mantissa = 0 then ['0', '.', '0']
  else
    let (point, power) := shortest mantissa exponent
    let digits := Nat.toDigits 10 point
    layout digits (digits.length + power)

def signed (negative : Bool) (text : Text) : Text := if negative then '-' :: text else text

def Binary.text : Binary → Text
  | indefinite => "nan".toList
  | infinite negative => signed negative "inf".toList
  | finite negative mantissa exponent => signed negative (magnitudeText mantissa exponent)

end Lamplighter.Decimal
