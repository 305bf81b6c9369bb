/-!
# Decimal numerals

Numbers are written with digits and at most one point, never with an exponent.

* `Decimal.naturalOfDigits` is the value of a run of digits.
* `Decimal.ofLiteral` is the value of a literal with or without a point, and `toFloat` the float
  nearest to it.
* `Decimal.integerBound` is where the integers of a schema end.
* `Decimal.toText` writes a decimal positionally.
-/

namespace RpcSchema

/-- The number `digits · 10 ^ exponent`. -/
structure Decimal where
  digits : Nat
  exponent : Int
deriving DecidableEq, Repr

namespace Decimal

/-- The value of one digit. -/
def digitValue (c : Char) : Nat := c.toNat - '0'.toNat

/-- The value of a run of digits, the leading one first. -/
def naturalOfDigits (cs : List Char) : Nat := cs.foldl (fun n c => 10 * n + digitValue c) 0

/-- Integers are below this bound, without their sign: they are words of 64 bits with a sign. -/
def integerBound : Nat := Nat.pow 2 63

/-- The value of digits with at most one point among them. -/
def ofLiteral (cs : List Char) : Decimal :=
  let whole := cs.takeWhile (· ≠ '.')
  let fraction := (cs.dropWhile (· ≠ '.')).drop 1
  ⟨naturalOfDigits (whole ++ fraction), -fraction.length⟩

/-- The float nearest to the number; of two that are equally near, the even one.  Infinity, if the
number is beyond the largest float. -/
def toFloat (d : Decimal) : Float :=
  Float.ofScientific d.digits (decide (d.exponent < 0)) d.exponent.natAbs

/-- The digits of a natural number. -/
def digitsOf (n : Nat) : List Char := Nat.toDigits 10 n

/-- The number written out, with a point only if there is a fraction, and a digit before the
point. -/
def toText (d : Decimal) : List Char :=
  if 0 ≤ d.exponent then digitsOf (d.digits * Nat.pow 10 d.exponent.toNat)
  else
    let places := d.exponent.natAbs
    let digits := digitsOf d.digits
    let padded := List.replicate (places + 1 - digits.length) '0' ++ digits
    padded.take (padded.length - places) ++ '.' :: padded.drop (padded.length - places)

example : (Decimal.mk 15 (-1)).toText = ['1', '.', '5'] := by decide
example : (Decimal.mk 5 (-3)).toText = ['0', '.', '0', '0', '5'] := by decide
example : (Decimal.mk 2 3).toText = ['2', '0', '0', '0'] := by decide

end Decimal

end RpcSchema
