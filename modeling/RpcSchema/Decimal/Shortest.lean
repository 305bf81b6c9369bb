import RpcSchema.Decimal.Basic

/-!
# The shortest decimal that reads back

A float is shown with the fewest digits that read back to the same float, and of the decimals with
that many digits with the nearest one.

The decimals with a fixed last place form a grid.  If any point of a grid lies in the interval of
numbers that round to the float, one of the two grid points around the float does.  So the grids are
tried from the coarsest to the finest, and on each only those two points are tested; the first grid
with a hit has the fewest digits.

* `Interval` is a float's value with the bounds of what rounds to it, as integers over one
  denominator.
* `Interval.onGrid?` tests one grid, `Interval.shortest` searches them all.
* `floatText` is the text of a float that is not negative.
-/

namespace RpcSchema.Decimal

/-- A float's value, and the numbers that round to it, all over the denominator `unit`.  The two ends
belong to the interval if `closed`. -/
structure Interval where
  low : Nat
  value : Nat
  high : Nat
  unit : Nat
  closed : Bool

namespace Interval

/-- Whether the number `n / d` rounds to the float. -/
def holds (i : Interval) (n d : Nat) : Bool :=
  if i.closed then i.low * d ≤ n * i.unit && n * i.unit ≤ i.high * d
  else i.low * d < n * i.unit && n * i.unit < i.high * d

/-- The point of the grid `step · ℕ` that is nearest to the float's value among those around it that
round to the float; of two that are equally near, the upper.  The step is the fraction `n / d`. -/
def onGrid? (i : Interval) (n d : Nat) : Option Nat :=
  let scaled := i.value * d
  let step := n * i.unit
  let below := scaled / step
  match i.holds (below * n) d, i.holds ((below + 1) * n) d with
  | true, true => some (if 2 * (scaled - below * step) < step then below else below + 1)
  | true, false => some below
  | false, true => some (below + 1)
  | false, false => none

/-- The coarsest grid that is tried has the step `10 ^ 309`, beyond the largest float. -/
def coarsest : Int := 309

/-- The first hit, from the grid with `tries` finer ones down to the finest; the number zero if no
grid has one. -/
def search (i : Interval) (finest : Int) : Nat → Decimal
  | 0 => ⟨0, 0⟩
  | tries + 1 =>
    let exponent := finest + tries
    let hit := if 0 ≤ exponent then i.onGrid? (Nat.pow 10 exponent.toNat) 1
      else i.onGrid? 1 (Nat.pow 10 exponent.natAbs)
    match hit with
    | some digits => ⟨digits, exponent⟩
    | none => i.search finest tries

/-- The shortest decimal that rounds to the float.  On the finest grid, of step `10 ^ (-1080)`, the
interval of every float has a point, since it is wider than `2 ^ (-1076)`. -/
def shortest (i : Interval) : Decimal := i.search (-1080) (1080 + coarsest.toNat + 1)

end Interval

/-- The parts of a float that is finite and not negative: an integer `m` and an exponent `q`, with the
value `m · 2 ^ q`, and whether the next lower float has a smaller exponent. -/
structure Binary where
  mantissa : Nat
  exponent : Int
  lowest : Bool

/-- The exponent in the bits of a float: eleven bits, above the fifty-two of the fraction. -/
def exponentField (bits : Nat) : Nat := bits / Nat.pow 2 52 % Nat.pow 2 11

/-- The parts of the float with the given bits, the sign left out. -/
def Binary.ofBits (bits : Nat) : Binary :=
  let exponent := exponentField bits
  let fraction := bits % Nat.pow 2 52
  if exponent = 0 then ⟨fraction, -1074, false⟩
  else ⟨Nat.pow 2 52 + fraction, (exponent : Int) - 1075, fraction = 0 && exponent != 1⟩

/-- The numbers that round to a float.  They reach halfway to its two neighbours; halfway itself rounds
to the float whose integer part is even. -/
def Binary.interval (b : Binary) : Interval :=
  let scale := if 2 ≤ b.exponent then Nat.pow 2 (b.exponent - 2).toNat else 1
  { low := (4 * b.mantissa - (if b.lowest then 1 else 2)) * scale
    value := 4 * b.mantissa * scale
    high := (4 * b.mantissa + 2) * scale
    unit := if 2 ≤ b.exponent then 1 else Nat.pow 2 (2 - b.exponent).toNat
    closed := b.mantissa % 2 = 0 }

/-- The text of a float that is not negative: its shortest decimal, written positionally, and `inf`
for infinity. -/
def floatText (f : Float) : String :=
  let bits := f.toBits.toNat
  if exponentField bits = 2047 then "inf"
  else if bits % Nat.pow 2 63 = 0 then "0"
  else String.ofList (Binary.ofBits bits).interval.shortest.toText

end RpcSchema.Decimal
