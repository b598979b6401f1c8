/-!
# Shortest decimals

The decimal number with the fewest digits that reads back to a given binary fraction. A binary fraction is decoded
into `m * 2 ^ q`; the decimals that round to it fill an interval about it, whose ends belong to it when `m` is even.
Going down through the decimal grids `10 ^ k`, the first grid that has a point in the interval gives the digits; of
two points the nearer counts, and of two equally near ones the even one.
-/

namespace Folio

/-- The number `digits * 10 ^ exponent`. -/
structure Decimal where
  digits : Nat
  exponent : Int
  deriving DecidableEq, Repr

namespace Decimal

/-- A positive number given as the quotient of two natural numbers. -/
structure Quotient where
  num : Nat
  den : Nat

/-- The magnitude of a finite binary fraction as `m * 2 ^ q`. -/
def ofBits (bits : UInt64) : Nat × Int :=
  let fraction := bits.toNat % Nat.pow 2 52
  let exponent : Nat := bits.toNat / Nat.pow 2 52 % Nat.pow 2 11
  if exponent = 0 then (fraction, -1074) else (fraction + Nat.pow 2 52, (exponent : Int) - 1075)

/-- The sign bit is set. -/
def isNegative (bits : UInt64) : Bool :=
  bits.toNat / Nat.pow 2 63 = 1

/-- The grid point `d * 10 ^ k` against `x`, as the two sides of a comparison of natural numbers. -/
def sides (d : Nat) (k : Int) (x : Quotient) : Nat × Nat :=
  if 0 ≤ k then (d * Nat.pow 10 k.toNat * x.den, x.num) else (d * x.den, x.num * Nat.pow 10 (-k).toNat)

/-- The last grid point of `10 ^ k` that is not above `x`. -/
def floorOn (k : Int) (x : Quotient) : Nat :=
  if 0 ≤ k then x.num / (x.den * Nat.pow 10 k.toNat) else x.num * Nat.pow 10 (-k).toNat / x.den

/-- The decimals that round to a binary fraction: those between `low` and `high`, the ends with them if `closed`. -/
structure Interval where
  low : Quotient
  mid : Quotient
  high : Quotient
  closed : Bool

/-- The interval about `m * 2 ^ q`: half a step to either side, and a quarter below a power of two that has a smaller
step below it. -/
def Interval.about (m : Nat) (q : Int) : Interval :=
  let scale := fun n : Nat =>
    if 2 ≤ q then Quotient.mk (n * Nat.pow 2 (q - 2).toNat) 1 else Quotient.mk n (Nat.pow 2 (2 - q).toNat)
  let below := if m = Nat.pow 2 52 ∧ q ≠ -1074 then 1 else 2
  ⟨scale (4 * m - below), scale (4 * m), scale (4 * m + 2), m % 2 = 0⟩

/-- The grid point `d * 10 ^ k` lies in the interval. -/
def Interval.holds (i : Interval) (d : Nat) (k : Int) : Bool :=
  let (a, low) := sides d k i.low
  let (b, high) := sides d k i.high
  if i.closed then low ≤ a && b ≤ high else low < a && b < high

/-- The grid `10 ^ k` and the grids below it in turn, until one has a point in the interval. -/
def search (i : Interval) : Nat → Int → Decimal
  | 0, k => ⟨floorOn k i.mid, k⟩
  | fuel + 1, k =>
    let d := floorOn k i.mid
    match i.holds d k, i.holds (d + 1) k with
    | true, false => ⟨d, k⟩
    | false, true => ⟨d + 1, k⟩
    | false, false => search i fuel (k - 1)
    | true, true =>
      let (half, mid) := sides (2 * d + 1) k ⟨2 * i.mid.num, i.mid.den⟩
      if mid < half then ⟨d, k⟩
      else if half < mid then ⟨d + 1, k⟩
      else if d % 2 = 0 then ⟨d, k⟩ else ⟨d + 1, k⟩

/-- The shortest decimal that reads back to the magnitude of a finite binary fraction; zero for zero. -/
def shortest (bits : UInt64) : Decimal :=
  let (m, q) := ofBits bits
  if m = 0 then ⟨0, 0⟩
  else
    let top := ((Nat.log2 m : Int) + 1 + q) * 30103 / 100000 + 1
    search (.about m q) 24 top

end Decimal

end Folio
