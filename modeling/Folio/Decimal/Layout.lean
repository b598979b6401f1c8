import Folio.Decimal.Shortest

/-!
# Decimal layouts

Two ways to write a decimal number as text. The positional layout writes every digit in its place and no point behind a
whole number. The data layout keeps a point in every number it writes in positional form and turns to an exponent for
very large and very small numbers.
-/

namespace Folio.Decimal

/-- The digits of a natural number. -/
def digitsOf (n : Nat) : List Char :=
  Nat.toDigits 10 n

/-- A whole number in decimal digits. -/
def intText (n : Int) : String :=
  match n with
  | .ofNat n => String.ofList (digitsOf n)
  | .negSucc n => String.ofList ('-' :: digitsOf (n + 1))

/-- The digits of a decimal in positional form, cut at the point. -/
def positional (d : Decimal) : List Char × List Char :=
  let ds := digitsOf d.digits
  if 0 ≤ d.exponent then (ds ++ List.replicate d.exponent.toNat '0', [])
  else
    let places := (-d.exponent).toNat
    if places < ds.length then (ds.take (ds.length - places), ds.drop (ds.length - places))
    else (['0'], List.replicate (places - ds.length) '0' ++ ds)

/-- The decision record of a layout: from which to which exponent of the first digit it is positional, and whether a
whole number keeps a zero behind the point. -/
structure Layout where
  /-- The exponents that are written in positional form; all of them if none are given. -/
  positionalRange : Option (Int × Int)
  keepsPoint : Bool

/-- A template writes a number in positional form, however long, and a whole number without a point. -/
def Layout.plain : Layout := ⟨none, false⟩

/-- A data text writes a number in positional form from `0.00001` to below `10 ^ 16`, always with a point. -/
def Layout.data : Layout := ⟨some (-5, 15), true⟩

/-- A decimal in exponent form: the first digit, a point before the others if there are others, and the signed
exponent. -/
def exponential (ds : List Char) (exponent : Int) : List Char :=
  let mantissa := match ds with
    | d :: rest => if rest.isEmpty then [d] else d :: '.' :: rest
    | [] => []
  let sign := if exponent < 0 then '-' else '+'
  mantissa ++ 'e' :: sign :: digitsOf exponent.natAbs

/-- A magnitude as text. -/
def Layout.write (layout : Layout) (d : Decimal) : List Char :=
  let ds := digitsOf d.digits
  let lead := d.exponent + ds.length - 1
  let isPositional := match layout.positionalRange with
    | none => true
    | some (low, high) => d.digits = 0 || (low ≤ lead && lead ≤ high)
  if isPositional then
    match positional d with
    | (whole, []) => if layout.keepsPoint then whole ++ ['.', '0'] else whole
    | (whole, fraction) => whole ++ '.' :: fraction
  else exponential ds lead

/-- A finite binary fraction as text. -/
def Layout.floatText (layout : Layout) (bits : UInt64) : String :=
  let magnitude := layout.write (shortest bits)
  String.ofList (if isNegative bits then '-' :: magnitude else magnitude)

end Folio.Decimal
