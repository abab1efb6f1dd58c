/-!
# Binary floating-point numbers

The bits of a floating-point number, taken apart: a sign, and either not a number, infinity, or a
magnitude `significand · 2 ^ exponent`. Besides its magnitude, a finite number has the interval of
reals that round to it, which is what a decimal must stay within to read back as the same number.
-/

namespace ClassImports.Decimal

/-- The layout of a floating-point number: a sign bit, exponent bits, fraction bits. -/
structure Layout where
  exponentBits : Nat
  fractionBits : Nat
  deriving DecidableEq, Repr

/-- Single precision. -/
def Layout.single : Layout := ⟨8, 23⟩

/-- Double precision. -/
def Layout.double : Layout := ⟨11, 52⟩

/-- A magnitude `significand · 2 ^ exponent`; `narrowBelow` tells that the next smaller number is
only half as far away as the next larger one. -/
structure Magnitude where
  significand : Nat
  exponent : Int
  narrowBelow : Bool
  deriving DecidableEq, Repr

/-- What the bits of a number stand for. -/
inductive Binary where
  | nan
  | infinite (negative : Bool)
  | finite (negative : Bool) (magnitude : Magnitude)
  deriving DecidableEq, Repr

/-- Takes the bits of a number apart. -/
def Binary.ofBits (layout : Layout) (bits : Nat) : Binary :=
  let fractions := 1 <<< layout.fractionBits
  let exponents := 1 <<< layout.exponentBits
  let fraction := bits % fractions
  let exponent := bits / fractions % exponents
  let negative := bits / (fractions * exponents) % 2 == 1
  let unit : Int := 2 - (exponents / 2 : Nat) - layout.fractionBits
  if exponent = exponents - 1 then
    if fraction = 0 then .infinite negative else .nan
  else if exponent = 0 then
    .finite negative ⟨fraction, unit, false⟩
  else
    .finite negative ⟨fractions + fraction, unit + (exponent - 1),
      fraction == 0 && exponent != 1⟩

/-- The reals that round to a number: everything between `low` and `high`, the ends included if
`closed` holds; `value` is the number itself. All three are counts of `1 / unit`. -/
structure Interval where
  low : Nat
  value : Nat
  high : Nat
  unit : Nat
  closed : Bool
  deriving DecidableEq, Repr

/-- The reals that round to a magnitude. -/
def Magnitude.interval (magnitude : Magnitude) : Interval :=
  let quarter := magnitude.exponent - 2
  let scale := 1 <<< quarter.toNat
  { low := (4 * magnitude.significand - (if magnitude.narrowBelow then 1 else 2)) * scale
    value := 4 * magnitude.significand * scale
    high := (4 * magnitude.significand + 2) * scale
    unit := 1 <<< (-quarter).toNat
    closed := magnitude.significand % 2 == 0 }

/-- Whether `n / d` lies in the interval. -/
def Interval.contains (interval : Interval) (n d : Nat) : Bool :=
  if interval.closed then
    interval.low * d ≤ n * interval.unit && n * interval.unit ≤ interval.high * d
  else interval.low * d < n * interval.unit && n * interval.unit < interval.high * d

end ClassImports.Decimal
