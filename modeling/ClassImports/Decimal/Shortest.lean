import ClassImports.Decimal.Binary

/-!
# Shortest decimals

The decimal with the fewest digits that reads back as a given floating-point number, and among
those the nearest to it. The search goes through ever finer decimal grids. On each grid the two
points next to the number are the candidates, and the first grid with a candidate in the interval
of reals that round to the number decides. When two candidates are equally near, a `Tie` tells
which of them to take.
-/

namespace ClassImports.Decimal

/-- Which of two equally near decimals to take. -/
inductive Tie where
  /-- The larger one. -/
  | up
  /-- The one whose last digit is even. -/
  | even
  deriving DecidableEq, Repr

/-- A decimal `digits · 10 ^ exponent`. -/
structure Digits where
  digits : Nat
  exponent : Int
  deriving DecidableEq, Repr

/-- The number `n / d` in steps of `10 ^ exponent`: numerator and denominator. -/
def inSteps (n d : Nat) (exponent : Int) : Nat × Nat :=
  (n * Nat.pow 10 (-exponent).toNat, d * Nat.pow 10 exponent.toNat)

/-- Of two neighbouring grid points that both read back, the nearer one to `n / d`, which lies
between `below` and `below + 1`. -/
def nearer (tie : Tie) (n d below : Nat) : Nat :=
  match compare (2 * n) ((2 * below + 1) * d) with
  | .lt => below
  | .gt => below + 1
  | .eq =>
    match tie with
    | .up => below + 1
    | .even => if below % 2 = 0 then below else below + 1

/-- The point of the grid `10 ^ exponent` to take for the number, if one next to it reads back. -/
def onGrid? (tie : Tie) (interval : Interval) (exponent : Int) : Option Nat :=
  let (n, d) := inSteps interval.value interval.unit exponent
  let below := n / d
  let fits := fun point : Nat =>
    interval.contains (point * Nat.pow 10 exponent.toNat) (Nat.pow 10 (-exponent).toNat)
  match fits below, fits (below + 1) with
  | true, true => some (nearer tie n d below)
  | true, false => some below
  | false, true => some (below + 1)
  | false, false => none

/-- Tries the grids from `10 ^ exponent` down, `grids` of them. -/
def search (tie : Tie) (interval : Interval) : (grids : Nat) → (exponent : Int) → Digits
  | 0, exponent => ⟨0, exponent⟩
  | grids + 1, exponent =>
    match onGrid? tie interval exponent with
    | some digits => ⟨digits, exponent⟩
    | none => search tie interval grids (exponent - 1)

/-- The power of ten of the first digit of `n / d`, for a number that is at least `10 ^ -400`. -/
def leadingExponent (n d : Nat) : Int :=
  (Nat.toDigits 10 (n * Nat.pow 10 400 / d)).length - 401

/-- Moves the zeros at the end of `digits` into the exponent, `limit` of them at most. -/
def dropZeros : (limit : Nat) → Digits → Digits
  | 0, decimal => decimal
  | limit + 1, ⟨digits, exponent⟩ =>
    if digits % 10 = 0 then dropZeros limit ⟨digits / 10, exponent + 1⟩ else ⟨digits, exponent⟩

/-- The shortest decimal that reads back as a magnitude other than zero. Seventeen digits always
suffice for double precision. -/
def shortest (tie : Tie) (magnitude : Magnitude) : Digits :=
  let interval := magnitude.interval
  dropZeros 18 (search tie interval 18 (leadingExponent interval.value interval.unit))

/-! ## Positions -/

/-- The digits of a decimal in order. -/
def Digits.text (decimal : Digits) : List Char :=
  Nat.toDigits 10 decimal.digits

/-- The number of digits before the point; negative or zero when zeros follow the point. -/
def Digits.point (decimal : Digits) : Int :=
  decimal.text.length + decimal.exponent

/-- A decimal in positional notation: no exponent, and a point only if digits follow it. -/
def Digits.positional (decimal : Digits) : List Char :=
  let text := decimal.text
  if 0 ≤ decimal.exponent then
    text ++ List.replicate decimal.exponent.toNat '0'
  else if 0 < decimal.point then
    text.take decimal.point.toNat ++ '.' :: text.drop decimal.point.toNat
  else
    ['0', '.'] ++ List.replicate (-decimal.point).toNat '0' ++ text

end ClassImports.Decimal
