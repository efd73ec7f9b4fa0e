import MetricScript.Number.Binary

/-!
# The fewest digits that read back

Every finite number owns an interval of reals that round to it, with its two ends
included when the significand is even.  The shortest decimal of a number is the one
with the fewest digits inside that interval, and the nearest to the number among
those.  The search goes through the decimal grids of one digit, two digits and so on
and tests on each grid the two points around the number, in whole-number arithmetic.
-/

namespace MetricScript.Number

/-- Which of two equally near decimals is taken. -/
inductive Tie where
  | up
  | toEven
deriving DecidableEq

/-- The decimal `coefficient * 10 ^ exponent`. -/
structure Scientific where
  coefficient : Nat
  exponent : Int
deriving DecidableEq

/-- The decimal digits of a natural number; zero has the one digit `0`. -/
def digitsOf (n : Nat) : List Char := Nat.toDigits 10 n

/-- How many decimal digits a positive number has; zero has none. -/
def digitCount (n : Nat) : Nat :=
  if n = 0 then 0 else (digitsOf n).length

/-- The reals that round to a number, counted in quarters of its last binary place. -/
structure Interval where
  low : Nat
  middle : Nat
  high : Nat
  closed : Bool

/-- The interval of a positive binary fraction.  Below a power of two the neighbours
stand half as far apart. -/
def Binary.interval (number : Binary) : Interval :=
  let middle := 4 * number.significand
  let narrow := number.significand = Nat.pow 2 52 && -1074 < number.exponent
  { low := if narrow then middle - 1 else middle - 2
    middle
    high := middle + 2
    closed := number.significand % 2 == 0 }

/-- A decimal grid laid over the quarters of a number: `quarters * quarterScale` and
`point * pointScale` are in one unit. -/
structure Grid where
  quarterScale : Nat
  pointScale : Nat

/-- The grid with step `10 ^ step` over the quarters of `2 ^ exponent`. -/
def Grid.ofStep (exponent step : Int) : Grid :=
  let quarter := exponent - 2
  { quarterScale := Nat.pow 2 quarter.toNat * Nat.pow 10 (-step).toNat
    pointScale := Nat.pow 10 step.toNat * Nat.pow 2 (-quarter).toNat }

/-- A point of the grid lies in the interval. -/
def Grid.holds (grid : Grid) (interval : Interval) (point : Nat) : Bool :=
  let place := point * grid.pointScale
  let low := interval.low * grid.quarterScale
  let high := interval.high * grid.quarterScale
  if interval.closed then low ≤ place && place ≤ high
  else low < place && place < high

/-- The point of the grid that stands for the number: of its two neighbours the one in
the interval, and of two such the nearer. -/
def Grid.choose? (tie : Tie) (grid : Grid) (interval : Interval) : Option Nat :=
  let middle := interval.middle * grid.quarterScale
  let below := middle / grid.pointScale
  let above := below + 1
  match grid.holds interval below, grid.holds interval above with
  | true, true =>
      let lower := middle - below * grid.pointScale
      let upper := above * grid.pointScale - middle
      if lower < upper then some below
      else if upper < lower then some above
      else match tie with
        | .up => some above
        | .toEven => if below % 2 = 0 then some below else some above
  | true, false => some below
  | false, true => some above
  | false, false => none

/-- The power of ten of the leading digit of a positive binary fraction. -/
def Binary.leading (number : Binary) : Int :=
  let whole := number.whole
  if 0 < whole then (digitCount whole : Int) - 1
  else
    let unit := Nat.pow 2 (-number.exponent).toNat
    let places : Int := digitCount ((unit - 1) / number.significand)
    Int.neg places

/-- Tries grids of `digits` digits and more, `more` grids in all. -/
def Binary.search (tie : Tie) (number : Binary) (digits : Nat) : Nat → Scientific
  | 0 => ⟨number.whole, 0⟩
  | more + 1 =>
      let step := number.leading - digits + 1
      match (Grid.ofStep number.exponent step).choose? tie number.interval with
      | some point => ⟨point, step⟩
      | none => search tie number (digits + 1) more

/-- The shortest decimal of a positive binary fraction; seventeen digits always do. -/
def Binary.shortest (tie : Tie) (number : Binary) : Scientific :=
  number.search tie 1 17

/-- The digits of a decimal without the zeros at the end. -/
def Scientific.digits (decimal : Scientific) : List Char :=
  ((digitsOf decimal.coefficient).reverse.dropWhile (· == '0')).reverse

/-- The power of ten of the leading digit. -/
def Scientific.leading (decimal : Scientific) : Int :=
  decimal.exponent + (digitsOf decimal.coefficient).length - 1

end MetricScript.Number
