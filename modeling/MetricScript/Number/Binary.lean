/-!
# Numbers as binary fractions

A finite number is a sign, a significand and a power of two.  This module reads
these off the bits of a number and answers questions of whole numbers with them:
the whole part, whether there is a fraction, and conversions into 64-bit ranges
that clamp instead of wrapping around.
-/

namespace MetricScript.Number

/-- The magnitude `significand * 2 ^ exponent` of a finite number, with its sign. -/
structure Binary where
  negative : Bool
  significand : Nat
  exponent : Int
deriving DecidableEq

/-- The sign bit of a number. -/
def isNegative (x : Float) : Bool :=
  x.toBits.toNat / Nat.pow 2 63 == 1

/-- The binary fraction of a number; infinities and the undefined number have none. -/
def binary? (x : Float) : Option Binary :=
  let bits := x.toBits.toNat
  let field : Nat := bits / Nat.pow 2 52 % Nat.pow 2 11
  let fraction := bits % Nat.pow 2 52
  if field = Nat.pow 2 11 - 1 then none
  else if field = 0 then some ⟨isNegative x, fraction, -1074⟩
  else some ⟨isNegative x, fraction + Nat.pow 2 52, (field : Int) - 1075⟩

/-- The whole part of a magnitude, dropping any fraction. -/
def Binary.whole (number : Binary) : Nat :=
  if 0 ≤ number.exponent then number.significand * Nat.pow 2 number.exponent.toNat
  else number.significand / Nat.pow 2 (-number.exponent).toNat

/-- The magnitude is a whole number. -/
def Binary.isWhole (number : Binary) : Bool :=
  0 ≤ number.exponent || number.significand % Nat.pow 2 (-number.exponent).toNat == 0

/-- A number is whole when it is finite and has no fraction. -/
def isWhole (x : Float) : Bool :=
  match binary? x with
  | some number => number.isWhole
  | none => false

/-- The whole part of a finite number, rounding toward zero. -/
def truncate? (x : Float) : Option Int :=
  (binary? x).map fun number =>
    if number.negative then -(number.whole : Int) else number.whole

/-- The whole part clamped to the signed 64-bit range; the undefined number gives 0. -/
def toInt64 (x : Float) : Int64 :=
  match truncate? x with
  | some whole => Int64.ofIntClamp whole
  | none =>
      if x.isNaN then 0
      else if isNegative x then Int64.minValue
      else Int64.maxValue

/-- The largest count that fits 64 bits. -/
def maxCount : Nat := Nat.pow 2 64 - 1

/-- The whole part clamped to the unsigned 64-bit range; the undefined number gives 0. -/
def toCount (x : Float) : Nat :=
  match truncate? x with
  | some whole => min whole.toNat maxCount
  | none => if x.isNaN || isNegative x then 0 else maxCount

/-- The number nearest to a signed 64-bit integer. -/
def ofInt64 (n : Int64) : Float :=
  Float.ofInt n.toInt

end MetricScript.Number
