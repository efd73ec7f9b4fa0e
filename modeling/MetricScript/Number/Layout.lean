import MetricScript.Number.Shortest

/-!
# Writing numbers

The two written forms of a number.  In messages and texts a number is written
positionally, however large or small it is, and a whole number has no point.  In JSON
a point with at least one digit after it is always there, numbers far from one take an
exponent with its sign, and what is not finite is `null`.
-/

namespace MetricScript.Number

/-- Digits with the decimal point `leading + 1` places from their start. -/
def positional (digits : List Char) (leading : Int) : List Char × List Char :=
  if 0 ≤ leading then
    let places := leading.toNat + 1
    if digits.length ≤ places then
      (digits ++ List.replicate (places - digits.length) '0', [])
    else (digits.take places, digits.drop places)
  else (['0'], List.replicate ((-leading).toNat - 1) '0' ++ digits)

/-- The plain form of a finite magnitude: positional, without a point when whole. -/
def plainMagnitude (number : Binary) : List Char :=
  if number.significand = 0 then ['0']
  else
    let decimal := number.shortest .up
    let (whole, fraction) := positional decimal.digits decimal.leading
    if fraction.isEmpty then whole else whole ++ '.' :: fraction

/-- The text of a number in messages, names and outputs. -/
def text (x : Float) : String :=
  match binary? x with
  | some number =>
      String.ofList ((if number.negative then ['-'] else []) ++ plainMagnitude number)
  | none => if x.isNaN then "NaN" else if isNegative x then "-inf" else "inf"

/-- The least and the greatest power of ten that JSON writes positionally. -/
def jsonPositional (leading : Int) : Bool := -5 ≤ leading && leading ≤ 15

/-- The JSON form of a finite magnitude. -/
def jsonMagnitude (number : Binary) : List Char :=
  if number.significand = 0 then "0.0".toList
  else
    let decimal := number.shortest .toEven
    let digits := decimal.digits
    let leading := decimal.leading
    if jsonPositional leading then
      let (whole, fraction) := positional digits leading
      whole ++ '.' :: (if fraction.isEmpty then ['0'] else fraction)
    else
      let mantissa :=
        match digits with
        | first :: second :: rest => first :: '.' :: second :: rest
        | short => short
      mantissa ++ 'e' :: (if leading < 0 then '-' else '+') :: digitsOf leading.natAbs

def jsonText (x : Float) : String :=
  match binary? x with
  | some number =>
      String.ofList ((if number.negative then ['-'] else []) ++ jsonMagnitude number)
  | none => "null"

end MetricScript.Number
