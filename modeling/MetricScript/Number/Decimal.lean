/-!
# Reading numbers

The one decimal grammar of the language: an optional sign, then `inf`, `infinity` or
`nan` in any letter case, or digits with an optional point and at least one digit on
either side of it, then an optional exponent.  No blanks, no separators.  The value is
the number nearest to the decimal that is written; a decimal too large for the range
reads as infinity.
-/

namespace MetricScript.Number

/-! ## Digits

Runs of digits and the whole numbers that they spell. -/

def isDigit (c : Char) : Bool := '0' ≤ c && c ≤ '9'

/-- The natural number that a run of decimal digits spells. -/
def digitsValue (digits : List Char) : Nat :=
  digits.foldl (fun value digit => value * 10 + (digit.toNat - '0'.toNat)) 0

/-- The value of a hexadecimal digit, in capital or small letters. -/
def hexDigit? (c : Char) : Option Nat :=
  if '0' ≤ c && c ≤ '9' then some (c.toNat - '0'.toNat)
  else if 'a' ≤ c && c ≤ 'f' then some (c.toNat - 'a'.toNat + 10)
  else if 'A' ≤ c && c ≤ 'F' then some (c.toNat - 'A'.toNat + 10)
  else none

/-- A natural number: at least one digit, with or without a plus sign before them. -/
def unsigned? (text : List Char) : Option Nat :=
  let digits :=
    match text with
    | '+' :: rest => rest
    | all => all
  if digits.isEmpty || !digits.all isDigit then none else some (digitsValue digits)

/-! ## Decimals -/

/-- A small letter for a capital one of the basic alphabet, anything else unchanged. -/
def lowerAscii (c : Char) : Char :=
  if 'A' ≤ c && c ≤ 'Z' then Char.ofNat (c.toNat + 32) else c

/-- Digits before and after the point, and the power of ten that scales them. -/
structure Decimal where
  whole : List Char
  fraction : List Char
  exponent : Int

/-- The number nearest to a decimal. -/
def Decimal.value (decimal : Decimal) : Float :=
  let mantissa := digitsValue (decimal.whole ++ decimal.fraction)
  let scale := decimal.exponent - decimal.fraction.length
  if 0 ≤ scale then Float.ofScientific mantissa false scale.toNat
  else Float.ofScientific mantissa true (-scale).toNat

/-- Splits a leading sign off; `true` stands for a minus sign. -/
def splitSign : List Char → Bool × List Char
  | '-' :: rest => (true, rest)
  | '+' :: rest => (false, rest)
  | text => (false, text)

/-- Reads what follows the digits: nothing, or an exponent mark with a signed run of
digits. -/
def readExponent? : List Char → Option Int
  | [] => some 0
  | mark :: text =>
      if mark = 'e' || mark = 'E' then
        let (negative, digits) := splitSign text
        if digits.isEmpty || !digits.all isDigit then none
        else some (if negative then -(digitsValue digits : Int) else digitsValue digits)
      else none

def readDecimal? (text : List Char) : Option Decimal :=
  let whole := text.takeWhile isDigit
  let (fraction, rest) :=
    match text.dropWhile isDigit with
    | '.' :: after => (after.takeWhile isDigit, after.dropWhile isDigit)
    | rest => ([], rest)
  if whole.isEmpty && fraction.isEmpty then none
  else (readExponent? rest).map fun exponent => ⟨whole, fraction, exponent⟩

def undefined : Float := 0.0 / 0.0

def infinity : Float := 1.0 / 0.0

/-- Reads the part of a number after its sign. -/
def readUnsigned? (text : List Char) : Option Float :=
  match (readDecimal? text).map Decimal.value with
  | some value => some value
  | none =>
      let name := text.map lowerAscii
      if name = "inf".toList || name = "infinity".toList then some infinity
      else if name = "nan".toList then some undefined
      else none

/-- Reads a number written in the decimal grammar; any other text has no number. -/
def read? (text : String) : Option Float :=
  let (negative, rest) := splitSign text.toList
  (readUnsigned? rest).map fun value => if negative then -value else value

end MetricScript.Number
