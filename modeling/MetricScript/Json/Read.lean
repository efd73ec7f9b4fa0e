import MetricScript.Json.Basic
import MetricScript.Json.Source
import MetricScript.Table

/-!
# Reading JSON documents

What the form of a JSON text stands for.  Whole numerals within 64 bits are integers, with
`-0` apart, which is a number.  All others are read in two steps: the leading digits that
fit 64 bits make a number, and a power of ten scales it; a numeral beyond the range is
refused.  Escaped code units must pair up to characters.  Of entries with one key the last
counts, and arrays and objects nest 127 deep at most.
-/

namespace MetricScript.Json

/-- How deep arrays and objects may nest. -/
def depthLimit : Nat := 127

/-- The largest integer that is kept as one. -/
def maxInteger : Nat := Nat.pow 2 64 - 1

/-- Takes digits onto a significand while it fits 64 bits; the rest stays. -/
def takeDigits (significand : Nat) : List Char → Nat × List Char
  | [] => (significand, [])
  | digit :: rest =>
      let next := significand * 10 + (digit.toNat - '0'.toNat)
      if next ≤ maxInteger then takeDigits next rest else (significand, digit :: rest)

def powerOfTen (exponent : Nat) : Float := Float.ofScientific 1 false exponent

/-- Scales a number by a power of ten in steps of at most `10 ^ 308`; a result beyond the
range is refused.  No number survives more than two steps down. -/
def scale? (value : Float) (exponent : Int) : Nat → Option Float
  | 0 => some value
  | steps + 1 =>
      if exponent.natAbs ≤ 308 then
        if 0 ≤ exponent then
          let scaled := value * powerOfTen exponent.natAbs
          if scaled.isInf then none else some scaled
        else some (value / powerOfTen exponent.natAbs)
      else if value == 0.0 then some value
      else if 0 ≤ exponent then none
      else scale? (value / powerOfTen 308) (exponent + 308) steps

/-- The power of ten that the exponent of a numeral asks for. -/
def Numeral.power (numeral : Numeral) : Int :=
  match numeral.exponent with
  | none => 0
  | some (negative, digits) =>
      if negative then -(Number.digitsValue digits : Int) else Number.digitsValue digits

/-- The value of a numeral as a number. -/
def Numeral.number? (numeral : Numeral) : Option Float :=
  let (leading, dropped) := takeDigits 0 numeral.whole
  let (significand, unused) := takeDigits leading numeral.fraction
  let places : Int := (numeral.fraction.length : Int) - unused.length
  (scale? (Float.ofNat significand) (dropped.length - places + numeral.power) 4).map
    fun value => if numeral.negative then -value else value

/-- The integer of a numeral without point and exponent that fits 64 bits. -/
def Numeral.integer? (numeral : Numeral) : Option Int :=
  if numeral.fraction.isEmpty && numeral.exponent.isNone then
    let magnitude := Number.digitsValue numeral.whole
    if numeral.negative then
      if 0 < magnitude && magnitude ≤ Nat.pow 2 63 then some (-(magnitude : Int)) else none
    else if magnitude ≤ maxInteger then some magnitude
    else none
  else none

def Numeral.toJson? (numeral : Numeral) : Option Json :=
  match numeral.integer? with
  | some value => some (.integer value)
  | none => numeral.number?.map .number

/-- The character that a leading and a trailing surrogate stand for. -/
def surrogatePair (leading trailing : Nat) : Char :=
  Char.ofNat (0x10000 + (leading - 0xD800) * 0x400 + (trailing - 0xDC00))

/-- The characters of a string; surrogates that do not pair up are refused. -/
def characters? : List StringPart → Option (List Char)
  | [] => some []
  | .char value :: rest => (characters? rest).map (value :: ·)
  | .unit code :: rest =>
      if 0xD800 ≤ code && code ≤ 0xDBFF then
        match rest with
        | .unit trailing :: more =>
            if 0xDC00 ≤ trailing && trailing ≤ 0xDFFF then
              (characters? more).map (surrogatePair code trailing :: ·)
            else none
        | _ => none
      else if 0xDC00 ≤ code && code ≤ 0xDFFF then none
      else (characters? rest).map (Char.ofNat code :: ·)

def stringValue? (parts : List StringPart) : Option String :=
  (characters? parts).map String.ofList

mutual

/-- The document of a text's form, with arrays and objects nesting `depth` deep at most. -/
def ofSource? (depth : Nat) : Source → Option Json
  | .null => some .null
  | .boolean value => some (.boolean value)
  | .numeral value => value.toJson?
  | .string parts => (stringValue? parts).map .string
  | .array items =>
      if depth = 0 then none else (ofItems? (depth - 1) items).map .array
  | .object entries =>
      if depth = 0 then none
      else (ofEntries? (depth - 1) entries).map fun pairs => .object (Table.ofList pairs)
termination_by structural source => source

def ofItems? (depth : Nat) : List Source → Option (List Json)
  | [] => some []
  | item :: rest => do
      let first ← ofSource? depth item
      let others ← ofItems? depth rest
      return first :: others
termination_by structural items => items

def ofEntries? (depth : Nat) : List (List StringPart × Source) → Option (List (String × Json))
  | [] => some []
  | (key, value) :: rest => do
      let name ← stringValue? key
      let first ← ofSource? depth value
      let others ← ofEntries? depth rest
      return (name, first) :: others
termination_by structural entries => entries

end

def read? (text : String) : Option Json :=
  (Source.read? text).bind (ofSource? depthLimit)

end MetricScript.Json
