import MetricScript.Number.Binary
import MetricScript.Number.Decimal
import MetricScript.Text.Classes

/-!
# Intervals

A length of time is written as a plain number of seconds, or as amounts with units such as
`1h30m`.  White space around it does not count.  The seconds are summed up as numbers and
then rounded to whole nanoseconds, a half going to the even neighbour; lengths of `2 ^ 64`
seconds and more are refused.
-/

namespace MetricScript

structure Duration where
  seconds : Nat
  nanoseconds : Nat
deriving DecidableEq

/-- Why a text is no interval. -/
inductive IntervalError where
  | invalid (text : String)
  | unknownUnit (unit text : String)
deriving DecidableEq

def IntervalError.message : IntervalError → String
  | invalid text => "invalid interval `" ++ text ++ "`"
  | unknownUnit unit text => "unknown unit `" ++ unit ++ "` in interval `" ++ text ++ "`"

namespace Duration

/-- A quotient rounded to the nearest whole number, a half to the even one. -/
def roundDiv (numerator denominator : Nat) : Nat :=
  let quotient := numerator / denominator
  let twice := 2 * (numerator % denominator)
  if twice < denominator then quotient
  else if denominator < twice then quotient + 1
  else quotient + quotient % 2

/-- A number of seconds as a length of time; numbers below zero or too large are none. -/
def ofSeconds? (seconds : Float) : Option Duration :=
  match Number.binary? seconds with
  | none => none
  | some number =>
      if number.negative && number.significand ≠ 0 then none
      else if Nat.pow 2 64 ≤ number.whole then none
      else
        let nanoseconds :=
          if 0 ≤ number.exponent then number.whole * Nat.pow 10 9
          else roundDiv (number.significand * Nat.pow 10 9) (Nat.pow 2 (-number.exponent).toNat)
        some ⟨nanoseconds / Nat.pow 10 9, nanoseconds % Nat.pow 10 9⟩

def isAmountChar (c : Char) : Bool := Number.isDigit c || c = '.'

/-- Cuts a text into amounts and the units after them.  Only the first amount can be
empty, and only the last unit. -/
def splitItems : List Char → List (List Char × List Char)
  | [] => []
  | c :: rest =>
      match splitItems rest with
      | [] => if isAmountChar c then [([c], [])] else [([], [c])]
      | (amount, unit) :: items =>
          if isAmountChar c then (c :: amount, unit) :: items
          else if amount.isEmpty then ([], c :: unit) :: items
          else ([], [c]) :: (amount, unit) :: items

def unitSeconds? : String → Option Float
  | "ms" => some 0.001
  | "s" => some 1.0
  | "m" => some 60.0
  | "h" => some 3600.0
  | "d" => some 86400.0
  | "w" => some 604800.0
  | _ => none

/-- Adds up amounts with units, from left to right. -/
def sumItems (text : String) (seconds : Float) :
    List (List Char × List Char) → Except IntervalError Float
  | [] => .ok seconds
  | (amount, unit) :: rest =>
      match Number.read? (String.ofList amount) with
      | none => .error (.invalid text)
      | some factor =>
          match unitSeconds? (String.ofList unit) with
          | none => .error (.unknownUnit (String.ofList unit) text)
          | some scale => sumItems text (seconds + factor * scale) rest

def read (source : String) : Except IntervalError Duration := do
  let text := Text.trim source
  let seconds ←
    match Number.read? text with
    | some seconds =>
        if !seconds.isFinite || seconds < 0.0 then .error (.invalid text) else .ok seconds
    | none =>
        if text.isEmpty then .error (.invalid text)
        else sumItems text 0.0 (splitItems text.toList)
  match ofSeconds? seconds with
  | some duration => .ok duration
  | none => .error (.invalid text)

end Duration

end MetricScript
