import MetricScript.Number.Decimal
import MetricScript.Pattern.Basic
import MetricScript.Pattern.Options

/-!
# Signs behind a backslash

A sign behind a backslash stands for itself if it is neither letter nor digit.  Letters stand
for control characters, for conditions, for sets, and for characters given by their code
points.  Sets and the conditions on words are defined for ASCII only.
-/

namespace MetricScript.Pattern

/-- What a backslash and the signs behind it stand for. -/
inductive Escape where
  | character (c : Char)
  | characters (set : CharSet)
  | condition (edge : Edge)

namespace Escape

/-- Reads a number of hexadecimal digits behind those that have the value `code`. -/
def readCode? (options : Options) (code : Nat) :
    (digits : Nat) → List Char → Option (Nat × List Char)
  | 0, text => some (code, text)
  | _ + 1, [] => none
  | digits + 1, c :: rest => do
      readCode? options (16 * code + (← Number.hexDigit? c)) digits (options.skip rest)

def character? (code : Nat) : Option Escape :=
  if code.isValidChar then some (character (Char.ofNat code)) else none

/-- Reads a character that is given by a number of hexadecimal digits; two digits alone do
not go beyond ASCII if that is all there is. -/
def readCharacter? (options : Options) (digits : Nat) (text : List Char) :
    Option (Escape × List Char) := do
  let (code, rest) ← readCode? options 0 digits (options.skip text)
  if options.ascii && digits = 2 && 128 ≤ code then none
  else return (← character? code, rest)

/-- What a letter or another sign stands for by itself. -/
def ofSign? (options : Options) (c : Char) : Option Escape :=
  match c with
  | 'a' => some (character '\x07')
  | 'f' => some (character '\x0c')
  | 'n' => some (character '\n')
  | 'r' => some (character '\r')
  | 't' => some (character '\t')
  | 'v' => some (character '\x0b')
  | 'A' => some (condition .textStart)
  | 'z' => some (condition .textEnd)
  | 'b' => ifAscii (condition .wordBorder)
  | 'B' => ifAscii (condition .noWordBorder)
  | '<' => ifAscii (condition .wordStart)
  | '>' => ifAscii (condition .wordEnd)
  | 'd' => ifAscii (characters .digit)
  | 's' => ifAscii (characters .blank)
  | 'w' => ifAscii (characters .word)
  | _ => if c.toNat < 128 && !c.isAlphanum then some (character c) else none
where
  /-- What has a meaning for ASCII only. -/
  ifAscii (escape : Escape) : Option Escape := if options.ascii then some escape else none

/-- Reads what stands behind a backslash. -/
def read? (options : Options) : List Char → Option (Escape × List Char)
  | 'x' :: rest => readCharacter? options 2 rest
  | 'u' :: rest => readCharacter? options 4 rest
  | 'U' :: rest => readCharacter? options 8 rest
  | c :: rest => (ofSign? options c).map fun escape => (escape, rest)
  | [] => none

end Escape

end MetricScript.Pattern
