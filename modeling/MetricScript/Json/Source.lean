import MetricScript.Number.Decimal

/-!
# The form of JSON texts

A JSON text is first read for its form alone: numerals keep their digits and strings
their escapes.  What a numeral is worth, whether an escape stands for a character and how
deep arrays and objects may nest are questions for those who use the text, since parts
that nobody asks for need no answer.
-/

namespace MetricScript.Json

/-- A part of a string: a character, or an escaped UTF-16 code unit. -/
inductive StringPart where
  | char (value : Char)
  | unit (code : Nat)
deriving DecidableEq

/-- The digits of a numeral; without a point the fraction is empty. -/
structure Numeral where
  negative : Bool
  whole : List Char
  fraction : List Char
  exponent : Option (Bool × List Char)
deriving DecidableEq

/-- The form of a JSON text. -/
inductive Source where
  | null
  | boolean (value : Bool)
  | numeral (value : Numeral)
  | string (parts : List StringPart)
  | array (items : List Source)
  | object (entries : List (List StringPart × Source))

namespace Source

open MetricScript.Number (isDigit hexDigit?)

def isSpace (c : Char) : Bool := c = ' ' || c = '\n' || c = '\t' || c = '\r'

/-- The text without the blanks at its front. -/
def skipSpace (text : List Char) : List Char := text.dropWhile isSpace

/-- The number of four hexadecimal digits. -/
def hexUnit? (a b c d : Char) : Option Nat := do
  let high := (← hexDigit? a) * 16 + (← hexDigit? b)
  let low := (← hexDigit? c) * 16 + (← hexDigit? d)
  return high * 256 + low

/-- The character of an escape with one letter. -/
def simpleEscape? : Char → Option Char
  | '"' => some '"'
  | '\\' => some '\\'
  | '/' => some '/'
  | 'b' => some (Char.ofNat 8)
  | 'f' => some (Char.ofNat 12)
  | 'n' => some '\n'
  | 'r' => some '\r'
  | 't' => some '\t'
  | _ => none

/-- Reads a string after its opening quote. -/
def readString? : List Char → Option (List StringPart × List Char)
  | [] => none
  | '"' :: rest => some ([], rest)
  | '\\' :: 'u' :: a :: b :: c :: d :: rest => do
      let code ← hexUnit? a b c d
      let (parts, remaining) ← readString? rest
      return (.unit code :: parts, remaining)
  | '\\' :: letter :: rest => do
      let value ← simpleEscape? letter
      let (parts, remaining) ← readString? rest
      return (.char value :: parts, remaining)
  | c :: rest => do
      guard (c.toNat ≥ 32 && c ≠ '\\')
      let (parts, remaining) ← readString? rest
      return (.char c :: parts, remaining)

/-- Reads at least one digit. -/
def readDigits? (text : List Char) : Option (List Char × List Char) :=
  let digits := text.takeWhile isDigit
  if digits.isEmpty then none else some (digits, text.dropWhile isDigit)

/-- Reads the digits before the point: a single zero, or digits that start with none. -/
def readWhole? : List Char → Option (List Char × List Char)
  | '0' :: rest => some (['0'], rest)
  | text => readDigits? text

/-- Reads a point and the digits after it, if there is one. -/
def readFraction? : List Char → Option (List Char × List Char)
  | '.' :: rest => readDigits? rest
  | text => some ([], text)

/-- Reads an exponent, if there is one. -/
def readPower? : List Char → Option (Option (Bool × List Char) × List Char)
  | mark :: text =>
      if mark = 'e' || mark = 'E' then do
        let (negative, unsigned) := Number.splitSign text
        let (digits, rest) ← readDigits? unsigned
        return (some (negative, digits), rest)
      else some (none, mark :: text)
  | [] => some (none, [])

def readNumeral? (text : List Char) : Option (Numeral × List Char) := do
  let (negative, unsigned) :=
    match text with
    | '-' :: rest => (true, rest)
    | _ => (false, text)
  let (whole, afterWhole) ← readWhole? unsigned
  let (fraction, afterFraction) ← readFraction? afterWhole
  let (exponent, rest) ← readPower? afterFraction
  return (⟨negative, whole, fraction, exponent⟩, rest)

mutual

/-- Reads a value, with the blanks before it. -/
def readValue? : Nat → List Char → Option (Source × List Char)
  | 0, _ => none
  | depth + 1, text =>
      match skipSpace text with
      | 'n' :: 'u' :: 'l' :: 'l' :: rest => some (.null, rest)
      | 't' :: 'r' :: 'u' :: 'e' :: rest => some (.boolean true, rest)
      | 'f' :: 'a' :: 'l' :: 's' :: 'e' :: rest => some (.boolean false, rest)
      | '"' :: rest => (readString? rest).map fun (parts, remaining) => (.string parts, remaining)
      | '[' :: rest =>
          match skipSpace rest with
          | ']' :: remaining => some (.array [], remaining)
          | items => (readItems? depth items).map fun (items, remaining) =>
              (.array items, remaining)
      | '\x7b' :: rest =>
          match skipSpace rest with
          | '\x7d' :: remaining => some (.object [], remaining)
          | entries => (readEntries? depth entries).map fun (entries, remaining) =>
              (.object entries, remaining)
      | other => (readNumeral? other).map fun (value, remaining) => (.numeral value, remaining)
termination_by structural depth => depth

/-- Reads the items of an array up to its closing bracket. -/
def readItems? : Nat → List Char → Option (List Source × List Char)
  | 0, _ => none
  | depth + 1, text => do
      let (item, afterItem) ← readValue? depth text
      match skipSpace afterItem with
      | ',' :: rest =>
          let (items, remaining) ← readItems? depth rest
          return (item :: items, remaining)
      | ']' :: rest => return ([item], rest)
      | _ => none
termination_by structural depth => depth

/-- Reads the entries of an object up to its closing brace. -/
def readEntries? : Nat → List Char → Option (List (List StringPart × Source) × List Char)
  | 0, _ => none
  | depth + 1, text =>
      match skipSpace text with
      | '"' :: quoted => do
          let (key, afterKey) ← readString? quoted
          match skipSpace afterKey with
          | ':' :: rest =>
              let (value, afterValue) ← readValue? depth rest
              match skipSpace afterValue with
              | ',' :: more =>
                  let (entries, remaining) ← readEntries? depth more
                  return ((key, value) :: entries, remaining)
              | '\x7d' :: remaining => return ([(key, value)], remaining)
              | _ => none
          | _ => none
      | _ => none
termination_by structural depth => depth

end

/-- Reads a whole text; after the value only blanks may follow.  Every value and every
entry takes a character of the text, so its length bounds the recursion. -/
def read? (text : String) : Option Source :=
  let characters := text.toList
  match readValue? (2 * characters.length + 2) characters with
  | some (source, rest) => if (skipSpace rest).isEmpty then some source else none
  | none => none

end Source

end MetricScript.Json
