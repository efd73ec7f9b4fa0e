/-!
# Sets of characters

A set of characters is given by its borders: the ascending code points at which one enters
or leaves it, starting outside.  Every set has one such form, so equal sets are equal values,
and any way to combine two sets is one walk along the borders of both.
-/

namespace MetricScript

/-- A set of characters, given by its borders. -/
structure CharSet where
  borders : List Nat
deriving DecidableEq

namespace CharSet

/-- The code point lies inside, if what comes before the first border is `inside`. -/
def insideAt (code : Nat) (inside : Bool) : (borders : List Nat) → Bool
  | [] => inside
  | border :: rest => if code < border then inside else insideAt code (!inside) rest

/-- The set holds the code point. -/
def holds (set : CharSet) (code : Nat) : Bool := insideAt code false set.borders

def contains (set : CharSet) (c : Char) : Bool := set.holds c.toNat

/-- Those of the given points at which `rule` changes, if it has the value `now` before
them. -/
def changes (rule : Nat → Bool) (now : Bool) : (points : List Nat) → List Nat
  | [] => []
  | point :: rest =>
      if rule point = now then changes rule now rest
      else point :: changes rule (!now) rest

/-- The set of the code points for which the rule holds, by whether the two sets hold them.
The rule has to be false of what neither set holds. -/
def combine (rule : Bool → Bool → Bool) (left right : CharSet) : CharSet :=
  { borders := changes (fun code => rule (left.holds code) (right.holds code)) false
      (left.borders.merge right.borders (· ≤ ·)) }

def union : CharSet → CharSet → CharSet := combine (· || ·)

def intersection : CharSet → CharSet → CharSet := combine (· && ·)

def difference : CharSet → CharSet → CharSet := combine fun left right => left && !right

/-- What is in exactly one of two sets. -/
def exclusive : CharSet → CharSet → CharSet := combine fun left right => left != right

def nothing : CharSet := { borders := [] }

def everything : CharSet := { borders := [0, 0x110000] }

def complement (set : CharSet) : CharSet := difference everything set

def unions (sets : List CharSet) : CharSet := sets.foldl union nothing

/-- The code point behind that of a character; surrogates are not characters. -/
def codeBehind (c : Char) : Nat := if c.toNat = 0xD7FF then 0xE000 else c.toNat + 1

/-- The characters from one to another. -/
def span (first last : Char) : CharSet :=
  if first ≤ last then { borders := [first.toNat, codeBehind last] } else nothing

def only (c : Char) : CharSet := span c c

/-- The one character of the set, if it has just one. -/
def single? (set : CharSet) : Option Char :=
  match set.borders with
  | first :: _ => if set = only (Char.ofNat first) then some (Char.ofNat first) else none
  | [] => none

/-- The small letters from a to z. -/
def lower : CharSet := span 'a' 'z'

/-- The capital letters from A to Z. -/
def upper : CharSet := span 'A' 'Z'

/-- The letters of ASCII. -/
def letter : CharSet := union lower upper

def digit : CharSet := span '0' '9'

/-- Letters, digits and the low line. -/
def word : CharSet := unions [letter, digit, only '_']

/-- The white space of ASCII. -/
def blank : CharSet := union (span '\t' '\r') (only ' ')

/-- The sets of ASCII characters that have a name. -/
def named? (name : String) : Option CharSet :=
  match name with
  | "alnum" => some (union letter digit)
  | "alpha" => some letter
  | "ascii" => some (span '\x00' '\x7f')
  | "blank" => some (union (only '\t') (only ' '))
  | "cntrl" => some (union (span '\x00' '\x1f') (only '\x7f'))
  | "digit" => some digit
  | "graph" => some (span '!' '~')
  | "lower" => some lower
  | "print" => some (span ' ' '~')
  | "punct" => some (unions [span '!' '/', span ':' '@', span '[' '\x60', span '\x7b' '~'])
  | "space" => some blank
  | "upper" => some upper
  | "word" => some word
  | "xdigit" => some (unions [digit, span 'a' 'f', span 'A' 'F'])
  | _ => none

/-- The distance from a capital letter of ASCII to the small one. -/
def caseDistance : Nat := 'a'.toNat - 'A'.toNat

/-- The set together with the letters of ASCII in the other case. -/
def bothCases (set : CharSet) : CharSet :=
  unions [set,
    { borders := (intersection set lower).borders.map (· - caseDistance) },
    { borders := (intersection set upper).borders.map (· + caseDistance) }]

end CharSet

end MetricScript
