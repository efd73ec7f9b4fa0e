import MetricScript.Pattern.CharSet

/-!
# Search patterns

What a pattern is, once it has been read, and how patterns are put together.

Patterns are kept in a plain form.  A sequence has no sequence and nothing empty among its
parts, and characters that follow each other are one literal; a choice has no choice among its
alternatives, and a choice between single characters or between sets is a set.  Alternatives
that all begin with the same parts share them, and the choice is made behind these parts.
This form matters where a pattern can match in several ways, because the way that is
preferred is told from it.
-/

namespace MetricScript

/-- A condition on a place in a text. -/
inductive Edge where
  | textStart
  | textEnd
  /-- The start of a line; with `returns`, carriage returns end lines as well. -/
  | lineStart (returns : Bool)
  /-- The end of a line; with `returns`, carriage returns end lines as well. -/
  | lineEnd (returns : Bool)
  /-- A word starts or ends here. -/
  | wordBorder
  /-- No word starts or ends here. -/
  | noWordBorder
  | wordStart
  | wordEnd
deriving DecidableEq

namespace Edge

/-- The character, if there is one, belongs to a word. -/
def inWord : Option Char → Bool
  | some c => CharSet.word.contains c
  | none => false

/-- The condition holds because of the character before the place, whatever comes next. -/
def heldBefore (before : Option Char) : Edge → Bool
  | textStart => before.isNone
  | lineStart _ => before.isNone || before = some '\n'
  | _ => false

/-- The condition holds between two characters; one is missing at an end of the text. -/
def held (before after : Option Char) : Edge → Bool
  | textStart => before.isNone
  | textEnd => after.isNone
  | lineStart returns =>
      before.isNone || before = some '\n' ||
        (returns && before = some '\r' && after ≠ some '\n')
  | lineEnd false => after.isNone || after = some '\n'
  | lineEnd true =>
      after.isNone || after = some '\r' || (after = some '\n' && before ≠ some '\r')
  | wordBorder => inWord before != inWord after
  | noWordBorder => inWord before == inWord after
  | wordStart => !inWord before && inWord after
  | wordEnd => inWord before && !inWord after

end Edge

inductive Times where
  | atMostOnce
  | any
  | atLeastOnce
deriving DecidableEq

inductive Pattern where
  | empty
  /-- Characters one after the other. -/
  | literal (characters : List Char)
  | one (set : CharSet)
  | edge (condition : Edge)
  /-- A group that may be referred to; its number tells it from all others. -/
  | group (number : Nat) (body : Pattern)
  | sequence (first rest : Pattern)
  /-- The first is preferred. -/
  | choice (first rest : Pattern)
  /-- More often is preferred if it is greedy, and otherwise less often. -/
  | repeated (times : Times) (greedy : Bool) (body : Pattern)
deriving DecidableEq

namespace Pattern

/-- The pattern matches nothing but the empty text. -/
def matchesOnlyEmpty : Pattern → Bool
  | empty | edge _ => true
  | literal _ | one _ => false
  | group _ body | repeated _ _ body => body.matchesOnlyEmpty
  | sequence first rest | choice first rest => first.matchesOnlyEmpty && rest.matchesOnlyEmpty

/-- The length of the shortest match, unless a set in the pattern has no characters. -/
def shortest? : Pattern → Option Nat
  | empty | edge _ => some 0
  | literal characters => some characters.length
  | one set => if set = .nothing then none else some 1
  | group _ body => body.shortest?
  | sequence first rest => do return (← first.shortest?) + (← rest.shortest?)
  | choice first rest => do return min (← first.shortest?) (← rest.shortest?)
  | repeated .atLeastOnce _ body => body.shortest?
  | repeated _ _ body => body.shortest?.map fun _ => 0

def ofSet (set : CharSet) : Pattern :=
  match set.single? with
  | some c => literal [c]
  | none => one set

/-- The parts of a sequence, and of another pattern the pattern itself. -/
def parts : Pattern → List Pattern
  | empty => []
  | sequence first rest => first :: rest.parts
  | pattern => [pattern]

/-- A part before others; two literals become one. -/
def putBefore : Pattern → List Pattern → List Pattern
  | literal first, literal second :: rest => literal (first ++ second) :: rest
  | first, rest => first :: rest

def ofParts : List Pattern → Pattern
  | [] => empty
  | [pattern] => pattern
  | first :: rest => sequence first (ofParts rest)

/-- Patterns one after the other. -/
def inSequence (patterns : List Pattern) : Pattern :=
  ofParts ((patterns.flatMap parts).foldr putBefore [])

/-- The alternatives of a choice, and of another pattern the pattern itself. -/
def alternatives : Pattern → List Pattern
  | choice first rest => first :: rest.alternatives
  | pattern => [pattern]

def ofAlternatives : List Pattern → Pattern
  | [] => one .nothing
  | [pattern] => pattern
  | first :: rest => choice first (ofAlternatives rest)

/-- The set of a pattern that is a single character. -/
def characterSet? : Pattern → Option CharSet
  | literal [c] => some (.only c)
  | _ => none

/-- The set of a pattern that is a character of a set. -/
def set? : Pattern → Option CharSet
  | one set => some set
  | _ => none

/-- A choice between alternatives that need not begin alike. -/
def anyOf (patterns : List Pattern) : Pattern :=
  match patterns.mapM characterSet?, patterns.mapM set? with
  | some sets, _ | none, some sets => ofSet (.unions sets)
  | none, none => ofAlternatives patterns

/-- The parts with which two sequences both begin. -/
def sharedParts : List Pattern → List Pattern → List Pattern
  | first :: left, second :: right =>
      if first = second then first :: sharedParts left right else []
  | _, _ => []

/-- The parts of a sequence; other patterns have none. -/
def sequenceParts : Pattern → List Pattern
  | sequence first rest => first :: rest.parts
  | _ => []

/-- The parts with which all alternatives begin, if they are sequences. -/
def sharedBeginning : List Pattern → List Pattern
  | [] => []
  | first :: others =>
      others.foldl (fun shared other => sharedParts shared other.sequenceParts)
        first.sequenceParts

/-- One of several patterns, an earlier one rather than a later one. -/
def inChoice (patterns : List Pattern) : Pattern :=
  let all := patterns.flatMap alternatives
  let shared := sharedBeginning all
  if shared.isEmpty then anyOf all
  else
    let others := all.map fun pattern => ofParts (pattern.parts.drop shared.length)
    inSequence (shared ++ [anyOf (others.flatMap alternatives)])

/-- A pattern again and again.  What matches only the empty text is not repeated more than
once. -/
def repeating (times : Times) (greedy : Bool) (body : Pattern) : Pattern :=
  if !body.matchesOnlyEmpty then repeated times greedy body
  else if times = .atLeastOnce then body
  else repeated .atMostOnce greedy body

end Pattern

end MetricScript
