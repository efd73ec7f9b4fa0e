import MetricScript.Pattern.Bracket
import MetricScript.Text.Classes

/-!
# Reading patterns

The text of a pattern: characters, sets in brackets, a point for any character, groups,
alternatives, repetitions and options.  Counted repetitions and conditions on what surrounds
a match by patterns are not part of it.  Ignoring case is defined for ASCII only, and a
point only for all characters.
-/

namespace MetricScript.Pattern

/-- Something in an alternative that was read.  Options are no pattern and cannot be
repeated. -/
structure Item where
  pattern : Nested Pattern
  repeatable : Bool := true

/-- A group that is being read. -/
structure Group where
  /-- The number, if it may be referred to. -/
  number : Option Nat := none
  /-- The options around the group. -/
  outside : Options := {}
  /-- The finished alternatives, the latest first. -/
  finished : List (Nested Pattern) := []
  /-- The items of the current alternative, the latest first. -/
  items : List Item := []

namespace Group

/-- The items of the current alternative as one pattern. -/
def current (group : Group) : Nested Pattern :=
  Nested.joined inSequence (group.items.reverse.map (·.pattern))

/-- The alternatives as one pattern. -/
def content (group : Group) : Nested Pattern :=
  Nested.joined inChoice (group.current :: group.finished).reverse

/-- The whole group as an item. -/
def whole (group : Group) : Item :=
  let { value, depth } := group.content
  let value := match group.number with
    | some number => Pattern.group number value
    | none => value
  { pattern := { value, depth := depth + 1 } }

def add (group : Group) (item : Item) : Group := { group with items := item :: group.items }

def next (group : Group) : Group :=
  { group with finished := group.current :: group.finished, items := [] }

/-- Repeats the latest item. -/
def repeat? (group : Group) (times : Times) (greedy : Bool) : Option Group :=
  match group.items with
  | { pattern, repeatable := true } :: earlier =>
      let pattern := { value := repeating times greedy pattern.value, depth := pattern.depth + 1 }
      some { group with items := { pattern } :: earlier }
  | _ => none

end Group

/-- What has been read of a pattern. -/
structure Reader where
  options : Options := {}
  /-- The names of groups so far. -/
  names : List (List Char) := []
  /-- How many groups there are so far that may be referred to. -/
  numbered : Nat := 0
  group : Group := {}
  /-- The groups around the current one, the nearest first. -/
  outer : List Group := []

namespace Reader

/-- Adds a pattern without parts. -/
def addPlain (reader : Reader) (pattern : Pattern) : Reader :=
  { reader with group := reader.group.add { pattern := { value := pattern } } }

def character? (options : Options) (c : Char) : Option Pattern :=
  if !options.ignoreCase then some (literal [c])
  else if !options.ascii then none
  else if CharSet.letter.contains c then some (one (CharSet.only c).bothCases)
  else some (literal [c])

/-- What a point stands for. -/
def point? (options : Options) : Option Pattern :=
  if options.ascii then none
  else if options.pointTakesAll then some (one .everything)
  else if options.returns then some (one (CharSet.union (.only '\n') (.only '\r')).complement)
  else some (one (CharSet.only '\n').complement)

/-- What a circumflex stands for. -/
def startEdge (options : Options) : Edge :=
  if options.eachLine then .lineStart options.returns else .textStart

/-- What a dollar sign stands for. -/
def endEdge (options : Options) : Edge :=
  if options.eachLine then .lineEnd options.returns else .textEnd

/-- Reads something that has no parts. -/
def readPlain? (options : Options) : List Char → Option (Pattern × List Char)
  | [] => none
  | '\\' :: rest => do
      match ← Escape.read? options rest with
      | (.character c, rest) => return (← character? options c, rest)
      | (.characters set, rest) => return (ofSet set, rest)
      | (.condition condition, rest) => return (edge condition, rest)
  | '.' :: rest => (point? options).map (·, rest)
  | '^' :: rest => some (edge (startEdge options), rest)
  | '$' :: rest => some (edge (endEdge options), rest)
  | c :: rest => (character? options c).map (·, rest)

/-- Opens a group, inside of which other options may hold. -/
def openGroup (reader : Reader) (number : Option Nat) (inside : Options) : Reader :=
  { reader with
    options := inside
    numbered := reader.numbered + if number.isSome then 1 else 0
    group := { number, outside := reader.options }
    outer := reader.group :: reader.outer }

/-- A name that a group may have. -/
def isName : List Char → Bool
  | [] => false
  | first :: rest =>
      (first = '_' || Text.isLetter first) &&
        rest.all fun c =>
          c = '_' || c = '.' || c = '[' || c = ']' || Text.isAlphanumeric c

def readName? (reader : Reader) (text : List Char) : Option (Reader × List Char) :=
  let name := text.takeWhile (· ≠ '>')
  match text.drop name.length with
  | '>' :: rest =>
      if isName name && !reader.names.contains name then
        let reader := { reader with names := name :: reader.names }
        some (reader.openGroup (some reader.numbered) reader.options, rest)
      else none
  | _ => none

/-- Reads options, which hold for the rest of the current group or open one of their own. -/
def readOptions? (reader : Reader) (text : List Char) : Option (Reader × List Char) :=
  match reader.options.read? [] text with
  | some (options, _, ':' :: rest) => some (reader.openGroup none options, rest)
  | some (options, _ :: _, ')' :: rest) =>
      let item := { pattern := { value := empty }, repeatable := false }
      some ({ reader with options, group := reader.group.add item }, rest)
  | _ => none

/-- Reads what stands behind an opening parenthesis. -/
def readOpening? (reader : Reader) (text : List Char) : Option (Reader × List Char) :=
  match reader.options.skip text with
  | '?' :: '<' :: '=' :: _ | '?' :: '<' :: '!' :: _ => none
  | '?' :: '<' :: rest | '?' :: 'P' :: '<' :: rest => reader.readName? rest
  | '?' :: rest => reader.readOptions? rest
  | rest => some (reader.openGroup (some reader.numbered) reader.options, rest)

def closeGroup? (reader : Reader) : Option Reader :=
  match reader.outer with
  | parent :: older =>
      some { reader with
        options := reader.group.outside
        group := parent.add reader.group.whole
        outer := older }
  | [] => none

/-- Repeats the latest item; a question mark right behind asks for the other preference. -/
def readRepeat? (reader : Reader) (times : Times) (text : List Char) :
    Option (Reader × List Char) := do
  let (asked, rest) := match text with
    | '?' :: rest => (true, rest)
    | rest => (false, rest)
  let group ← reader.group.repeat? times (asked == reader.options.swapGreed)
  return ({ reader with group }, rest)

/-- Reads on by one item. -/
def readOn? (reader : Reader) (text : List Char) : Option (Reader × List Char) :=
  match text with
  | '(' :: rest => reader.readOpening? rest
  | ')' :: rest => reader.closeGroup?.map (·, rest)
  | '|' :: rest => some ({ reader with group := reader.group.next }, rest)
  | '?' :: rest => reader.readRepeat? .atMostOnce rest
  | '*' :: rest => reader.readRepeat? .any rest
  | '+' :: rest => reader.readRepeat? .atLeastOnce rest
  | '\x7b' :: _ => none
  | '[' :: rest => do
      let ({ value, depth }, rest) ← Bracket.read? reader.options rest
      let item := { pattern := { value := ofSet value, depth } }
      return ({ reader with group := reader.group.add item }, rest)
  | text => do
      let (pattern, rest) ← readPlain? reader.options text
      return (reader.addPlain pattern, rest)

def depthLimit : Nat := 250

/-- The pattern, if all groups are closed and not too deep. -/
def finish? (reader : Reader) : Option Pattern :=
  let { value, depth } := reader.group.content
  if reader.outer.isEmpty && depth ≤ depthLimit then some value else none

/-- Reads to the end of the text. -/
def readAll? (reader : Reader) : (fuel : Nat) → List Char → Option Pattern
  | 0, _ => none
  | fuel + 1, text =>
      match reader.options.skip text with
      | [] => reader.finish?
      | text => do
          let (reader, rest) ← reader.readOn? text
          reader.readAll? fuel rest

end Reader

def read? (text : List Char) : Option Pattern := Reader.readAll? {} (text.length + 1) text

end MetricScript.Pattern
