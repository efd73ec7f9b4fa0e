import MetricScript.Pattern.Escape

/-!
# Sets in brackets

A set in brackets lists characters, ranges of characters, named sets and further sets in
brackets, and it may combine what stands before and behind a doubled sign.  A circumflex in
front takes the complement, which is not defined for ASCII alone; nor is ignoring case for
anything else than ASCII.
-/

namespace MetricScript.Pattern

/-- Something that was read, and how deeply its parts are nested. -/
structure Nested (α : Type) where
  value : α
  depth : Nat := 0

namespace Nested

/-- The depth of the deepest of several things. -/
def deepest {α : Type} (things : List (Nested α)) : Nat :=
  things.foldl (fun depth thing => max depth thing.depth) 0

/-- Several things as one.  It takes two to nest them. -/
def joined {α : Type} (join : List α → α) (things : List (Nested α)) : Nested α :=
  { value := join (things.map (·.value))
    depth := deepest things + if things.length < 2 then 0 else 1 }

end Nested

/-- The ways to combine what stands before a doubled sign with what stands behind it. -/
def operation? : Char → Option (CharSet → CharSet → CharSet)
  | '&' => some CharSet.intersection
  | '-' => some CharSet.difference
  | '~' => some CharSet.exclusive
  | _ => none

/-- A bracket that is being read. -/
structure Bracket where
  negated : Bool
  /-- What stood before the latest doubled sign, and how it is combined. -/
  left : Option (Nested CharSet × (CharSet → CharSet → CharSet)) := none
  /-- What came behind that sign, the latest first. -/
  items : List (Nested CharSet) := []
  /-- At most dashes have come. -/
  fresh : Bool := true

namespace Bracket

def start (options : Options) (text : List Char) : Bracket × List Char :=
  match options.skip text with
  | '^' :: rest => ({ negated := true }, rest)
  | rest => ({ negated := false }, rest)

def add (bracket : Bracket) (item : Nested CharSet) : Bracket :=
  { bracket with items := item :: bracket.items }

/-- What stands in the bracket. -/
def content (bracket : Bracket) : Nested CharSet :=
  let right := Nested.joined CharSet.unions bracket.items
  match bracket.left with
  | none => right
  | some (left, operation) =>
      { value := operation left.value right.value, depth := max left.depth right.depth + 1 }

/-- The bracket behind a doubled sign. -/
def combine (bracket : Bracket) (operation : CharSet → CharSet → CharSet) : Bracket :=
  { bracket with left := some (bracket.content, operation), items := [] }

/-- The set that the bracket stands for. -/
def close? (options : Options) (bracket : Bracket) : Option (Nested CharSet) :=
  let { value, depth } := bracket.content
  if !bracket.negated then some { value, depth := depth + 1 }
  else if options.ascii then none
  else some { value := value.complement, depth := depth + 1 }

/-- A set of characters as an item. -/
def item? (options : Options) (set : CharSet) : Option (Nested CharSet) :=
  if !options.ignoreCase then some { value := set }
  else if options.ascii then some { value := set.bothCases }
  else none

/-- A range of characters as an item. -/
def range? (options : Options) (first last : Char) : Option (Nested CharSet) :=
  if last < first || (options.ascii && 128 ≤ last.toNat) then none
  else item? options (.span first last)

/-- Reads a named set between colons behind an opening bracket. -/
def readNamed? : List Char → Option (CharSet × Bool × List Char)
  | ':' :: text =>
      let negated := text.head? = some '^'
      let text := if negated then text.drop 1 else text
      let name := text.takeWhile (· ≠ ':')
      match text.drop name.length with
      | ':' :: ']' :: rest =>
          (CharSet.named? (String.ofList name)).map fun set => (set, negated, rest)
      | _ => none
  | _ => none

/-- A named set as an item. -/
def named? (options : Options) (set : CharSet) (negated : Bool) : Option (Nested CharSet) := do
  let item ← item? options set
  if !negated then some item
  else if options.ascii then none
  else some { item with value := item.value.complement }

/-- Reads a character or a set that a backslash stands for. -/
def readMember? (options : Options) : List Char → Option (Escape × List Char)
  | '\\' :: rest => Escape.read? options rest
  | c :: rest => some (.character c, rest)
  | [] => none

/-- Reads a character, a set or a range.  A dash does not make a range in front of another
dash or of the closing bracket. -/
def readItem? (options : Options) (text : List Char) : Option (Nested CharSet × List Char) := do
  let (first, rest) ← readMember? options text
  let rest := options.skip rest
  let single? : Option (Nested CharSet) :=
    match first with
    | .character c => range? options c c
    | .characters set => item? options set
    | .condition _ => none
  match rest with
  | '-' :: behind =>
      if options.peek? behind = some ']' || options.peek? behind = some '-' then
        return (← single?, rest)
      else
        match first, ← readMember? options (options.skip behind) with
        | .character first, (.character last, rest) => return (← range? options first last, rest)
        | _, _ => none
  | _ => return (← single?, rest)

/-- Reads a set in brackets inside the brackets `outer`, the nearest first. -/
def readIn? (options : Options) (bracket : Bracket) (outer : List Bracket) :
    (fuel : Nat) → List Char → Option (Nested CharSet × List Char)
  | 0, _ => none
  | fuel + 1, text => do
      match options.skip text with
      | [] => none
      | c :: rest =>
          let first := bracket.fresh && (c = '-' || (c = ']' && bracket.items.isEmpty))
          if first then
            let bracket := { bracket with fresh := c = '-' }
            readIn? options (bracket.add (← range? options c c)) outer fuel rest
          else
            let bracket := { bracket with fresh := false }
            if c = '[' then
              match readNamed? rest with
              | some (set, negated, rest) =>
                  readIn? options (bracket.add (← named? options set negated)) outer fuel rest
              | none =>
                  let (inner, rest) := start options rest
                  readIn? options inner (bracket :: outer) fuel rest
            else if c = ']' then
              let set ← bracket.close? options
              match outer with
              | [] => return (set, rest)
              | parent :: older => readIn? options (parent.add set) older fuel rest
            else
              match if rest.head? = some c then operation? c else none with
              | some operation =>
                  readIn? options (bracket.combine operation) outer fuel (rest.drop 1)
              | none =>
                  let (item, rest) ← readItem? options (c :: rest)
                  readIn? options (bracket.add item) outer fuel rest

/-- Reads a set behind its opening bracket. -/
def read? (options : Options) (text : List Char) : Option (Nested CharSet × List Char) :=
  let (bracket, rest) := start options text
  readIn? options bracket [] (rest.length + 1) rest

end Bracket

end MetricScript.Pattern
