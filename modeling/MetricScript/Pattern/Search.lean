import MetricScript.Pattern.Basic

/-!
# Searching for a pattern

A pattern is looked for from the left, and among the matches that begin at one place the
pattern prefers one: that of the earlier alternative, and the longer or the shorter
repetition, as it asks for.  The question answered here is whether the preferred match ends
where the text ends.

The pattern is laid out as a table of steps.  All ways through the table are followed at
once, in the order of preference; two ways that meet at a step go on as one, the preferred
one.  Once a way is complete, those that are preferred less are given up.
-/

namespace MetricScript.Pattern

/-- A step on the way through a pattern, with the places of those that may come next. -/
inductive Step where
  /-- The pattern is complete. -/
  | done
  /-- A character of the set comes next. -/
  | take (set : CharSet) (next : Nat)
  /-- Goes on if the condition holds. -/
  | check (condition : Edge) (next : Nat)
  /-- Goes on in two ways, rather in the first. -/
  | fork (first second : Nat)

namespace Step

/-- The step is a fork, which is left at once and whatever the text is. -/
def isFork : Step → Bool
  | fork _ _ => true
  | _ => false

/-- Repeats or goes on, whichever is preferred. -/
def again (greedy : Bool) (body next : Nat) : Step :=
  if greedy then fork body next else fork next body

end Step

abbrev Steps := Array Step

/-- Lays out the steps of a literal in front of a step. -/
def layLiteral (next : Nat) (steps : Steps) : List Char → Nat × Steps
  | [] => (next, steps)
  | c :: rest =>
      let (next, steps) := layLiteral next steps rest
      (steps.size, steps.push (.take (.only c) next))

/-- Lays out the steps of a pattern in front of the step `next`, and tells where they begin.

A loop is a fork behind its body, back to the body or on.  If the body takes a character for
sure, the loop may begin with that fork; otherwise it needs another in front of the body, so
that coming back without a character ends the way instead of taking the wrong turn. -/
def lay (pattern : Pattern) (next : Nat) (steps : Steps) : Nat × Steps :=
  match pattern with
  | empty => (next, steps)
  | literal characters => layLiteral next steps characters
  | one set => (steps.size, steps.push (.take set next))
  | edge condition => (steps.size, steps.push (.check condition next))
  | group _ body => body.lay next steps
  | sequence first rest =>
      let (middle, steps) := rest.lay next steps
      first.lay middle steps
  | choice first rest =>
      let (first, steps) := first.lay next steps
      let (second, steps) := rest.lay next steps
      (steps.size, steps.push (.fork first second))
  | repeated .atMostOnce greedy body =>
      let (begin, steps) := body.lay next steps
      (steps.size, steps.push (.again greedy begin next))
  | repeated .atLeastOnce greedy body =>
      let loop := steps.size
      let (begin, steps) := body.lay loop (steps.push .done)
      (begin, steps.setIfInBounds loop (.again greedy begin next))
  | repeated .any greedy body =>
      let loop := steps.size
      let (begin, steps) := body.lay loop (steps.push .done)
      let steps := steps.setIfInBounds loop (.again greedy begin next)
      if body.shortest?.any (0 < ·) then (loop, steps)
      else (steps.size, steps.push (.again greedy begin next))

namespace Steps

/-- The places that are reached from those in `waiting` without a character, the latest first
and each of them once.  `reached` holds those that were reached before. -/
def reach (steps : Steps) (held : Edge → Bool) :
    (fuel : Nat) → (waiting reached : List Nat) → List Nat
  | 0, _, reached => reached
  | _ + 1, [], reached => reached
  | fuel + 1, place :: waiting, reached =>
      if reached.contains place then reach steps held fuel waiting reached
      else
        let waiting :=
          match steps[place]? with
          | some (.fork first second) => first :: second :: waiting
          | some (.check condition next) => if held condition then next :: waiting else waiting
          | _ => waiting
        reach steps held fuel waiting (place :: reached)

/-- The steps that are reached from places without a character, the preferred one first.
Every step is reached once and leads to two others at most, which bounds the work. -/
def reachable (steps : Steps) (held : Edge → Bool) (places : List Nat) : List Nat :=
  (steps.reach held (2 * steps.size + places.length + 1) places []).reverse.filter fun place =>
    (steps[place]?.map Step.isFork) = some false

/-- A condition at one of the places holds, but not yet by the character before alone. -/
def opens (steps : Steps) (before after : Option Char) (places : List Nat) : Bool :=
  places.any fun place =>
    match steps[place]? with
    | some (.check condition _) => condition.held before after && !condition.heldBefore before
    | _ => false

/-- The steps that are reached between two characters: first those for which the character
before is enough, and from these on those for which the one after has to be known. -/
def between (steps : Steps) (before after : Option Char) (places : List Nat) : List Nat :=
  let early := steps.reachable (Edge.heldBefore before) places
  if steps.opens before after early then steps.reachable (Edge.held before after) early
  else early

/-- The last step of the pattern is at the place. -/
def isDone (steps : Steps) (place : Nat) : Bool :=
  match steps[place]? with
  | some .done => true
  | _ => false

/-- Where the way through a step goes on behind a character. -/
def follow? (steps : Steps) (c : Char) (place : Nat) : Option Nat :=
  match steps[place]? with
  | some (.take set next) => if set.contains c then some next else none
  | _ => none

/-- Follows the ways from `places` through a text; as long as `searching` holds, a new one
starts from `begin` at every character.  Tells whether one is complete at the end. -/
def reachEnd (steps : Steps) (begin : Nat) (searching : Bool) (places : List Nat)
    (before : Option Char) : List Char → Bool
  | [] => (steps.between before none places).any steps.isDone
  | c :: rest =>
      let all := steps.between before (some c) places
      let preferred := all.takeWhile (!steps.isDone ·)
      let searching := searching && preferred.length = all.length
      let next := preferred.filterMap (steps.follow? c)
      reachEnd steps begin searching (if searching then next ++ [begin] else next) (some c) rest

end Steps

/-- The first match of the pattern, and of those that begin with it the preferred one, ends
where the text ends. -/
def reachesEnd (pattern : Pattern) (text : List Char) : Bool :=
  let (begin, steps) := pattern.lay 0 #[.done]
  steps.reachEnd begin true [begin] none text

end MetricScript.Pattern
