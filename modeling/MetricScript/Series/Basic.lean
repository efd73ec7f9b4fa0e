import MetricScript.Series.Aggregate

/-!
# Series of samples

A series holds samples in ascending order of time, one for each time.  A new sample is put
in its place by binary search.  Windows of time include both of their ends; the buckets of
an aggregate lie one after the other and end now.  All arithmetic on times clamps to the
64-bit range.
-/

namespace MetricScript

/-- A sum of times, clamped. -/
def addClamped (left right : Int64) : Int64 := .ofIntClamp (left.toInt + right.toInt)

/-- A difference of times, clamped. -/
def subClamped (left right : Int64) : Int64 := .ofIntClamp (left.toInt - right.toInt)

/-- A multiple of a time, clamped. -/
def mulClamped (left : Int64) (right : Nat) : Int64 := .ofIntClamp (left.toInt * right)

/-- Samples in ascending order of time. -/
abbrev Series := List Point

/-- How a series is shortened. -/
inductive Trim where
  /-- Samples before this time are dropped. -/
  | since (timestamp : Int64)
  /-- Only this many samples are kept, the newest ones. -/
  | count (samples : Nat)
deriving DecidableEq

namespace Series

/-- Times rise strictly. -/
def Ascending (points : List Point) : Prop :=
  points.Pairwise fun left right => left.timestamp < right.timestamp

/-- Narrows down where a time belongs: `size` samples from `base` on are still in question.
The last sample that is not newer than the time is kept among them. -/
def narrow (points : List Point) (timestamp : Int64) (base size : Nat) : Nat :=
  if size ≤ 1 then base
  else
    let middle := base + size / 2
    let newer : Bool :=
      match points[middle]? with
      | some point => timestamp < point.timestamp
      | none => true
    narrow points timestamp (if newer then base else middle) (size - size / 2)
termination_by size

/-- Puts a sample in its place, where it replaces a sample of the same time. -/
def push (point : Point) (points : List Point) : List Point :=
  let base := narrow points point.timestamp 0 points.length
  match points[base]? with
  | none => [point]
  | some found =>
      if found.timestamp = point.timestamp then points.set base point
      else if found.timestamp < point.timestamp then points.insertIdx (base + 1) point
      else points.insertIdx base point

/-- The newest sample. -/
def last? (points : List Point) : Option Point := points.getLast?

/-- The newest samples, at most `count` of them. -/
def newest (count : Nat) (points : List Point) : List Point :=
  points.drop (points.length - count)

def trim (points : List Point) : Trim → List Point
  | .since timestamp => points.filter fun point => timestamp ≤ point.timestamp
  | .count samples => newest samples points

/-- The values of the samples from one time to another, both included. -/
def window (first final : Int64) (points : List Point) : List Float :=
  (points.filter fun point => first ≤ point.timestamp && point.timestamp ≤ final).map (·.value)

/-- The first and the last times of `count` buckets after a time. -/
def bucketsAfter (start interval : Int64) : Nat → List (Int64 × Int64)
  | 0 => []
  | count + 1 =>
      let final := addClamped start interval
      (addClamped start 1, final) :: bucketsAfter final interval count

/-- The first and the last times of `count` buckets that end now. -/
def buckets (now interval : Int64) (count : Nat) : List (Int64 × Int64) :=
  bucketsAfter (subClamped now (mulClamped interval count)) interval count

end Series

end MetricScript
