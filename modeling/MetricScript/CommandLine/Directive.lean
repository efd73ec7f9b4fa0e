import MetricScript.CommandLine.Log
import MetricScript.Text.Classes
import MetricScript.Pattern.Read
import MetricScript.Pattern.Search
import MetricScript.Text.Split

/-!
# Log directives

A directive sets the level for what it names: a source of messages by the beginning of its
name, a span by its name in brackets, and inside these a field in braces, which may have to
hold a certain value.  A directive that names nothing is a level alone, and one without a
level takes everything.

Blanks around a directive are not part of it, but nor are they dropped: its signs are found
in the text without these blanks, while its parts are cut from the text with them, at the
places where the signs were found.  So a blank at the front shifts all parts to the left, and
a part whose ends come to lie inside a character cannot be cut at all.
-/

namespace MetricScript.CommandLine

/-- A field, and the text that its value is compared with. -/
structure FieldTest where
  name : List Char
  value : Option (List Char) := none
deriving DecidableEq

namespace FieldTest

/-- The text is a truth value or a number.  As such it never equals the value of a field
that holds a text. -/
def isPlain (text : List Char) : Bool :=
  String.ofList text = "true" || String.ofList text = "false" ||
    (Number.read? (String.ofList text)).isSome

/-- Reads a field and the value behind an equals sign; what follows a second equals sign
does not count.  A value that is not plain must be a pattern. -/
def read? (text : List Char) : Option FieldTest :=
  match Text.splitMark '=' text with
  | name :: value :: _ =>
      if isPlain value || (Pattern.read? value).isSome then some { name, value := some value }
      else none
  | [name] => some { name }
  | [] => none

/-- A field with a text as its value passes the test. -/
def passes (test : FieldTest) (content : List Char) : Bool :=
  match test.value with
  | none => true
  | some value =>
      !isPlain value &&
        match Pattern.read? value with
        | some pattern => pattern.reachesEnd content
        | none => false

end FieldTest

structure Directive where
  target : Option (List Char) := none
  span : Option (List Char) := none
  field : Option FieldTest := none
  level : LogLevel := .trace
deriving DecidableEq

/-- Why a text cannot be read as a directive. -/
inductive DirectiveFlaw where
  | malformed
  /-- A part begins or ends inside a character. -/
  | torn
deriving DecidableEq

namespace Directive

/-- How far a directive has been read; the numbers are the places where a part begins. -/
inductive Stage where
  | begun
  /-- In a target, or in a level that stands alone. -/
  | word
  | span (place : Nat)
  | field (place : Nat)
  | fieldRead
  | spanRead
  | level (place : Nat)

/-- The part of a text between two places. -/
def part (text : List Char) (first last : Nat) : Except DirectiveFlaw (List Char) :=
  match Text.cutBytes? first last text with
  | some part => .ok part
  | none => .error .torn

/-- A character that a directive without brackets may begin with. -/
def mayBegin (c : Char) : Bool := c = '-' || c = ':' || c = '_' || Text.isAlphanumeric c

/-- Reads on by the character at a place. -/
def readOn (text : List Char) :
    Directive × Stage → Nat × Char → Except DirectiveFlaw (Directive × Stage)
  | (directive, .begun), (place, c) =>
      if c = '[' then .ok (directive, .span (place + 1))
      else if mayBegin c then .ok (directive, .word)
      else .error .malformed
  | (directive, .word), (place, c) =>
      if c = '=' then do
        let target ← part text 0 place
        .ok ({ directive with target := some target }, .level (place + 1))
      else if c = '[' then do
        let target ← part text 0 place
        .ok ({ directive with target := some target }, .span (place + 1))
      else .ok (directive, .word)
  | (directive, .span first), (place, c) =>
      if c = ']' then do
        let span ← part text first place
        .ok ({ directive with span := some span }, .spanRead)
      else if c = '\x7b' then do
        let span ← part text first place
        .ok ({ directive with span := if span.isEmpty then none else some span },
          .field (place + 1))
      else .ok (directive, .span first)
  | (directive, .field first), (place, c) =>
      if c = '\x7d' then do
        let field ← part text first place
        match if field.isEmpty then none else FieldTest.read? field with
        | some field => .ok ({ directive with field := some field }, .fieldRead)
        | none => .error .malformed
      else .ok (directive, .field first)
  | (directive, .fieldRead), (_, c) =>
      if c = ']' then .ok (directive, .spanRead) else .error .malformed
  | (directive, .spanRead), (place, c) =>
      if c = '=' then .ok (directive, .level (place + 1)) else .error .malformed
  | (directive, .level first), _ => .ok (directive, .level first)

/-- A directive without brackets and equals sign: a level, or a target that is not a
level. -/
def ofWord (text : List Char) : Directive :=
  match LogLevel.read? text with
  | some level => { level }
  | none => { target := some text }

/-- What has been read at the end of the text. -/
def finish (text : List Char) : Directive × Stage → Except DirectiveFlaw Directive
  | (_, .word) => .ok (ofWord text)
  | (directive, .spanRead) => .ok directive
  | (directive, .level first) =>
      match Text.dropBytes? first text with
      | none => .error .torn
      | some [] => .ok directive
      | some name =>
          match LogLevel.read? name with
          | some level => .ok { directive with level }
          | none => .error .malformed
  | _ => .error .malformed

/-- The characters of a text with their places, counted in bytes from `place` on. -/
def withPlaces (place : Nat) : List Char → List (Nat × Char)
  | [] => []
  | c :: rest => (place, c) :: withPlaces (place + c.utf8Size) rest

def read (text : List Char) : Except DirectiveFlaw Directive := do
  finish text (← (withPlaces 0 (Text.trimList text)).foldlM (readOn text) ({}, .begun))

end Directive

end MetricScript.CommandLine
