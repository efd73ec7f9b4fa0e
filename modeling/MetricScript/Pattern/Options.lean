import MetricScript.Text.Classes

/-!
# Options of a pattern

Options change how the text of a pattern is read.  They are letters; those behind a dash are
switched off.
-/

namespace MetricScript.Pattern

/-- How the text of a pattern is read. -/
structure Options where
  /-- Capital and small letters are the same. -/
  ignoreCase : Bool := false
  /-- The signs for start and end mean every line. -/
  eachLine : Bool := false
  /-- A point takes also the end of a line. -/
  pointTakesAll : Bool := false
  /-- Repetitions are not greedy unless they say so. -/
  swapGreed : Bool := false
  /-- Characters are those of ASCII. -/
  ascii : Bool := false
  /-- Carriage returns end lines as well. -/
  returns : Bool := false
  /-- Blanks and comments are skipped. -/
  spaced : Bool := false

namespace Options

/-- Switches the option of a letter. -/
def switch? (options : Options) (letter : Char) (on : Bool) : Option Options :=
  match letter with
  | 'i' => some { options with ignoreCase := on }
  | 'm' => some { options with eachLine := on }
  | 's' => some { options with pointTakesAll := on }
  | 'U' => some { options with swapGreed := on }
  | 'u' => some { options with ascii := !on }
  | 'R' => some { options with returns := on }
  | 'x' => some { options with spaced := on }
  | _ => none

/-- Reads letters up to a colon or a closing bracket.  `seen` holds the signs before, the
latest first; none may come twice, and a dash must not be the last.  The result has the
options, all signs, and the rest from the colon or bracket on. -/
def read? (options : Options) (seen : List Char) :
    List Char → Option (Options × List Char × List Char)
  | [] => none
  | c :: rest =>
      if c = ':' || c = ')' then
        if seen.head? = some '-' then none else some (options, seen, c :: rest)
      else if seen.contains c then none
      else if c = '-' then options.read? (c :: seen) rest
      else
        match options.switch? c (!seen.contains '-') with
        | some options => options.read? (c :: seen) rest
        | none => none

/-- The text behind blanks and comments, which reach from a hash sign to the end of the
line. -/
def afterBlanks (inComment : Bool) : List Char → List Char
  | [] => []
  | c :: rest =>
      if inComment then afterBlanks (c ≠ '\n') rest
      else if Text.isBlank c then afterBlanks false rest
      else if c = '#' then afterBlanks true rest
      else c :: rest

/-- The text behind what is skipped. -/
def skip (options : Options) (text : List Char) : List Char :=
  if options.spaced then afterBlanks false text else text

/-- The next sign.  Blanks do not count if they are skipped, and nor does a hash sign, but
what stands in the comment does; if there is nothing else, the next character counts. -/
def peek? (options : Options) (text : List Char) : Option Char :=
  if !options.spaced then text.head?
  else
    match text.dropWhile Text.isBlank with
    | '#' :: comment => (comment.dropWhile Text.isBlank).head?.or text.head?
    | signs => signs.head?.or text.head?

end Options

end MetricScript.Pattern
