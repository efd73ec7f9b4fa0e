import MetricScript.CommandLine.Directive

/-!
# Log filters

A filter is a list of directives between commas.  The messages of a script come from one
source, at one level and inside one span, so the question here is only whether a filter lets
them pass.

A directive for the span counts for everything that happens inside of it, and a directive
for the source counts if none names the source more closely.  A directive with a field, but
without a span and a value, counts both ways: for spans with this field and for messages
with it.
-/

namespace MetricScript.CommandLine

abbrev LogFilter := List Directive

namespace LogFilter

def directiveTexts (text : String) : List (List Char) :=
  (Text.splitMark ',' text.toList).filter (!·.isEmpty)

/-- Reads directives and leaves out those that are malformed. -/
def readAll : List (List Char) → Except DirectiveFlaw LogFilter
  | [] => .ok []
  | text :: rest =>
      match Directive.read text with
      | .ok directive => (readAll rest).map (directive :: ·)
      | .error .malformed => readAll rest
      | .error .torn => .error .torn

/-- Reads a filter and leaves out what is no directive. -/
def read (text : String) : Except DirectiveFlaw LogFilter := readAll (directiveTexts text)

/-- Reads a filter in which everything must be a directive. -/
def readStrictly (text : String) : Except DirectiveFlaw LogFilter :=
  (directiveTexts text).mapM Directive.read

/-- The source of the messages of a script. -/
def scriptTarget : List Char := "asl::script".toList

/-- The field that such a message has. -/
def messageField : List Char := "message".toList

/-- The source of the span that a run takes place in. -/
def runTarget : List Char := "asl".toList

/-- The name of that span. -/
def runSpan : List Char := "run".toList

/-- The field of that span, which tells the runs apart. -/
def runField : List Char := "id".toList

/-- The directives name the same. -/
def sameSubject (left right : Directive) : Bool :=
  left.target = right.target && left.span = right.span && left.field = right.field

/-- The directives in force: of those that name the same, the latest. -/
def settled : LogFilter → LogFilter
  | [] => []
  | directive :: rest =>
      if rest.any (sameSubject directive) then settled rest else directive :: settled rest

/-- The directive concerns a source. -/
def concerns (directive : Directive) (target : List Char) : Bool :=
  match directive.target with
  | none => true
  | some wanted => wanted.isPrefixOf target

/-- The directive is one for spans, and for the span of a run with the given id. -/
def concernsRun (id : List Char) (directive : Directive) : Bool :=
  (directive.span.isSome || directive.field.isSome) && concerns directive runTarget &&
    (directive.span = none || directive.span = some runSpan) &&
    match directive.field with
    | none => true
    | some test => test.name = runField && test.passes id

/-- The directive is one for messages, and for those of a script. -/
def concernsScripts (directive : Directive) : Bool :=
  directive.span.isNone && concerns directive scriptTarget &&
    match directive.field with
    | none => true
    | some test => test.name = messageField && test.value.isNone

/-- How closely a directive names its messages, first by their source and then by their
field. -/
def closeness (directive : Directive) : Nat :=
  let byTarget :=
    match directive.target with
    | none => 0
    | some target => target.length + 1
  2 * byTarget + if directive.field.isSome then 1 else 0

/-- The directive that names the messages of scripts most closely. -/
def closest? (filter : LogFilter) : Option Directive :=
  (filter.filter concernsScripts).foldl
    (fun best directive =>
      match best with
      | none => some directive
      | some other => if closeness other < closeness directive then some directive else best)
    none

/-- The messages of a script pass the filter in the run with the given id, by the span
around them or by themselves. -/
def allowsScripts (filter : LogFilter) (id : String) : Bool :=
  let inForce := settled filter
  (inForce.any fun directive => concernsRun id.toList directive && directive.level.allowsInfo) ||
    match closest? inForce with
    | some directive => directive.level.allowsInfo
    | none => false

/-- The filter in force: the one asked for, else that of the environment if it can be read,
else that of the settings, else warnings only. -/
def choose (asked environment settings : Option String) : Except DirectiveFlaw LogFilter :=
  match asked, environment.map readStrictly with
  | some text, _ => read text
  | none, some (.ok filter) => .ok filter
  | none, some (.error .torn) => .error .torn
  | none, _ => read (settings.getD "warn")

end LogFilter

end MetricScript.CommandLine
