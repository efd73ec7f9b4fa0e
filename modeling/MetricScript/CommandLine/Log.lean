import MetricScript.Number.Decimal
import MetricScript.Text.Quoted
import MetricScript.Text.Split

/-!
# Logs

How much is logged, how a message stands in a log, and the ids by which runs are told apart in it.
-/

namespace MetricScript.CommandLine

/-! ## Levels

A level is written as a number or as a name in any letter case. -/

/-- How much is logged, from nothing to everything. -/
inductive LogLevel where
  | off
  | error
  | warn
  | info
  | debug
  | trace
deriving DecidableEq

namespace LogLevel

def rank : LogLevel → Nat
  | off => 0
  | error => 1
  | warn => 2
  | info => 3
  | debug => 4
  | trace => 5

def ofRank? : Nat → Option LogLevel
  | 0 => some off
  | 1 => some error
  | 2 => some warn
  | 3 => some info
  | 4 => some debug
  | 5 => some trace
  | _ => none

/-- The level of a number or of a name in any letter case. -/
def read? (text : List Char) : Option LogLevel :=
  match Number.unsigned? text with
  | some rank => ofRank? rank
  | none =>
      match String.ofList (text.map Number.lowerAscii) with
      | "off" => some off
      | "error" => some error
      | "warn" => some warn
      | "info" => some info
      | "debug" => some debug
      | "trace" => some trace
      | _ => none

/-- The level lets messages of level `info` pass. -/
def allowsInfo (level : LogLevel) : Bool := info.rank ≤ level.rank

end LogLevel

/-! ## Lines

A message of a script is logged behind the name of its source.  Characters that could steer
a terminal are written as their codes; line breaks are kept, so a message of several lines
names its source in the first one only.  The messages of a log are what stands behind the
name of the source, in the lines that have it. -/

namespace LogLine

/-- The name of the source, as it stands before a message. -/
def source : String := "asl::script: "

/-- A code of two small hexadecimal digits. -/
def shortCode (c : Char) : List Char :=
  '\\' :: 'x' :: Nat.digitChar (c.toNat / 16) :: [Nat.digitChar (c.toNat % 16)]

/-- One character of a logged message: bell, backspace, form feed, escape and delete have
short codes, and the control characters of the upper half have codes in braces. -/
def showChar (c : Char) : List Char :=
  if c = '\x07' || c = '\x08' || c = '\x0c' || c = '\x1b' || c = '\x7f' then shortCode c
  else if 0x80 ≤ c.toNat && c.toNat ≤ 0x9f then Text.escapeCode c
  else [c]

def ofMessage (message : String) : String :=
  "INFO " ++ source ++ String.ofList (message.toList.flatMap showChar) ++ "\n"

/-- The messages in the text of a log. -/
def messages (text : String) : List String :=
  (Text.lines text.toList).filterMap fun line =>
    (Text.after? source.toList line).map String.ofList

end LogLine

/-! ## Ids of runs

Every run has an id, by which its span in the log is told from others: thirty-two
hexadecimal digits in five groups, of which one digit stands for the kind of id and one for
its layout, and the others are random. -/

/-- The lowest digits of a number in base sixteen, the highest of them first. -/
def hexDigits (number : Nat) : (count : Nat) → List Char
  | 0 => []
  | count + 1 => hexDigits (number / 16) count ++ [Nat.digitChar (number % 16)]

/-- The id of a run, from a random number. -/
def runId (random : Nat) : String :=
  let digits := hexDigits random 30
  let layout := Nat.digitChar (8 + random % 4)
  String.ofList (digits.take 8 ++ '-' :: (digits.drop 8).take 4 ++ '-' :: '4' ::
    (digits.drop 12).take 3 ++ '-' :: layout :: (digits.drop 15).take 3 ++ '-' ::
    (digits.drop 18).take 12)

end MetricScript.CommandLine
