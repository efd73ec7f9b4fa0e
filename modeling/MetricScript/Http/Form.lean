import MetricScript.Json.Read
import MetricScript.Fault
import MetricScript.Text.Split
import MetricScript.Text.Utf8

/-!
# Bodies of responses

A body is decoded by its content type.  JSON and form data become documents, any other
body is a string.  Form data is a list of pairs between ampersands; in its texts a plus
sign is a blank and a percent sign begins the hexadecimal code of a byte.
-/

namespace MetricScript

namespace Form

open MetricScript.Number (hexDigit?)

/-- The byte that the two characters behind a percent sign stand for: two hexadecimal
digits, or one with a plus sign before it. -/
def escapedByte? (first second : Char) : Option UInt8 :=
  if first = '+' then (hexDigit? second).map UInt8.ofNat
  else do return UInt8.ofNat (16 * (← hexDigit? first) + (← hexDigit? second))

/-- The bytes of an encoded text.  A percent sign that begins no code stands for itself.
`skip` counts the characters of the current code that are still to pass. -/
def bytesOf (skip : Nat) : List Char → List UInt8
  | [] => []
  | c :: rest =>
      match skip with
      | skip + 1 => bytesOf skip rest
      | 0 =>
          if c = '+' then 0x20 :: bytesOf 0 rest
          else
            let escaped :=
              match c, rest with
              | '%', first :: second :: _ => escapedByte? first second
              | _, _ => none
            match escaped with
            | some byte => byte :: bytesOf 2 rest
            | none => String.utf8EncodeChar c ++ bytesOf 0 rest

def decodeText (text : List Char) : String := String.ofList (Text.decodeUtf8 (bytesOf 0 text))

/-- A pair: what stands before its first equals sign and what stands behind it, decoded. -/
def decodePair (pair : List Char) : String × Json :=
  let key := pair.takeWhile (· ≠ '=')
  let value := (pair.dropWhile (· ≠ '=')).drop 1
  (decodeText key, .string (decodeText value))

/-- The entries of form data; empty pairs do not count, and of two pairs with one key the
later does. -/
def decode (text : String) : Table Json :=
  Table.ofList (((Text.splitMark '&' text.toList).filter (!·.isEmpty)).map decodePair)

end Form

/-- Decodes the body of a response by its content type. -/
def decodeBody (contentType text : String) : Except ProviderError Json :=
  match contentType with
  | "application/json" =>
      match Json.read? text with
      | some document => .ok document
      | none => .error (.decode "not a JSON document")
  | "application/x-www-form-urlencoded" => .ok (.object (Form.decode text))
  | _ => .ok (.string text)

end MetricScript
