/-!
# Decoding UTF-8 with replacement

Bytes are read as UTF-8 from the left.  Where no character can be read, the longest run of
bytes that could have begun one, or else a single byte, is replaced by one replacement
character, and reading goes on behind it.  So every list of bytes has a text.
-/

namespace MetricScript.Text

/-- The character that stands for bytes that cannot be read. -/
def replacement : Char := '\uFFFD'

/-- What follows a first byte: how many bytes are missing, in which range the next one must
lie, and the bits of the code point so far.  Bytes that begin no character give nothing. -/
def leadByte? (byte : Nat) : Option (Nat × Nat × Nat × Nat) :=
  if byte < 0x80 then some (0, 0x80, 0xBF, byte)
  else if byte < 0xC2 then none
  else if byte < 0xE0 then some (1, 0x80, 0xBF, byte - 0xC0)
  else if byte = 0xE0 then some (2, 0xA0, 0xBF, 0)
  else if byte = 0xED then some (2, 0x80, 0x9F, 0xD)
  else if byte < 0xF0 then some (2, 0x80, 0xBF, byte - 0xE0)
  else if byte = 0xF0 then some (3, 0x90, 0xBF, 0)
  else if byte < 0xF4 then some (3, 0x80, 0xBF, byte - 0xF0)
  else if byte = 0xF4 then some (3, 0x80, 0x8F, 4)
  else none

/-- Reads the missing bytes of a character, the first of them between `low` and `high`.
Gives the code point if all are there, and the bytes behind those that were read. -/
def readTrail (code low high : Nat) : (missing : Nat) → List UInt8 → Option Nat × List UInt8
  | 0, bytes => (some code, bytes)
  | _ + 1, [] => (none, [])
  | missing + 1, byte :: rest =>
      if low ≤ byte.toNat && byte.toNat ≤ high then
        readTrail (code * 64 + byte.toNat % 64) 0x80 0xBF missing rest
      else (none, byte :: rest)

/-- Reading the missing bytes never goes back. -/
theorem length_readTrail_le (code low high missing : Nat) (bytes : List UInt8) :
    (readTrail code low high missing bytes).2.length ≤ bytes.length := by
  fun_induction readTrail code low high missing bytes with
  | case1 => exact Nat.le_refl _
  | case2 => exact Nat.le_refl _
  | case3 code low high missing byte rest _ ih => exact Nat.le_succ_of_le ih
  | case4 => exact Nat.le_refl _

def decodeUtf8 : List UInt8 → List Char
  | [] => []
  | byte :: rest =>
      match leadByte? byte.toNat with
      | none => replacement :: decodeUtf8 rest
      | some (missing, low, high, code) =>
          let trail := readTrail code low high missing rest
          ((trail.1.map Char.ofNat).getD replacement) :: decodeUtf8 trail.2
termination_by bytes => bytes.length
decreasing_by
  · exact Nat.lt_succ_self _
  · exact Nat.lt_succ_of_le (length_readTrail_le _ _ _ _ _)

end MetricScript.Text
