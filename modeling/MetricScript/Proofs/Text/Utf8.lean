import Mathlib
import MetricScript.Text.Utf8

/-!
# Texts as bytes

A character of the basic alphabet is one byte, and every byte of another character lies above
them, so bytes of the basic alphabet can be found without looking at characters.  Main statement:
the bytes of a text are decoded as that text.
-/

namespace MetricScript.Text

open String (utf8EncodeChar)

def encodeUtf8 (text : List Char) : List UInt8 := text.flatMap utf8EncodeChar

theorem encodeUtf8_cons (c : Char) (text : List Char) :
    encodeUtf8 (c :: text) = utf8EncodeChar c ++ encodeUtf8 text :=
  List.flatMap_cons

/-! ## The basic alphabet -/

theorem utf8EncodeChar_of_lt {c : Char} (hc : c.toNat < 128) :
    utf8EncodeChar c = [UInt8.ofNat c.toNat] :=
  if_pos (Nat.le_of_lt_succ hc)

/-- An ASCII character is one byte. -/
theorem encodeUtf8_cons_of_lt {c : Char} (hc : c.toNat < 128) (text : List Char) :
    encodeUtf8 (c :: text) = UInt8.ofNat c.toNat :: encodeUtf8 text := by
  rw [encodeUtf8_cons, utf8EncodeChar_of_lt hc, List.singleton_append]

theorem le_toNat_ofNat {n : Nat} (hleast : 128 ≤ n) (hmost : n < 256) :
    128 ≤ (UInt8.ofNat n).toNat := by
  rwa [UInt8.toNat_ofNat_of_lt' hmost]

/-- The bytes of other characters are all above the basic alphabet. -/
theorem le_of_mem_utf8EncodeChar {c : Char} (hc : 128 ≤ c.toNat) :
    ∀ byte ∈ utf8EncodeChar c, 128 ≤ byte.toNat := by
  have hsmall : ¬ c.val.toNat ≤ 127 := Nat.not_le.2 hc
  have htrail : ∀ n, 128 ≤ (UInt8.ofNat (n % 64 + 128)).toNat :=
    fun n => le_toNat_ofNat (by omega) (by omega)
  unfold utf8EncodeChar
  simp only [hsmall, if_false]
  split
  · refine List.forall_mem_cons.2 ⟨le_toNat_ofNat (by omega) (by omega), ?_⟩
    exact List.forall_mem_singleton.2 (htrail _)
  split
  · refine List.forall_mem_cons.2 ⟨le_toNat_ofNat (by omega) (by omega), ?_⟩
    exact List.forall_mem_cons.2 ⟨htrail _, List.forall_mem_singleton.2 (htrail _)⟩
  · refine List.forall_mem_cons.2 ⟨le_toNat_ofNat (by omega) (by omega), ?_⟩
    refine List.forall_mem_cons.2 ⟨htrail _, ?_⟩
    exact List.forall_mem_cons.2 ⟨htrail _, List.forall_mem_singleton.2 (htrail _)⟩

/-- Any other character begins with a byte that is not ASCII. -/
theorem le_of_encodeUtf8_eq_cons {c : Char} (hc : 128 ≤ c.toNat) {text : List Char} {first : UInt8}
    {more : List UInt8} (hbytes : encodeUtf8 (c :: text) = first :: more) : 128 ≤ first.toNat := by
  rw [encodeUtf8_cons] at hbytes
  obtain ⟨byte, bytes, hchar⟩ := List.exists_cons_of_ne_nil (@String.utf8EncodeChar_ne_nil c)
  rw [hchar] at hbytes
  obtain ⟨rfl, _⟩ := List.cons.inj hbytes
  exact le_of_mem_utf8EncodeChar hc byte (hchar ▸ List.mem_cons_self)

/-! ## Decoding -/

/-- A byte in the range is read. -/
theorem readTrail_cons {low high byte : Nat} (hlow : low ≤ byte) (hhigh : byte ≤ high)
    (hbyte : byte < 256) (code missing : Nat) (rest : List UInt8) :
    readTrail code low high (missing + 1) (UInt8.ofNat byte :: rest) =
      readTrail (code * 64 + byte % 64) 0x80 0xBF missing rest := by
  rw [readTrail, UInt8.toNat_ofNat_of_lt' hbyte, if_pos (by simp [hlow, hhigh])]

/-- A first byte and the bytes that it asks for are one character. -/
theorem decodeUtf8_cons {first : Nat} (hfirst : first < 256) {missing low high code : Nat}
    (hlead : leadByte? first = some (missing, low, high, code)) (trail : List UInt8)
    {rest : List UInt8} {n : Nat}
    (htrail : readTrail code low high missing (trail ++ rest) = (some n, rest)) :
    decodeUtf8 (UInt8.ofNat first :: (trail ++ rest)) = Char.ofNat n :: decodeUtf8 rest := by
  rw [decodeUtf8, UInt8.toNat_ofNat_of_lt' hfirst, hlead]
  simp only [htrail, Option.map_some, Option.getD_some]

section Characters

variable {n : Nat} (rest : List UInt8)

theorem decodeUtf8_one (hn : n ≤ 127) :
    decodeUtf8 (UInt8.ofNat n :: rest) = Char.ofNat n :: decodeUtf8 rest := by
  have hlead : leadByte? n = some (0, 0x80, 0xBF, n) := if_pos (by omega)
  exact decodeUtf8_cons (by omega) hlead [] rfl

theorem decodeUtf8_two (hleast : 127 < n) (hmost : n ≤ 2047) :
    decodeUtf8 (UInt8.ofNat (n / 64 % 32 + 192) :: UInt8.ofNat (n % 64 + 128) :: rest) =
      Char.ofNat n :: decodeUtf8 rest := by
  have hcode : n / 64 % 32 + 192 - 0xC0 = n / 64 := by omega
  have hlead : leadByte? (n / 64 % 32 + 192) = some (1, 0x80, 0xBF, n / 64) := by
    rw [leadByte?, if_neg (by omega), if_neg (by omega), if_pos (by omega), hcode]
  have hvalue : n / 64 * 64 + (n % 64 + 128) % 64 = n := by omega
  refine decodeUtf8_cons (by omega) hlead [UInt8.ofNat (n % 64 + 128)] ?_
  rw [List.singleton_append, readTrail_cons (by omega) (by omega) (by omega), readTrail, hvalue]

/-- The range of the second byte keeps surrogates out, and numbers with a shorter form. -/
theorem decodeUtf8_three (hleast : 2047 < n) (hmost : n ≤ 65535)
    (hchar : n < 0xD800 ∨ 0xDFFF < n) :
    decodeUtf8 (UInt8.ofNat (n / 4096 % 16 + 224) :: UInt8.ofNat (n / 64 % 64 + 128) ::
      UInt8.ofNat (n % 64 + 128) :: rest) = Char.ofNat n :: decodeUtf8 rest := by
  have hcode : n / 4096 % 16 + 224 - 0xE0 = n / 4096 := by omega
  obtain ⟨low, high, hlead, hlow, hhigh⟩ : ∃ low high,
      leadByte? (n / 4096 % 16 + 224) = some (2, low, high, n / 4096) ∧
        low ≤ n / 64 % 64 + 128 ∧ n / 64 % 64 + 128 ≤ high := by
    by_cases hfirst : n / 4096 = 0
    · exact ⟨0xA0, 0xBF, by rw [hfirst]; rfl, by omega, by omega⟩
    by_cases hsurrogate : n / 4096 = 13
    · exact ⟨0x80, 0x9F, by rw [hsurrogate]; rfl, by omega, by omega⟩
    · refine ⟨0x80, 0xBF, ?_, by omega, by omega⟩
      rw [leadByte?, if_neg (by omega), if_neg (by omega), if_neg (by omega), if_neg (by omega),
        if_neg (by omega), if_pos (by omega), hcode]
  have hvalue : (n / 4096 * 64 + (n / 64 % 64 + 128) % 64) * 64 + (n % 64 + 128) % 64 = n := by
    omega
  refine decodeUtf8_cons (by omega) hlead
    [UInt8.ofNat (n / 64 % 64 + 128), UInt8.ofNat (n % 64 + 128)] ?_
  rw [List.cons_append, List.singleton_append, readTrail_cons hlow hhigh (by omega),
    readTrail_cons (by omega) (by omega) (by omega), readTrail, hvalue]

/-- Four bytes in the pattern of the encoding are decoded to their character. -/
theorem decodeUtf8_four (hleast : 65535 < n) (hmost : n ≤ 0x10FFFF) :
    decodeUtf8 (UInt8.ofNat (n / 262144 % 8 + 240) :: UInt8.ofNat (n / 4096 % 64 + 128) ::
      UInt8.ofNat (n / 64 % 64 + 128) :: UInt8.ofNat (n % 64 + 128) :: rest) =
      Char.ofNat n :: decodeUtf8 rest := by
  have hcode : n / 262144 % 8 + 240 - 0xF0 = n / 262144 := by omega
  obtain ⟨low, high, hlead, hlow, hhigh⟩ : ∃ low high,
      leadByte? (n / 262144 % 8 + 240) = some (3, low, high, n / 262144) ∧
        low ≤ n / 4096 % 64 + 128 ∧ n / 4096 % 64 + 128 ≤ high := by
    by_cases hfirst : n / 262144 = 0
    · exact ⟨0x90, 0xBF, by rw [hfirst]; rfl, by omega, by omega⟩
    by_cases hlast : n / 262144 = 4
    · exact ⟨0x80, 0x8F, by rw [hlast]; rfl, by omega, by omega⟩
    · refine ⟨0x80, 0xBF, ?_, by omega, by omega⟩
      rw [leadByte?, if_neg (by omega), if_neg (by omega), if_neg (by omega), if_neg (by omega),
        if_neg (by omega), if_neg (by omega), if_neg (by omega), if_pos (by omega), hcode]
  have hvalue : ((n / 262144 * 64 + (n / 4096 % 64 + 128) % 64) * 64 +
      (n / 64 % 64 + 128) % 64) * 64 + (n % 64 + 128) % 64 = n := by omega
  refine decodeUtf8_cons (by omega) hlead [UInt8.ofNat (n / 4096 % 64 + 128),
    UInt8.ofNat (n / 64 % 64 + 128), UInt8.ofNat (n % 64 + 128)] ?_
  rw [List.cons_append, List.cons_append, List.singleton_append,
    readTrail_cons hlow hhigh (by omega), readTrail_cons (by omega) (by omega) (by omega),
    readTrail_cons (by omega) (by omega) (by omega), readTrail, hvalue]

end Characters

/-- The bytes of a character are decoded as this character, whatever follows. -/
theorem decodeUtf8_utf8EncodeChar (c : Char) (rest : List UInt8) :
    decodeUtf8 (utf8EncodeChar c ++ rest) = c :: decodeUtf8 rest := by
  have hchar : c.val.toNat < 0xD800 ∨ 0xDFFF < c.val.toNat ∧ c.val.toNat < 0x110000 := c.valid
  suffices hvalue : decodeUtf8 (utf8EncodeChar c ++ rest) =
      Char.ofNat c.val.toNat :: decodeUtf8 rest by
    rw [hvalue]
    exact congrArg (· :: _) (Char.ofNat_toNat c)
  unfold utf8EncodeChar
  dsimp only
  split
  · next hone => exact decodeUtf8_one rest hone
  split
  · next hone htwo => exact decodeUtf8_two rest (by omega) htwo
  split
  · next htwo hthree => exact decodeUtf8_three rest (by omega) hthree (by omega)
  · next hthree => exact decodeUtf8_four rest (by omega) (by omega)

/-- The bytes of a text are decoded as this text. -/
theorem decodeUtf8_encodeUtf8 (text : List Char) : decodeUtf8 (encodeUtf8 text) = text := by
  induction text with
  | nil => rw [encodeUtf8, List.flatMap_nil, decodeUtf8]
  | cons c text ih => rw [encodeUtf8_cons, decodeUtf8_utf8EncodeChar, ih]

end MetricScript.Text
