import Mathlib
import MetricScript.Http.Form
import MetricScript.Proofs.Text.Utf8

/-!
# Escapes in form data

The rule for escapes speaks of bytes: from the left, a plus sign becomes a blank and a percent
sign with two hexadecimal digits behind it becomes the byte that they spell.  Everything else is
copied, a percent sign without two digits included, and the pass goes on with the very next byte.
`unescape` is this pass, for any notion of what a percent sign makes of the two bytes behind it.
Main statement: form data is decoded by this pass, but a plus sign before a single digit counts
as a number too.  Where there is no such sign behind a percent sign, the rule holds as it stands.
-/

namespace MetricScript.Form

open MetricScript.Number (hexDigit?)
open MetricScript.Text (encodeUtf8 encodeUtf8_cons encodeUtf8_cons_of_lt decodeUtf8
  utf8EncodeChar_of_lt le_of_mem_utf8EncodeChar le_of_encodeUtf8_eq_cons)
open String (utf8EncodeChar)

/-! ## The pass over bytes -/

def hexValue? (byte : UInt8) : Option UInt8 :=
  if 0x30 ≤ byte ∧ byte ≤ 0x39 then some (byte - 0x30)
  else if 0x41 ≤ byte ∧ byte ≤ 0x46 then some (byte - 0x37)
  else if 0x61 ≤ byte ∧ byte ≤ 0x66 then some (byte - 0x57)
  else none

def twoDigits? (first second : UInt8) : Option UInt8 := do
  return 16 * (← hexValue? first) + (← hexValue? second)

/-- The same, but a plus sign may stand in the place of the first digit. -/
def signedDigits? (first second : UInt8) : Option UInt8 :=
  if first = 0x2B then hexValue? second else twoDigits? first second

/-- Passes over bytes from the left and replaces plus signs and escapes. -/
def unescape (code? : UInt8 → UInt8 → Option UInt8) : List UInt8 → List UInt8
  | [] => []
  | byte :: rest =>
      if byte = 0x2B then 0x20 :: unescape code? rest
      else if byte = 0x25 then
        match rest with
        | first :: second :: more =>
            match code? first second with
            | some value => value :: unescape code? more
            | none => byte :: unescape code? (first :: second :: more)
        | short => byte :: unescape code? short
      else byte :: unescape code? rest

/-- The text that a pass over the bytes of a text leaves. -/
def unescaped (code? : UInt8 → UInt8 → Option UInt8) (text : List Char) : String :=
  String.ofList (decodeUtf8 (unescape code? (encodeUtf8 text)))

section Unescape

variable {code? : UInt8 → UInt8 → Option UInt8}

theorem unescape_plus (rest : List UInt8) :
    unescape code? (0x2B :: rest) = 0x20 :: unescape code? rest := by
  rw [unescape.eq_def]
  rfl

theorem unescape_escape {first second value : UInt8} (hvalue : code? first second = some value)
    (rest : List UInt8) :
    unescape code? (0x25 :: first :: second :: rest) = value :: unescape code? rest := by
  rw [unescape.eq_def]
  simp [hvalue]

/-- A percent sign with no code behind it stays. -/
theorem unescape_percent {rest : List UInt8}
    (hrest : ∀ first second more, rest = first :: second :: more → code? first second = none) :
    unescape code? (0x25 :: rest) = 0x25 :: unescape code? rest := by
  rw [unescape.eq_def]
  dsimp only
  rw [if_neg (by decide), if_pos rfl]
  split
  · next first second more =>
    rw [hrest first second more rfl]
  · rfl

theorem unescape_append {front : List UInt8}
    (hfront : ∀ byte ∈ front, byte ≠ 0x2B ∧ byte ≠ 0x25) (rest : List UInt8) :
    unescape code? (front ++ rest) = front ++ unescape code? rest := by
  induction front with
  | nil => rfl
  | cons byte front ih =>
    obtain ⟨⟨hplus, hpercent⟩, hfront⟩ := List.forall_mem_cons.1 hfront
    rw [List.cons_append, unescape.eq_def]
    simp only [hplus, hpercent, if_false]
    rw [ih hfront, List.cons_append]

end Unescape

/-! ## Digits as bytes and as characters -/

theorem hexValue?_of_le {byte : UInt8} (hbyte : 128 ≤ byte.toNat) : hexValue? byte = none := by
  have hlarge : ∀ bound : UInt8, bound.toNat < 128 → ¬ byte ≤ bound := by
    intro bound hbound hle
    exact absurd (UInt8.le_iff_toNat_le.1 hle) (by omega)
  simp [hexValue?, hlarge]

theorem signedDigits?_of_le {first second : UInt8}
    (hbytes : 128 ≤ first.toNat ∨ 128 ≤ second.toNat) : signedDigits? first second = none := by
  unfold signedDigits? twoDigits?
  rcases hbytes with hfirst | hsecond
  · have hplus : first ≠ 0x2B := by
      rintro rfl
      exact absurd hfirst (by decide)
    rw [if_neg hplus, hexValue?_of_le hfirst]
    rfl
  · rw [hexValue?_of_le hsecond]
    cases hexValue? first <;> simp

theorem hexValue?_ofNat {c : Char} (hc : c.toNat < 128) :
    hexValue? (UInt8.ofNat c.toNat) = (hexDigit? c).map UInt8.ofNat := by
  have hall : ∀ n < 128, hexValue? (UInt8.ofNat n) =
      (hexDigit? (Char.ofNat n)).map UInt8.ofNat := by decide
  have hvalue := hall c.toNat hc
  rwa [Char.ofNat_toNat] at hvalue

/-- Only an ASCII character is a hexadecimal digit. -/
theorem lt_of_hexDigit? {c : Char} {value : Nat} (hvalue : hexDigit? c = some value) :
    c.toNat < 128 := by
  have hbound : ∀ limit : Char, limit.toNat < 128 → c ≤ limit → c.toNat < 128 :=
    fun limit hlimit hle => Nat.lt_of_le_of_lt hle hlimit
  unfold hexDigit? at hvalue
  simp only [Bool.and_eq_true, decide_eq_true_eq] at hvalue
  split at hvalue
  · next hrange => exact hbound '9' (by decide) hrange.2
  split at hvalue
  · next hrange => exact hbound 'f' (by decide) hrange.2
  split at hvalue
  · next hrange => exact hbound 'F' (by decide) hrange.2
  · exact nomatch hvalue

theorem lt_of_escapedByte? {first second : Char} {value : UInt8}
    (hvalue : escapedByte? first second = some value) :
    first.toNat < 128 ∧ second.toNat < 128 := by
  unfold escapedByte? at hvalue
  split at hvalue
  · next hplus =>
    obtain ⟨digit, hdigit, _⟩ := Option.map_eq_some_iff.1 hvalue
    exact ⟨hplus ▸ by decide, lt_of_hexDigit? hdigit⟩
  · obtain ⟨high, hhigh, hvalue⟩ := Option.bind_eq_some_iff.1 hvalue
    obtain ⟨low, hlow, _⟩ := Option.bind_eq_some_iff.1 hvalue
    exact ⟨lt_of_hexDigit? hhigh, lt_of_hexDigit? hlow⟩

theorem ofNat_eq_plus_iff {c : Char} (hc : c.toNat < 128) :
    UInt8.ofNat c.toNat = 0x2B ↔ c = '+' := by
  have hall : ∀ n < 128, (UInt8.ofNat n = 0x2B ↔ Char.ofNat n = '+') := by decide
  have hplus := hall c.toNat hc
  rwa [Char.ofNat_toNat] at hplus

/-- The bytes of two characters are read like the characters. -/
theorem signedDigits?_ofNat {first second : Char} (hfirst : first.toNat < 128)
    (hsecond : second.toNat < 128) :
    signedDigits? (UInt8.ofNat first.toNat) (UInt8.ofNat second.toNat) =
      escapedByte? first second := by
  unfold signedDigits? twoDigits? escapedByte?
  rw [hexValue?_ofNat hfirst, hexValue?_ofNat hsecond]
  split
  · next hplus => rw [if_pos ((ofNat_eq_plus_iff hfirst).1 hplus)]
  · next hplus =>
    rw [if_neg (mt (ofNat_eq_plus_iff hfirst).2 hplus)]
    cases hexDigit? first with
    | none => rfl
    | some high =>
      cases hexDigit? second with
      | none => rfl
      | some low => simp [UInt8.ofNat_add, UInt8.ofNat_mul]

/-! ## The pass over characters -/

theorem bytesOf_drop (skip : Nat) (text : List Char) :
    bytesOf skip text = bytesOf 0 (text.drop skip) := by
  induction text generalizing skip with
  | nil => simp [bytesOf]
  | cons c rest ih =>
    cases skip with
    | zero => rfl
    | succ skip => simpa [bytesOf] using ih skip

/-- A plus sign stands for a space. -/
theorem bytesOf_plus (rest : List Char) : bytesOf 0 ('+' :: rest) = 0x20 :: bytesOf 0 rest := rfl

/-- An escape stands for the one byte of its two digits. -/
theorem bytesOf_escape {first second : Char} {value : UInt8}
    (hvalue : escapedByte? first second = some value) (rest : List Char) :
    bytesOf 0 ('%' :: first :: second :: rest) = value :: bytesOf 0 rest := by
  rw [bytesOf, if_neg (by decide)]
  simp only [hvalue]
  rw [bytesOf_drop]
  rfl

/-- A percent sign that begins no code is copied. -/
theorem bytesOf_percent {rest : List Char}
    (hrest : ∀ first second more, rest = first :: second :: more →
      escapedByte? first second = none) :
    bytesOf 0 ('%' :: rest) = 0x25 :: bytesOf 0 rest := by
  rw [bytesOf.eq_def]
  dsimp only
  rw [if_neg (by decide)]
  split
  · next byte hbyte =>
    split at hbyte
    · next first second more _ =>
      rw [hrest first second more rfl] at hbyte
      exact nomatch hbyte
    · exact nomatch hbyte
  · rfl

/-- Any other character stands for its own UTF-8 bytes. -/
theorem bytesOf_of_ne {c : Char} (hplus : c ≠ '+') (hpercent : c ≠ '%') (rest : List Char) :
    bytesOf 0 (c :: rest) = utf8EncodeChar c ++ bytesOf 0 rest := by
  rw [bytesOf.eq_def]
  dsimp only
  rw [if_neg hplus]
  split
  · next byte hbyte =>
    split at hbyte
    · exact absurd rfl hpercent
    · exact nomatch hbyte
  · rfl

/-- The bytes of a character that has no meaning of its own are copied. -/
theorem ne_of_mem_utf8EncodeChar {c : Char} (hplus : c ≠ '+') (hpercent : c ≠ '%') :
    ∀ byte ∈ utf8EncodeChar c, byte ≠ 0x2B ∧ byte ≠ 0x25 := by
  by_cases hc : c.toNat < 128
  · rw [utf8EncodeChar_of_lt hc, List.forall_mem_singleton]
    have hall : ∀ n < 128, Char.ofNat n ≠ '+' → Char.ofNat n ≠ '%' →
        UInt8.ofNat n ≠ 0x2B ∧ UInt8.ofNat n ≠ 0x25 := by decide
    have hne := hall c.toNat hc
    rw [Char.ofNat_toNat] at hne
    exact hne hplus hpercent
  · intro byte hmem
    have hbyte := le_of_mem_utf8EncodeChar (Nat.not_lt.1 hc) byte hmem
    constructor
    · rintro rfl
      exact absurd hbyte (by decide)
    · rintro rfl
      exact absurd hbyte (by decide)

/-- Two readings of what stands behind a percent sign agree on a text: on characters of the basic
alphabet they are the same, and other bytes have no meaning there. -/
structure Agrees (code? : UInt8 → UInt8 → Option UInt8) (text : List Char) : Prop where
  none_of_le : ∀ first second : UInt8, 128 ≤ first.toNat ∨ 128 ≤ second.toNat →
    code? first second = none
  eq_of_lt : ∀ first second : Char, ['%', first, second] <:+: text → first.toNat < 128 →
    second.toNat < 128 → code? (UInt8.ofNat first.toNat) (UInt8.ofNat second.toNat) =
      escapedByte? first second

variable {code? : UInt8 → UInt8 → Option UInt8}

theorem Agrees.of_suffix {text rest : List Char} (hagrees : Agrees code? text)
    (hsuffix : rest <:+ text) : Agrees code? rest :=
  ⟨hagrees.none_of_le, fun first second hwithin =>
    hagrees.eq_of_lt first second (hwithin.trans hsuffix.isInfix)⟩

/-- Behind a percent sign that begins no code there are no bytes that are one. -/
theorem Agrees.eq_none {rest : List Char} (hagrees : Agrees code? ('%' :: rest))
    (hrest : ∀ first second more, rest = first :: second :: more →
      escapedByte? first second = none) (first second : UInt8) (more : List UInt8)
    (hbytes : encodeUtf8 rest = first :: second :: more) : code? first second = none := by
  cases rest with
  | nil => exact nomatch hbytes
  | cons a rest =>
    by_cases ha : a.toNat < 128
    · rw [encodeUtf8_cons_of_lt ha] at hbytes
      obtain ⟨rfl, htail⟩ := List.cons.inj hbytes
      cases rest with
      | nil => exact nomatch htail
      | cons b rest =>
        by_cases hb : b.toNat < 128
        · rw [encodeUtf8_cons_of_lt hb] at htail
          obtain ⟨rfl, _⟩ := List.cons.inj htail
          have hwithin : ['%', a, b] <:+: '%' :: a :: b :: rest := ⟨[], rest, rfl⟩
          rw [hagrees.eq_of_lt a b hwithin ha hb]
          exact hrest a b rest rfl
        · apply hagrees.none_of_le
          exact .inr (le_of_encodeUtf8_eq_cons (Nat.not_lt.1 hb) htail)
    · apply hagrees.none_of_le
      exact .inl (le_of_encodeUtf8_eq_cons (Nat.not_lt.1 ha) hbytes)

/-- The pass over the characters of a text is the pass over its bytes. -/
theorem bytesOf_eq_unescape : (text : List Char) → Agrees code? text →
    bytesOf 0 text = unescape code? (encodeUtf8 text)
  | [], _ => rfl
  | c :: rest, hagrees => by
    have hrest : Agrees code? rest := hagrees.of_suffix (List.suffix_cons c rest)
    by_cases hplus : c = '+'
    · subst hplus
      rw [bytesOf_plus, encodeUtf8_cons_of_lt (by decide), bytesOf_eq_unescape rest hrest]
      exact (unescape_plus _).symm
    by_cases hpercent : c = '%'
    · subst hpercent
      rw [encodeUtf8_cons_of_lt (by decide)]
      by_cases hcode : ∃ first second more value, rest = first :: second :: more ∧
          escapedByte? first second = some value
      · obtain ⟨first, second, more, value, rfl, hvalue⟩ := hcode
        obtain ⟨hfirst, hsecond⟩ := lt_of_escapedByte? hvalue
        have hwithin : ['%', first, second] <:+: '%' :: first :: second :: more := ⟨[], more, rfl⟩
        have hbytes := (hagrees.eq_of_lt first second hwithin hfirst hsecond).trans hvalue
        have hmore : Agrees code? more := hrest.of_suffix ⟨[first, second], rfl⟩
        rw [bytesOf_escape hvalue, encodeUtf8_cons_of_lt hfirst, encodeUtf8_cons_of_lt hsecond,
          bytesOf_eq_unescape more hmore]
        exact (unescape_escape hbytes _).symm
      · have hnone : ∀ first second more, rest = first :: second :: more →
            escapedByte? first second = none := by
          intro first second more heq
          by_contra hsome
          obtain ⟨value, hvalue⟩ := Option.ne_none_iff_exists'.1 hsome
          exact hcode ⟨first, second, more, value, heq, hvalue⟩
        rw [bytesOf_percent hnone, bytesOf_eq_unescape rest hrest]
        exact (unescape_percent (hagrees.eq_none hnone)).symm
    · rw [bytesOf_of_ne hplus hpercent, encodeUtf8_cons, bytesOf_eq_unescape rest hrest,
        unescape_append (ne_of_mem_utf8EncodeChar hplus hpercent)]
termination_by text => text.length

theorem agrees_signedDigits? (text : List Char) : Agrees signedDigits? text :=
  ⟨fun _ _ => signedDigits?_of_le, fun _ _ _ => signedDigits?_ofNat⟩

/-- No percent sign has a plus sign and a digit behind it. -/
def Unsigned (text : List Char) : Prop :=
  ∀ digit, ['%', '+', digit] <:+: text → hexDigit? digit = none

/-- On texts without a signed escape, the reference reading of the digits agrees. -/
theorem agrees_twoDigits? {text : List Char} (hunsigned : Unsigned text) :
    Agrees twoDigits? text := by
  constructor
  · intro first second hbytes
    have hnone := signedDigits?_of_le hbytes
    unfold signedDigits? at hnone
    split at hnone
    · next hplus =>
      rw [hplus]
      rfl
    · exact hnone
  · intro first second hwithin hfirst hsecond
    rw [← signedDigits?_ofNat hfirst hsecond, signedDigits?]
    split
    · next hplus =>
      obtain rfl := (ofNat_eq_plus_iff hfirst).1 hplus
      rw [hexValue?_ofNat hsecond, hunsigned second hwithin]
      rfl
    · rfl

/-- Form data is decoded by the pass that takes a plus sign before a digit for a part of the
number; where no percent sign has such a thing behind it, only two digits are a code. -/
theorem decodeText_eq_unescaped (text : List Char) :
    decodeText text = unescaped signedDigits? text ∧
      (Unsigned text → decodeText text = unescaped twoDigits? text) := by
  have hdecode : ∀ {code?}, Agrees code? text → decodeText text = unescaped code? text :=
    fun hagrees => by rw [decodeText, unescaped, bytesOf_eq_unescape text hagrees]
  exact ⟨hdecode (agrees_signedDigits? text), fun hunsigned =>
    hdecode (agrees_twoDigits? hunsigned)⟩

theorem decodeText_eq_unescaped_percentage :
    Unsigned "50%+%zz".toList ∧
      decodeText "50%+%zz".toList = unescaped twoDigits? "50%+%zz".toList := by
  have hunsigned : Unsigned "50%+%zz".toList := by
    intro digit hwithin
    obtain rfl : digit = '%' := by simpa [List.infix_cons_iff] using hwithin
    decide
  exact ⟨hunsigned, (decodeText_eq_unescaped _).2 hunsigned⟩

/-- A plus sign and a digit behind a percent sign are a code for the control character. -/
theorem decodeText_signed_digit :
    decodeText "%+f".toList = "\x0f" ∧ unescaped twoDigits? "%+f".toList = "% f" := by
  decide +kernel

end MetricScript.Form
