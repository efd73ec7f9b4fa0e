import Mathlib
import MetricScript.Proofs.Http.Escapes
import MetricScript.Proofs.Table

/-!
# Form data that is read back

Form data is written by a rule of its own: letters and digits of the basic alphabet and four other
characters stand for themselves, a blank is a plus sign, and every byte of another character is a
percent sign with two hexadecimal digits, be they capital or small.  Neither an ampersand nor an
equals sign is left in a text that is written so, and they can hold the pairs together.  Main
statement: form data is decoded to the pairs that were written, and of two pairs with one key the
later counts.
-/

namespace MetricScript

open MetricScript.Number (hexDigit?)
open MetricScript.Text (encodeUtf8 encodeUtf8_cons encodeUtf8_cons_of_lt decodeUtf8_encodeUtf8
  utf8EncodeChar_of_lt splitMark)
open String (utf8EncodeChar)

/-- Pieces without the character are found again between its occurrences. -/
theorem Text.splitMark_intercalate {mark : Char} {pieces : List (List Char)}
    (hpieces : ∀ piece ∈ pieces, mark ∉ piece) (hne : pieces ≠ []) :
    splitMark mark ([mark].intercalate pieces) = pieces := by
  have hsplit : ∀ text : List Char, splitMark mark text = text.splitOn mark := by
    intro text
    unfold List.splitOn
    induction text with
    | nil => rfl
    | cons c rest ih =>
      obtain ⟨first, others, heq⟩ :=
        List.exists_cons_of_ne_nil (Text.splitMark_ne_nil mark rest)
      rw [splitMark, List.splitOnP_cons_eq_if_modifyHead, ← ih, heq]
      simp
  rw [hsplit, List.splitOn_intercalate mark hpieces hne]

namespace Form

/-! ## Writing -/

def isPlain (c : Char) : Bool := c.isAlphanum || c ∈ ['*', '-', '.', '_']

/-- The character is the hexadecimal digit of the value, a capital or a small one. -/
def SpellsDigit (value : Nat) (c : Char) : Prop :=
  c = Nat.digitChar value ∨ c = (Nat.digitChar value).toUpper

/-- Each byte is written as a percent sign and its two digits. -/
inductive SpellsBytes : List UInt8 → List Char → Prop
  | nil : SpellsBytes [] []
  | cons {byte : UInt8} {high low : Char} {bytes : List UInt8} {code : List Char}
      (hhigh : SpellsDigit (byte.toNat / 16) high) (hlow : SpellsDigit (byte.toNat % 16) low)
      (hbytes : SpellsBytes bytes code) :
      SpellsBytes (byte :: bytes) ('%' :: high :: low :: code)

inductive Encodes : List Char → List Char → Prop
  | nil : Encodes [] []
  | plain {c : Char} {text code : List Char} (hplain : isPlain c = true)
      (htext : Encodes text code) : Encodes (c :: text) (c :: code)
  | blank {text code : List Char} (htext : Encodes text code) :
      Encodes (' ' :: text) ('+' :: code)
  | escaped {c : Char} {text front code : List Char} (hplain : isPlain c = false)
      (hblank : c ≠ ' ') (hfront : SpellsBytes (utf8EncodeChar c) front)
      (htext : Encodes text code) : Encodes (c :: text) (front ++ code)

/-- A pair is written with an equals sign between its key and its value. -/
def EncodesPair (pair : String × String) (code : List Char) : Prop :=
  ∃ key value, Encodes pair.1.toList key ∧ Encodes pair.2.toList value ∧
    code = key ++ '=' :: value

/-! ## Everything can be written -/

theorem exists_spellsBytes (bytes : List UInt8) : ∃ code, SpellsBytes bytes code := by
  induction bytes with
  | nil => exact ⟨[], .nil⟩
  | cons byte bytes ih =>
    obtain ⟨code, hbytes⟩ := ih
    exact ⟨_, .cons (.inl rfl) (.inl rfl) hbytes⟩

/-- Every text has an encoding. -/
theorem exists_encodes (text : List Char) : ∃ code, Encodes text code := by
  induction text with
  | nil => exact ⟨[], .nil⟩
  | cons c text ih =>
    obtain ⟨code, htext⟩ := ih
    cases hplain : isPlain c with
    | true => exact ⟨_, .plain hplain htext⟩
    | false =>
      by_cases hblank : c = ' '
      · subst hblank
        exact ⟨_, .blank htext⟩
      · obtain ⟨front, hfront⟩ := exists_spellsBytes (utf8EncodeChar c)
        exact ⟨_, .escaped hplain hblank hfront htext⟩

theorem exists_encodesPair (pair : String × String) : ∃ code, EncodesPair pair code := by
  obtain ⟨key, hkey⟩ := exists_encodes pair.1.toList
  obtain ⟨value, hvalue⟩ := exists_encodes pair.2.toList
  exact ⟨_, key, value, hkey, hvalue, rfl⟩

/-! ## Reading a text -/

theorem SpellsDigit.hexDigit?_eq {value : Nat} {c : Char} (hdigit : SpellsDigit value c)
    (hvalue : value < 16) : hexDigit? c = some value := by
  have hall : ∀ value < 16, hexDigit? (Nat.digitChar value) = some value ∧
      hexDigit? (Nat.digitChar value).toUpper = some value := by decide
  rcases hdigit with rfl | rfl
  · exact (hall value hvalue).1
  · exact (hall value hvalue).2

theorem SpellsDigit.ne {value : Nat} {c mark : Char} (hdigit : SpellsDigit value c)
    (hvalue : value < 16) (hmark : hexDigit? mark = none) : c ≠ mark := by
  rintro rfl
  rw [hdigit.hexDigit?_eq hvalue] at hmark
  exact nomatch hmark

theorem escapedByte?_of_spellsDigit {byte : UInt8} {high low : Char}
    (hhigh : SpellsDigit (byte.toNat / 16) high) (hlow : SpellsDigit (byte.toNat % 16) low) :
    escapedByte? high low = some byte := by
  have hbyte : byte.toNat < 256 := byte.toNat_lt
  have hsum : 16 * (byte.toNat / 16) + byte.toNat % 16 = byte.toNat := Nat.div_add_mod _ _
  rw [escapedByte?, if_neg (hhigh.ne (by omega) (by decide)), hhigh.hexDigit?_eq (by omega),
    hlow.hexDigit?_eq (by omega)]
  simp only [Option.bind_eq_bind, Option.bind_some, Option.pure_def, hsum, UInt8.ofNat_toNat]

theorem bytesOf_append {bytes : List UInt8} {code : List Char} (hbytes : SpellsBytes bytes code)
    (rest : List Char) : bytesOf 0 (code ++ rest) = bytes ++ bytesOf 0 rest := by
  induction hbytes with
  | nil => rfl
  | cons hhigh hlow _ ih =>
    have hbyte := escapedByte?_of_spellsDigit hhigh hlow
    simp only [List.cons_append, bytesOf_escape hbyte, ih]

/-- The bytes of an encoding are those of the text it encodes. -/
theorem bytesOf_encodes {text code : List Char} (hcode : Encodes text code) :
    bytesOf 0 code = encodeUtf8 text := by
  induction hcode with
  | nil => rfl
  | @plain c _ _ hplain _ ih =>
    have hplus : c ≠ '+' := by
      rintro rfl
      exact nomatch hplain
    have hpercent : c ≠ '%' := by
      rintro rfl
      exact nomatch hplain
    rw [bytesOf_of_ne hplus hpercent, encodeUtf8_cons, ih]
  | blank _ ih =>
    rw [bytesOf_plus, encodeUtf8_cons_of_lt (by decide), ih]
    rfl
  | escaped _ _ hfront _ ih => rw [bytesOf_append hfront, encodeUtf8_cons, ih]

/-- What was written is read. -/
theorem decodeText_encodes {text : String} {code : List Char}
    (hcode : Encodes text.toList code) : decodeText code = text := by
  rw [decodeText, bytesOf_encodes hcode, decodeUtf8_encodeUtf8, String.ofList_toList]

/-! ## Reading pairs -/

theorem not_mem_of_spellsBytes {bytes : List UInt8} {code : List Char}
    (hbytes : SpellsBytes bytes code) {mark : Char} (hpercent : mark ≠ '%')
    (hmark : hexDigit? mark = none) : mark ∉ code := by
  induction hbytes with
  | nil => exact List.not_mem_nil
  | @cons byte high low _ _ hhigh hlow _ ih =>
    have hbyte : byte.toNat < 256 := byte.toNat_lt
    have hhigh := (hhigh.ne (by omega) hmark).symm
    have hlow := (hlow.ne (by omega) hmark).symm
    simp only [List.mem_cons, hpercent, hhigh, hlow, ih, or_self, not_false_eq_true]

/-- The marks between texts are not written in them. -/
theorem not_mem_of_encodes {text code : List Char} (hcode : Encodes text code) {mark : Char}
    (hmark : mark = '&' ∨ mark = '=') : mark ∉ code := by
  have hplus : mark ≠ '+' := by rcases hmark with rfl | rfl <;> decide
  have hpercent : mark ≠ '%' := by rcases hmark with rfl | rfl <;> decide
  have hdigit : hexDigit? mark = none := by rcases hmark with rfl | rfl <;> decide
  have hspecial : isPlain mark = false := by rcases hmark with rfl | rfl <;> decide
  induction hcode with
  | nil => exact List.not_mem_nil
  | @plain c _ _ hplain _ ih =>
    have hne : mark ≠ c := by
      rintro rfl
      rw [hplain] at hspecial
      exact nomatch hspecial
    exact List.not_mem_cons_of_ne_of_not_mem hne ih
  | blank _ ih => exact List.not_mem_cons_of_ne_of_not_mem hplus ih
  | escaped _ _ hfront _ ih =>
    rw [List.mem_append, not_or]
    exact ⟨not_mem_of_spellsBytes hfront hpercent hdigit, ih⟩

theorem decodePair_encodesPair {pair : String × String} {code : List Char}
    (hcode : EncodesPair pair code) : decodePair code = (pair.1, .string pair.2) := by
  obtain ⟨key, value, hkey, hvalue, rfl⟩ := hcode
  have hmark : ∀ c ∈ key, decide (c ≠ '=') = true := by
    intro c hmem
    apply decide_eq_true
    rintro rfl
    exact not_mem_of_encodes hkey (.inr rfl) hmem
  unfold decodePair
  rw [List.takeWhile_append_of_pos hmark, List.dropWhile_append_of_pos hmark]
  simp [decodeText_encodes hkey, decodeText_encodes hvalue]

theorem map_decodePair {pairs : List (String × String)} {codes : List (List Char)}
    (hcodes : List.Forall₂ EncodesPair pairs codes) :
    codes.map decodePair = Table.mapValues .string pairs := by
  induction hcodes with
  | nil => rfl
  | cons hcode _ ih =>
    rw [List.map_cons, decodePair_encodesPair hcode, ih]
    rfl

theorem not_mem_of_encodesPair {pair : String × String} {code : List Char}
    (hcode : EncodesPair pair code) : '&' ∉ code := by
  obtain ⟨key, value, hkey, hvalue, rfl⟩ := hcode
  rw [List.mem_append, not_or]
  exact ⟨not_mem_of_encodes hkey (.inl rfl),
    List.not_mem_cons_of_ne_of_not_mem (by decide) (not_mem_of_encodes hvalue (.inl rfl))⟩

theorem isEmpty_of_encodesPair {pair : String × String} {code : List Char}
    (hcode : EncodesPair pair code) : code.isEmpty = false := by
  obtain ⟨key, value, _, _, rfl⟩ := hcode
  simp

/-- The entries of form data are the pairs that were written. -/
theorem decode_encodesPairs {pairs : List (String × String)} {codes : List (List Char)}
    (hcodes : List.Forall₂ EncodesPair pairs codes) :
    decode (String.ofList (['&'].intercalate codes)) =
      Table.mapValues .string (Table.ofList pairs) := by
  have heach : ∀ code ∈ codes, ∃ pair, EncodesPair pair code := by
    induction hcodes with
    | nil => exact List.forall_mem_nil _
    | cons hcode _ ih => exact List.forall_mem_cons.2 ⟨⟨_, hcode⟩, ih⟩
  have hpieces : (splitMark '&' (['&'].intercalate codes)).filter (!·.isEmpty) = codes := by
    cases codes with
    | nil => rfl
    | cons code codes =>
      rw [Text.splitMark_intercalate _ (List.cons_ne_nil _ _)]
      · apply List.filter_eq_self.2
        intro piece hmem
        obtain ⟨pair, hpair⟩ := heach piece hmem
        rw [isEmpty_of_encodesPair hpair]
        rfl
      · intro piece hmem
        obtain ⟨pair, hpair⟩ := heach piece hmem
        exact not_mem_of_encodesPair hpair
  rw [decode, String.toList_ofList, hpieces, map_decodePair hcodes, Table.ofList_mapValues]

end Form

/-- Every list of pairs can be written as form data, and form data is decoded to an object that
has under each key the value of the last pair with this key, and nothing else. -/
theorem form_data_read_back (pairs : List (String × String)) :
    (∃ codes, List.Forall₂ Form.EncodesPair pairs codes) ∧
      ∀ codes, List.Forall₂ Form.EncodesPair pairs codes →
        ∃ entries,
          decodeBody "application/x-www-form-urlencoded"
              (String.ofList (['&'].intercalate codes)) = .ok (.object entries) ∧
            Table.Ascending entries ∧
            ∀ key document, Table.get? key entries = some document ↔
              ∃ value, document = .string value ∧
                ∃ earlier later, pairs = earlier ++ (key, value) :: later ∧
                  ∀ pair ∈ later, pair.1 ≠ key := by
  constructor
  · induction pairs with
    | nil => exact ⟨[], .nil⟩
    | cons pair pairs ih =>
      obtain ⟨code, hcode⟩ := Form.exists_encodesPair pair
      obtain ⟨codes, hcodes⟩ := ih
      exact ⟨code :: codes, .cons hcode hcodes⟩
  · intro codes hcodes
    have hentries := Form.decode_encodesPairs hcodes
    refine ⟨Table.mapValues .string (Table.ofList pairs), ?_, ?_, fun key document => ?_⟩
    · rw [decodeBody, hentries]
    · rw [← Table.ofList_mapValues]
      exact Table.ascending_ofList _
    · rw [Table.get?_mapValues, Option.map_eq_some_iff]
      constructor
      · rintro ⟨value, hvalue, rfl⟩
        exact ⟨value, rfl, Table.get?_ofList_iff.1 hvalue⟩
      · rintro ⟨value, rfl, hlast⟩
        exact ⟨value, Table.get?_ofList_iff.2 hlast, rfl⟩

/-- A key that is no plain text is given twice, first with a value that holds an ampersand. -/
theorem form_data_read_back_umlaut :
    let codes := ["%C3%a4=1%26+".toList, "%c3%A4=".toList]
    List.Forall₂ Form.EncodesPair [("ä", "1& "), ("ä", "")] codes ∧
      ∃ entries, decodeBody "application/x-www-form-urlencoded"
          (String.ofList (['&'].intercalate codes)) = .ok (.object entries) ∧
        Table.get? "ä" entries = some (.string "") := by
  have hdigit : ∀ {value : Nat} {c : Char},
      c ∈ [Nat.digitChar value, (Nat.digitChar value).toUpper] → Form.SpellsDigit value c :=
    List.mem_pair.1
  have hspelled : Form.SpellsBytes (utf8EncodeChar 'ä') "%C3%a4".toList :=
    .cons (hdigit (by decide)) (hdigit (by decide))
      (.cons (hdigit (by decide)) (hdigit (by decide)) .nil)
  have hagain : Form.SpellsBytes (utf8EncodeChar 'ä') "%c3%A4".toList :=
    .cons (hdigit (by decide)) (hdigit (by decide))
      (.cons (hdigit (by decide)) (hdigit (by decide)) .nil)
  have hmark : Form.SpellsBytes (utf8EncodeChar '&') "%26".toList :=
    .cons (hdigit (by decide)) (hdigit (by decide)) .nil
  have hkey : Form.Encodes "ä".toList "%C3%a4".toList :=
    .escaped (by decide) (by decide) hspelled .nil
  have hother : Form.Encodes "ä".toList "%c3%A4".toList :=
    .escaped (by decide) (by decide) hagain .nil
  have hvalue : Form.Encodes "1& ".toList "1%26+".toList :=
    .plain (by decide) (.escaped (by decide) (by decide) hmark (.blank .nil))
  have hcodes : List.Forall₂ Form.EncodesPair [("ä", "1& "), ("ä", "")]
      ["%C3%a4=1%26+".toList, "%c3%A4=".toList] :=
    .cons ⟨_, _, hkey, hvalue, rfl⟩ (.cons ⟨_, _, hother, .nil, rfl⟩ .nil)
  obtain ⟨entries, hdecode, _, hentries⟩ := (form_data_read_back _).2 _ hcodes
  exact ⟨hcodes, entries, hdecode, (hentries _ _).2 ⟨"", rfl, [("ä", "1& ")], [], rfl,
    List.forall_mem_nil _⟩⟩

end MetricScript
