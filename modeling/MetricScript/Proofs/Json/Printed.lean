import Mathlib
import MetricScript.Json.Read

/-!
# Reading printed texts

`Printed` relates the form of a document to the texts in which it is printed: strings with
their escapes, numerals, and brackets with commas and free blanks between.  The compact and the
indented form of a document are two of these texts.  Main statement: such a text is read back as
the form that was printed, whatever blanks stand in it.
-/

namespace MetricScript.Json

open MetricScript.Number (isDigit hexDigit?)

/-! ## Strings -/

/-- What a printed character is read as: a control character without a letter of its own is
written as a code unit. -/
def printedPart (c : Char) : StringPart :=
  if c.toNat < 32 ∧ c.toNat ∉ [8, 9, 10, 12, 13] then .unit c.toNat else .char c

namespace Source

theorem hexDigit?_digitChar {n : Nat} (hn : n < 16) : hexDigit? (Nat.digitChar n) = some n := by
  have hall : ∀ n < 16, hexDigit? (Nat.digitChar n) = some n := by decide
  exact hall n hn

theorem hexUnit?_hexByte {code : Nat} (hcode : code < 32) :
    hexUnit? '0' '0' (Nat.digitChar (code / 16)) (Nat.digitChar (code % 16)) = some code := by
  have hzero : hexDigit? '0' = some 0 := by decide
  simp only [hexUnit?, hzero, hexDigit?_digitChar (by omega : code / 16 < 16),
    hexDigit?_digitChar (by omega : code % 16 < 16), Option.bind_eq_bind, Option.bind_some,
    Option.pure_def, Option.some.injEq]
  omega

/-- An escape with one letter. -/
theorem readString?_simple {letter value : Char} (hletter : letter ≠ 'u')
    (hvalue : simpleEscape? letter = some value) (rest : List Char) :
    readString? ('\\' :: letter :: rest) =
      (readString? rest).map fun read => (.char value :: read.1, read.2) := by
  rw [readString?, hvalue]
  · cases readString? rest <;> rfl
  · exact fun _ _ _ _ _ hu _ => hletter hu

/-- A character that stands for itself. -/
theorem readString?_raw {c : Char} (hcontrol : 32 ≤ c.toNat) (hquote : c ≠ '"')
    (hslash : c ≠ '\\') (rest : List Char) :
    readString? (c :: rest) =
      (readString? rest).map fun read => (.char c :: read.1, read.2) := by
  rw [readString?]
  · simp only [ge_iff_le, hcontrol, decide_true, ne_eq, hslash, not_false_eq_true, Bool.and_self,
      guard_true]
    cases readString? rest <;> rfl
  · exact hquote
  · rintro _ _ _ _ _ rfl
    exact absurd rfl hslash
  · rintro _ _ rfl
    exact absurd rfl hslash

/-- An escaped character is read as its part, and the rest of the string after it. -/
theorem readString?_escapeChar (c : Char) (rest : List Char) :
    readString? (escapeChar c ++ rest) =
      (readString? rest).map fun read => (printedPart c :: read.1, read.2) := by
  have hof : Char.ofNat c.toNat = c := Char.ofNat_toNat c
  unfold escapeChar
  split
  · exact readString?_simple (by decide) rfl rest
  · exact readString?_simple (by decide) rfl rest
  · exact readString?_simple (by decide) rfl rest
  · exact readString?_simple (by decide) rfl rest
  · exact readString?_simple (by decide) rfl rest
  next hquote hslash hline hreturn htab =>
  split
  · next height =>
    have hpart : printedPart c = .char (Char.ofNat 8) := by
      rw [printedPart, if_neg (by simp [height]), ← height, hof]
    rw [hpart]
    exact readString?_simple (by decide) rfl rest
  split
  · next htwelve =>
    have hpart : printedPart c = .char (Char.ofNat 12) := by
      rw [printedPart, if_neg (by simp [htwelve]), ← htwelve, hof]
    rw [hpart]
    exact readString?_simple (by decide) rfl rest
  split
  · next height htwelve hcontrol =>
    have hnine : c.toNat ≠ 9 := fun h => htab (Char.toNat_inj.1 h)
    have hten : c.toNat ≠ 10 := fun h => hline (Char.toNat_inj.1 h)
    have hthirteen : c.toNat ≠ 13 := fun h => hreturn (Char.toNat_inj.1 h)
    have hpart : printedPart c = .unit c.toNat := by
      rw [printedPart, if_pos ⟨hcontrol, by simp [height, htwelve, hnine, hten, hthirteen]⟩]
    rw [hpart]
    change readString? ('\\' :: 'u' :: '0' :: '0' :: Nat.digitChar (c.toNat / 16) ::
      Nat.digitChar (c.toNat % 16) :: rest) = _
    rw [readString?, hexUnit?_hexByte hcontrol]
    cases readString? rest <;> rfl
  · next hcontrol =>
    rw [printedPart, if_neg fun h => hcontrol h.1]
    exact readString?_raw (by omega) hquote hslash rest

/-- A printed string is read part by part. -/
theorem readString?_printed (characters rest : List Char) :
    readString? (characters.flatMap escapeChar ++ '"' :: rest) =
      some (characters.map printedPart, rest) := by
  induction characters with
  | nil => rfl
  | cons c characters ih =>
    rw [List.flatMap_cons, List.append_assoc, readString?_escapeChar, ih]
    rfl

end Source

/-- The printed parts of a text decode to the text. -/
theorem characters?_printed (characters : List Char) :
    characters? (characters.map printedPart) = some characters := by
  induction characters with
  | nil => rfl
  | cons c characters ih =>
    rw [List.map_cons, printedPart]
    split
    · next hcontrol =>
      have hlow : c.toNat < 32 := hcontrol.1
      rw [characters?.eq_def]
      dsimp only
      rw [if_neg (by simp; omega), if_neg (by simp; omega), ih, Char.ofNat_toNat]
      rfl
    · rw [characters?, ih]
      rfl

theorem stringValue?_printed (text : String) :
    stringValue? (text.toList.map printedPart) = some text := by
  rw [stringValue?, characters?_printed]
  exact congrArg some (String.ofList_toList)

/-! ## Numerals -/

namespace Source

/-- No numeral goes on with this text. -/
def Delimits (rest : List Char) : Prop :=
  ∀ c, rest.head? = some c → isDigit c = false ∧ c ∉ ['.', 'e', 'E', '+', '-']

/-- What follows a run does not lengthen it if it begins outside of the test. -/
theorem takeWhile_append {test : Char → Bool} {rest : List Char}
    (hrest : ∀ c, rest.head? = some c → test c = false) (text : List Char) :
    (text ++ rest).takeWhile test = text.takeWhile test ∧
      (text ++ rest).dropWhile test = text.dropWhile test ++ rest := by
  induction text with
  | nil =>
    cases rest with
    | nil => exact ⟨rfl, rfl⟩
    | cons c rest => simp [hrest c rfl]
  | cons c text ih =>
    cases hc : test c with
    | true => simp [hc, ih]
    | false => simp [hc]

variable {rest : List Char} (hrest : Delimits rest) (text : List Char)

include hrest

theorem readDigits?_append :
    readDigits? (text ++ rest) = (readDigits? text).map (Prod.map id (· ++ rest)) := by
  obtain ⟨htake, hdrop⟩ := takeWhile_append (fun c hc => (hrest c hc).1) text
  unfold readDigits?
  dsimp only
  rw [htake, hdrop]
  split <;> rfl

theorem readDigits?_delimits : readDigits? rest = none :=
  readDigits?_append hrest []

/-- Text behind a numeral leaves the reading of its digits alone. -/
theorem readWhole?_append :
    readWhole? (text ++ rest) = (readWhole? text).map (Prod.map id (· ++ rest)) := by
  have hzero : ∀ more, rest ≠ '0' :: more := by
    rintro more rfl
    exact absurd (hrest '0' rfl).1 (by decide)
  cases text with
  | nil =>
    rw [List.nil_append, readWhole?, readDigits?_delimits hrest]
    · rfl
    · exact hzero
  | cons c text =>
    by_cases hc : c = '0'
    · subst hc
      rfl
    · rw [List.cons_append, readWhole?, readWhole?, ← List.cons_append, readDigits?_append hrest]
      · exact fun _ heq => hc (List.cons.inj heq).1
      · exact fun _ heq => hc (List.cons.inj heq).1

theorem readFraction?_append :
    readFraction? (text ++ rest) = (readFraction? text).map (Prod.map id (· ++ rest)) := by
  cases text with
  | nil =>
    rw [List.nil_append, readFraction?]
    · rfl
    · rintro more rfl
      exact absurd (hrest '.' rfl).2 (by decide)
  | cons c text =>
    by_cases hc : c = '.'
    · subst hc
      exact readDigits?_append hrest text
    · rw [List.cons_append, readFraction?, readFraction?]
      · rfl
      · exact fun _ heq => hc (List.cons.inj heq).1
      · exact fun _ heq => hc (List.cons.inj heq).1

theorem splitSign_append :
    Number.splitSign (text ++ rest) =
      ((Number.splitSign text).1, (Number.splitSign text).2 ++ rest) := by
  cases text with
  | nil =>
    rw [List.nil_append, Number.splitSign]
    · rfl
    · rintro more rfl
      exact absurd (hrest '-' rfl).2 (by decide)
    · rintro more rfl
      exact absurd (hrest '+' rfl).2 (by decide)
  | cons c text =>
    rw [List.cons_append]
    unfold Number.splitSign
    split <;> simp_all

/-- Text behind a numeral leaves the reading of its exponent alone. -/
theorem readPower?_append :
    readPower? (text ++ rest) = (readPower? text).map (Prod.map id (· ++ rest)) := by
  cases text with
  | nil =>
    cases rest with
    | nil => rfl
    | cons c rest =>
      have hc := (hrest c rfl).2
      rw [List.nil_append, readPower?, if_neg (by simp_all)]
      rfl
  | cons mark text =>
    rw [List.cons_append, readPower?, readPower?]
    split
    · rw [splitSign_append hrest]
      dsimp only
      rw [readDigits?_append hrest]
      cases readDigits? (Number.splitSign text).2 <;> rfl
    · rfl

omit hrest

def readUnsigned? (negative : Bool) (text : List Char) : Option (Numeral × List Char) := do
  let (whole, afterWhole) ← readWhole? text
  let (fraction, afterFraction) ← readFraction? afterWhole
  let (exponent, rest) ← readPower? afterFraction
  return (⟨negative, whole, fraction, exponent⟩, rest)

theorem readNumeral?_minus : readNumeral? ('-' :: text) = readUnsigned? true text := rfl

theorem readNumeral?_of_ne {text : List Char} (hminus : ∀ more, text ≠ '-' :: more) :
    readNumeral? text = readUnsigned? false text := by
  unfold readNumeral?
  split
  next negative unsigned hsign =>
  split at hsign
  · next more => exact absurd rfl (hminus more)
  · obtain ⟨rfl, rfl⟩ := Prod.mk.inj hsign
    rfl

include hrest

/-- Text behind a numeral is what the reading leaves over. -/
theorem readUnsigned?_append (negative : Bool) :
    readUnsigned? negative (text ++ rest) =
      (readUnsigned? negative text).map (Prod.map id (· ++ rest)) := by
  unfold readUnsigned?
  rw [readWhole?_append hrest]
  rcases readWhole? text with _ | ⟨whole, afterWhole⟩
  · rfl
  dsimp only [Option.map, Prod.map, id, bind, Option.bind]
  rw [readFraction?_append hrest]
  rcases readFraction? afterWhole with _ | ⟨fraction, afterFraction⟩
  · rfl
  dsimp only [Option.map, Prod.map, id]
  rw [readPower?_append hrest]
  rcases readPower? afterFraction with _ | ⟨exponent, left⟩ <;> rfl

/-- A numeral is read in the same way when something follows that does not belong to it. -/
theorem readNumeral?_append :
    readNumeral? (text ++ rest) = (readNumeral? text).map (Prod.map id (· ++ rest)) := by
  by_cases hminus : ∃ more, text = '-' :: more
  · obtain ⟨more, rfl⟩ := hminus
    exact readUnsigned?_append hrest more true
  · have htext : ∀ more, text ≠ '-' :: more := fun more heq => hminus ⟨more, heq⟩
    have happend : ∀ more, text ++ rest ≠ '-' :: more := by
      intro more heq
      cases text with
      | nil =>
        obtain rfl : rest = '-' :: more := heq
        exact absurd (hrest '-' rfl).2 (by decide)
      | cons c text => exact htext text (by rw [(List.cons.inj heq).1])
    rw [readNumeral?_of_ne happend, readNumeral?_of_ne htext]
    exact readUnsigned?_append hrest text false

omit hrest

/-- A numeral starts with a digit or with a minus sign. -/
theorem exists_of_readNumeral? {text left : List Char} {numeral : Numeral}
    (hread : readNumeral? text = some (numeral, left)) :
    ∃ first more, text = first :: more ∧ (isDigit first = true ∨ first = '-') := by
  cases text with
  | nil => exact nomatch hread
  | cons first more =>
    refine ⟨first, more, rfl, ?_⟩
    by_contra hfirst
    obtain ⟨hdigit, hminus⟩ := not_or.1 hfirst
    have hzero : first ≠ '0' := by
      rintro rfl
      exact hdigit (by decide)
    have hwhole : readWhole? (first :: more) = none := by
      rw [readWhole?]
      · simp [readDigits?, hdigit]
      · exact fun _ heq => hzero (List.cons.inj heq).1
    rw [readNumeral?_of_ne fun _ heq => hminus (List.cons.inj heq).1, readUnsigned?, hwhole] at hread
    exact nomatch hread

/-! ## Printed texts -/

def Blank (gap : List Char) : Prop := ∀ c ∈ gap, isSpace c = true

/-- A printed string, with its quotes. -/
def quoted (characters : List Char) : List Char :=
  '"' :: (characters.flatMap escapeChar ++ ['"'])

mutual

/-- The text is a printed form.  Blanks may stand around the items of arrays and the parts of
entries. -/
inductive Printed : Source → List Char → Prop where
  | null : Printed .null ['n', 'u', 'l', 'l']
  | isTrue : Printed (.boolean true) ['t', 'r', 'u', 'e']
  | isFalse : Printed (.boolean false) ['f', 'a', 'l', 's', 'e']
  | numeral {value : Numeral} {text : List Char}
      (hread : readNumeral? text = some (value, [])) : Printed (.numeral value) text
  | string (characters : List Char) :
      Printed (.string (characters.map printedPart)) (quoted characters)
  | emptyArray : Printed (.array []) ['[', ']']
  | array {items : List Source} {text : List Char} (hitems : PrintedItems items text) :
      Printed (.array items) ('[' :: (text ++ [']']))
  | emptyObject : Printed (.object []) ['\x7b', '\x7d']
  | object {entries : List (List StringPart × Source)} {text : List Char}
      (hentries : PrintedEntries entries text) :
      Printed (.object entries) ('\x7b' :: (text ++ ['\x7d']))

/-- The text between the brackets of an array with items. -/
inductive PrintedItems : List Source → List Char → Prop where
  | last {item : Source} {before text after : List Char} (hbefore : Blank before)
      (hitem : Printed item text) (hafter : Blank after) :
      PrintedItems [item] (before ++ (text ++ after))
  | more {item : Source} {items : List Source} {before text after rest : List Char}
      (hbefore : Blank before) (hitem : Printed item text) (hafter : Blank after)
      (hitems : PrintedItems items rest) :
      PrintedItems (item :: items) (before ++ (text ++ (after ++ ',' :: rest)))

/-- The text between the braces of an object with entries. -/
inductive PrintedEntries : List (List StringPart × Source) → List Char → Prop where
  | last {value : Source} {before between text after : List Char} (key : List Char)
      (hbefore : Blank before) (hbetween : Blank between) (hvalue : Printed value text)
      (hafter : Blank after) :
      PrintedEntries [(key.map printedPart, value)]
        (before ++ (quoted key ++ ':' :: (between ++ (text ++ after))))
  | more {value : Source} {entries : List (List StringPart × Source)}
      {before between text after rest : List Char} (key : List Char)
      (hbefore : Blank before) (hbetween : Blank between) (hvalue : Printed value text)
      (hafter : Blank after) (hentries : PrintedEntries entries rest) :
      PrintedEntries ((key.map printedPart, value) :: entries)
        (before ++ (quoted key ++ ':' :: (between ++ (text ++ (after ++ ',' :: rest)))))

end

/-! ## Reading them back -/

theorem skipSpace_blank {gap : List Char} (hgap : Blank gap) (text : List Char) :
    skipSpace (gap ++ text) = skipSpace text := by
  induction gap with
  | nil => rfl
  | cons c gap ih =>
    obtain ⟨hc, hgap⟩ := List.forall_mem_cons.1 hgap
    rw [List.cons_append, skipSpace, List.dropWhile_cons_of_pos hc]
    exact ih hgap

theorem skipSpace_cons {c : Char} (hc : isSpace c = false) (text : List Char) :
    skipSpace (c :: text) = c :: text :=
  List.dropWhile_cons_of_neg (by simp [hc])

theorem isSpace_iff {c : Char} :
    isSpace c = true ↔ c = ' ' ∨ c = '\n' ∨ c = '\t' ∨ c = '\r' := by
  simp [isSpace, or_assoc]

theorem delimits_blank {gap : List Char} (hgap : Blank gap) {mark : Char}
    (hmark : mark ∈ [',', ']', '\x7d']) (rest : List Char) : Delimits (gap ++ mark :: rest) := by
  intro c hc
  cases gap with
  | nil =>
    obtain rfl := Option.some.inj hc
    fin_cases hmark <;> exact ⟨by decide, by decide⟩
  | cons first gap =>
    obtain rfl := Option.some.inj hc
    rcases isSpace_iff.1 (hgap first List.mem_cons_self) with rfl | rfl | rfl | rfl <;>
      exact ⟨by decide, by decide⟩

/-- A printed form starts with a character that is no blank and closes nothing. -/
theorem Printed.exists_cons {source : Source} {text : List Char} (hprinted : Printed source text) :
    ∃ first more, text = first :: more ∧ isSpace first = false ∧
      first ≠ ']' ∧ first ≠ '\x7d' := by
  cases hprinted with
  | null | isTrue | isFalse | string | emptyArray | array | emptyObject | object =>
    exact ⟨_, _, rfl, by decide, by decide, by decide⟩
  | numeral hread =>
    obtain ⟨first, more, rfl, hfirst⟩ := exists_of_readNumeral? hread
    refine ⟨first, more, rfl, ?_⟩
    rcases hfirst with hdigit | rfl
    · refine ⟨?_, ?_, ?_⟩
      · rw [Bool.eq_false_iff, ne_eq, isSpace_iff]
        rintro (rfl | rfl | rfl | rfl) <;> exact absurd hdigit (by decide)
      · rintro rfl
        exact absurd hdigit (by decide)
      · rintro rfl
        exact absurd hdigit (by decide)
    · exact ⟨by decide, by decide, by decide⟩

/-- Where neither a word nor a string nor a bracket starts, a numeral is read. -/
theorem readValue?_numeral {first : Char} (hfirst : isDigit first = true ∨ first = '-')
    (more : List Char) (fuel : Nat) :
    readValue? (fuel + 1) (first :: more) =
      (readNumeral? (first :: more)).map fun read => (.numeral read.1, read.2) := by
  have hother : ∀ c, isDigit c = false → c ≠ '-' → first ≠ c := by
    rintro c hdigit hminus rfl
    rcases hfirst with hfirst | hfirst
    · rw [hfirst] at hdigit
      exact nomatch hdigit
    · exact hminus hfirst
  have hspace : isSpace first = false := by
    simp only [isSpace, Bool.or_eq_false_iff, decide_eq_false_iff_not]
    exact ⟨⟨⟨hother _ (by decide) (by decide), hother _ (by decide) (by decide)⟩,
      hother _ (by decide) (by decide)⟩, hother _ (by decide) (by decide)⟩
  rw [readValue?, skipSpace_cons hspace]
  split
  case h_7 => rfl
  all_goals
    next heq =>
    exact absurd (List.cons.inj heq).1 (hother _ (by decide) (by decide))

/-- Blanks before an item make no difference. -/
theorem readValue?_skipSpace (fuel : Nat) (text : List Char) :
    readValue? fuel (skipSpace text) = readValue? fuel text := by
  cases fuel with
  | zero => rfl
  | succ fuel =>
    have hidem : skipSpace (skipSpace text) = skipSpace text := List.dropWhile_idempotent ..
    rw [readValue?, readValue?, hidem]

theorem readItems?_skipSpace (fuel : Nat) (text : List Char) :
    readItems? fuel (skipSpace text) = readItems? fuel text := by
  cases fuel with
  | zero => rfl
  | succ fuel => rw [readItems?, readItems?, readValue?_skipSpace]

theorem readEntries?_skipSpace (fuel : Nat) (text : List Char) :
    readEntries? fuel (skipSpace text) = readEntries? fuel text := by
  cases fuel with
  | zero => rfl
  | succ fuel =>
    have hidem : skipSpace (skipSpace text) = skipSpace text := List.dropWhile_idempotent ..
    rw [readEntries?, readEntries?, hidem]

theorem readValue?_string (characters rest : List Char) (fuel : Nat) :
    readValue? (fuel + 1) (quoted characters ++ rest) =
      some (.string (characters.map printedPart), rest) := by
  change (readString? (characters.flatMap escapeChar ++ ['"'] ++ rest)).map _ = _
  rw [List.append_assoc, List.singleton_append, readString?_printed]
  rfl

theorem readValue?_array {first : Char} (hfirst : first ≠ ']') {text more : List Char}
    (htext : skipSpace text = first :: more) (fuel : Nat) :
    readValue? (fuel + 1) ('[' :: text) =
      (readItems? fuel text).map fun (items, rest) => (.array items, rest) := by
  rw [← readItems?_skipSpace fuel text, readValue?, skipSpace_cons (by decide)]
  simp only [htext]
  split
  · next heq => exact absurd (List.cons.inj heq).1 hfirst
  · rfl

theorem readValue?_object {first : Char} (hfirst : first ≠ '\x7d') {text more : List Char}
    (htext : skipSpace text = first :: more) (fuel : Nat) :
    readValue? (fuel + 1) ('\x7b' :: text) =
      (readEntries? fuel text).map fun (entries, rest) => (.object entries, rest) := by
  rw [← readEntries?_skipSpace fuel text, readValue?, skipSpace_cons (by decide)]
  simp only [htext]
  split
  · next heq => exact absurd (List.cons.inj heq).1 hfirst
  · rfl

/-- What is read after an entry: more of them, or the end of the object. -/
def entriesAfter (fuel : Nat) (entry : List StringPart × Source) :
    List Char → Option (List (List StringPart × Source) × List Char)
  | ',' :: more => do
      let (entries, remaining) ← readEntries? fuel more
      return (entry :: entries, remaining)
  | '\x7d' :: remaining => some ([entry], remaining)
  | _ => none

section Sequences

variable {fuel : Nat} {text after rest : List Char} {value : Source} (hafter : Blank after)

include hafter

theorem readItems?_last (hvalue : readValue? fuel text = some (value, after ++ ']' :: rest)) :
    readItems? (fuel + 1) text = some ([value], rest) := by
  have hskip : skipSpace (after ++ ']' :: rest) = ']' :: rest := by
    rw [skipSpace_blank hafter, skipSpace_cons (by decide)]
  rw [readItems?, hvalue]
  simp only [Option.bind_eq_bind, Option.bind_some, hskip]
  rfl

theorem readItems?_more (hvalue : readValue? fuel text = some (value, after ++ ',' :: rest)) :
    readItems? (fuel + 1) text =
      (readItems? fuel rest).map fun (items, left) => (value :: items, left) := by
  have hskip : skipSpace (after ++ ',' :: rest) = ',' :: rest := by
    rw [skipSpace_blank hafter, skipSpace_cons (by decide)]
  rw [readItems?, hvalue]
  simp only [Option.bind_eq_bind, Option.bind_some, hskip]
  cases readItems? fuel rest <;> rfl

/-- An entry is read up to its value. -/
theorem readEntries?_key {before : List Char} (hbefore : Blank before) (key : List Char)
    {mark : Char} (hmark : isSpace mark = false)
    (hvalue : readValue? fuel text = some (value, after ++ mark :: rest)) :
    readEntries? (fuel + 1) (before ++ (quoted key ++ ':' :: text)) =
      entriesAfter fuel (key.map printedPart, value) (mark :: rest) := by
  have hskip : skipSpace (after ++ mark :: rest) = mark :: rest := by
    rw [skipSpace_blank hafter, skipSpace_cons hmark]
  have hkey : readString? (key.flatMap escapeChar ++ ['"'] ++ ':' :: text) =
      some (key.map printedPart, ':' :: text) := by
    rw [List.append_assoc, List.singleton_append, readString?_printed]
  have hcolon : skipSpace (':' :: text) = ':' :: text := skipSpace_cons (by decide) text
  rw [readEntries?, skipSpace_blank hbefore]
  change (readString? (key.flatMap escapeChar ++ ['"'] ++ ':' :: text) >>= fun read => _) = _
  rw [hkey]
  simp only [Option.bind_eq_bind, Option.bind_some, hcolon, hvalue, hskip]
  rfl

theorem readEntries?_last {before : List Char} (hbefore : Blank before) (key : List Char)
    (hvalue : readValue? fuel text = some (value, after ++ '\x7d' :: rest)) :
    readEntries? (fuel + 1) (before ++ (quoted key ++ ':' :: text)) =
      some ([(key.map printedPart, value)], rest) := by
  rw [readEntries?_key hafter hbefore key (by decide) hvalue]
  rfl

theorem readEntries?_more {before : List Char} (hbefore : Blank before) (key : List Char)
    (hvalue : readValue? fuel text = some (value, after ++ ',' :: rest)) :
    readEntries? (fuel + 1) (before ++ (quoted key ++ ':' :: text)) =
      (readEntries? fuel rest).map fun (entries, left) =>
        ((key.map printedPart, value) :: entries, left) := by
  rw [readEntries?_key hafter hbefore key (by decide) hvalue]
  change (readEntries? fuel rest >>= fun read => _) = _
  cases readEntries? fuel rest <;> rfl

end Sequences

theorem skipSpace_printed {source : Source} {text : List Char} (hprinted : Printed source text)
    {before : List Char} (hbefore : Blank before) (rest : List Char) :
    skipSpace (before ++ (text ++ rest)) = text ++ rest := by
  obtain ⟨first, more, rfl, hspace, _⟩ := hprinted.exists_cons
  rw [skipSpace_blank hbefore, List.cons_append, skipSpace_cons hspace]

theorem PrintedItems.exists_cons {items : List Source} {text : List Char}
    (hitems : PrintedItems items text) (rest : List Char) :
    ∃ first more, skipSpace (text ++ rest) = first :: more ∧ first ≠ ']' := by
  cases hitems with
  | last hbefore hitem hafter | more hbefore hitem hafter hitems =>
    obtain ⟨first, more, htext, _, hfirst, _⟩ := hitem.exists_cons
    rw [List.append_assoc, List.append_assoc, skipSpace_printed hitem hbefore, htext]
    exact ⟨first, _, rfl, hfirst⟩

theorem PrintedEntries.exists_cons {entries : List (List StringPart × Source)} {text : List Char}
    (hentries : PrintedEntries entries text) (rest : List Char) :
    ∃ first more, skipSpace (text ++ rest) = first :: more ∧ first ≠ '\x7d' := by
  cases hentries with
  | last key hbefore | more key hbefore =>
    rw [List.append_assoc, skipSpace_blank hbefore]
    exact ⟨'"', _, skipSpace_cons (by decide) _, by decide⟩

mutual

/-- A printed form is read back, if nothing follows that a numeral could go on with.  A text has
fewer parts than characters, so twice its length is enough to bound the recursion. -/
theorem Printed.readValue? {source : Source} {text : List Char} (hprinted : Printed source text)
    {before : List Char} (hbefore : Blank before) {rest : List Char} (hrest : Delimits rest)
    {fuel : Nat} (hfuel : 2 * text.length ≤ fuel) :
    Source.readValue? fuel (before ++ (text ++ rest)) = some (source, rest) := by
  rw [← readValue?_skipSpace, skipSpace_printed hprinted hbefore]
  obtain ⟨first, more, htext, _⟩ := hprinted.exists_cons
  obtain ⟨fuel, rfl⟩ : ∃ smaller, fuel = smaller + 1 := by
    rw [htext, List.length_cons] at hfuel
    exact ⟨fuel - 1, by omega⟩
  match hprinted with
  | .null | .isTrue | .isFalse | .emptyArray | .emptyObject => rfl
  | .numeral hread =>
    obtain ⟨first, more, rfl, hfirst⟩ := exists_of_readNumeral? hread
    rw [List.cons_append, readValue?_numeral hfirst, ← List.cons_append,
      readNumeral?_append hrest, hread]
    rfl
  | .string characters => exact readValue?_string characters rest fuel
  | .array hitems =>
    obtain ⟨first, more, hfirst, hne⟩ := hitems.exists_cons ([']'] ++ rest)
    rw [List.cons_append, List.append_assoc, readValue?_array hne hfirst, List.singleton_append,
      hitems.readItems? (by simp at hfuel; omega)]
    rfl
  | .object hentries =>
    obtain ⟨first, more, hfirst, hne⟩ := hentries.exists_cons (['\x7d'] ++ rest)
    rw [List.cons_append, List.append_assoc, readValue?_object hne hfirst, List.singleton_append,
      hentries.readEntries? (by simp at hfuel; omega)]
    rfl

/-- Printed items are read back, up to the bracket that closes them. -/
theorem PrintedItems.readItems? {items : List Source} {text : List Char}
    (hitems : PrintedItems items text) {rest : List Char} {fuel : Nat}
    (hfuel : 2 * text.length + 1 ≤ fuel) :
    Source.readItems? fuel (text ++ ']' :: rest) = some (items, rest) := by
  obtain ⟨fuel, rfl⟩ : ∃ smaller, fuel = smaller + 1 := ⟨fuel - 1, by omega⟩
  match hitems with
  | .last hbefore hitem hafter =>
    rw [List.append_assoc, List.append_assoc]
    exact readItems?_last hafter (hitem.readValue? hbefore
      (delimits_blank hafter (by decide) rest) (by simp at hfuel; omega))
  | .more hbefore hitem hafter hothers =>
    simp only [List.append_assoc, List.cons_append]
    rw [readItems?_more hafter (hitem.readValue? hbefore
      (delimits_blank hafter (by decide) _) (by simp at hfuel; omega)),
      hothers.readItems? (by simp at hfuel; omega)]
    rfl

/-- Printed entries are read back, up to the brace that closes them. -/
theorem PrintedEntries.readEntries? {entries : List (List StringPart × Source)}
    {text : List Char} (hentries : PrintedEntries entries text) {rest : List Char} {fuel : Nat}
    (hfuel : 2 * text.length + 1 ≤ fuel) :
    Source.readEntries? fuel (text ++ '\x7d' :: rest) = some (entries, rest) := by
  obtain ⟨fuel, rfl⟩ : ∃ smaller, fuel = smaller + 1 := ⟨fuel - 1, by omega⟩
  match hentries with
  | .last key hbefore hbetween hvalue hafter =>
    simp only [List.append_assoc, List.cons_append]
    exact readEntries?_last hafter hbefore key (hvalue.readValue? hbetween
      (delimits_blank hafter (by decide) rest) (by simp at hfuel; omega))
  | .more key hbefore hbetween hvalue hafter hothers =>
    simp only [List.append_assoc, List.cons_append]
    rw [readEntries?_more hafter hbefore key (hvalue.readValue? hbetween
      (delimits_blank hafter (by decide) _) (by simp at hfuel; omega)),
      hothers.readEntries? (by simp at hfuel; omega)]
    rfl

end

/-- A text that is a printed form is read as this form. -/
theorem Printed.read? {source : Source} {text : String} (hprinted : Printed source text.toList) :
    Source.read? text = some source := by
  have hblank : Blank [] := fun _ hmem => nomatch hmem
  have hdelimits : Delimits [] := fun _ hmem => nomatch hmem
  have hfuel : 2 * text.toList.length ≤ 2 * text.toList.length + 2 := by omega
  have hread := hprinted.readValue? hblank hdelimits hfuel
  rw [List.nil_append, List.append_nil] at hread
  unfold Source.read?
  dsimp only
  rw [hread]
  rfl

end Source

end MetricScript.Json
