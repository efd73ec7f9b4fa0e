import Mathlib
import MetricScript.Json.Basic
import MetricScript.Proofs.Json.Printed
import MetricScript.Proofs.Number.Finite
import MetricScript.Proofs.Run.Keyed

/-!
# Documents that outlast being printed

A document is printed in some form, and the form is read as a document again.  The two are the
same if the keys of its objects rise, its integers fit 64 bits, its numbers read back and arrays
and objects nest no deeper than a reader goes.  A number reads back if its text stands for that
number; numbers that are not finite never do, since their text is `null`.
-/

namespace MetricScript.Json

open MetricScript.Number (digitsOf digitsValue)

/-- The text of the number is a numeral that stands for it. -/
def ReadsBack (x : Float) : Prop :=
  ∃ numeral, Source.readNumeral? (Number.jsonText x).toList = some (numeral, []) ∧
    numeral.toJson? = some (.number x)

/-- The integer is one of 64 bits, with or without a sign. -/
def InRange (value : Int) : Prop := -(2 ^ 63 : Int) ≤ value ∧ value ≤ maxInteger

mutual

/-- All integers and all other numbers in the document have a property. -/
def Numbers (whole : Int → Prop) (real : Float → Prop) : Json → Prop
  | integer value => whole value
  | number value => real value
  | array items => NumbersItems whole real items
  | object entries => NumbersEntries whole real entries
  | null | boolean _ | string _ => True
termination_by structural document => document

def NumbersItems (whole : Int → Prop) (real : Float → Prop) : List Json → Prop
  | [] => True
  | item :: rest => item.Numbers whole real ∧ NumbersItems whole real rest
termination_by structural items => items

def NumbersEntries (whole : Int → Prop) (real : Float → Prop) : List (String × Json) → Prop
  | [] => True
  | (_, value) :: rest => value.Numbers whole real ∧ NumbersEntries whole real rest
termination_by structural entries => entries

end

mutual

/-- Arrays and objects nest `depth` deep at most. -/
def Nests (depth : Nat) : Json → Prop
  | array items => 0 < depth ∧ NestsItems (depth - 1) items
  | object entries => 0 < depth ∧ NestsEntries (depth - 1) entries
  | null | boolean _ | integer _ | number _ | string _ => True
termination_by structural document => document

def NestsItems (depth : Nat) : List Json → Prop
  | [] => True
  | item :: rest => item.Nests depth ∧ NestsItems depth rest
termination_by structural items => items

def NestsEntries (depth : Nat) : List (String × Json) → Prop
  | [] => True
  | (_, value) :: rest => value.Nests depth ∧ NestsEntries depth rest
termination_by structural entries => entries

end

/-- The finite numbers in the document read back. -/
def Exact (document : Json) : Prop :=
  document.Numbers (fun _ => True) fun x => x.isFinite = true → ReadsBack x

section Numbers

variable {whole : Int → Prop} {real : Float → Prop}

theorem numbersItems_iff (items : List Json) :
    NumbersItems whole real items ↔ ∀ item ∈ items, item.Numbers whole real := by
  induction items with
  | nil => simp [NumbersItems]
  | cons item items ih => simp [NumbersItems, ih]

theorem numbersEntries_iff (entries : List (String × Json)) :
    NumbersEntries whole real entries ↔ ∀ entry ∈ entries, entry.2.Numbers whole real := by
  induction entries with
  | nil => simp [NumbersEntries]
  | cons entry entries ih => simp [NumbersEntries, ih]

end Numbers

/-! ## The form of a printed document -/

def numberForm (x : Float) : Source :=
  match Source.readNumeral? (Number.jsonText x).toList with
  | some (numeral, []) => .numeral numeral
  | _ => .null

def integerForm (value : Int) : Numeral := ⟨value < 0, digitsOf value.natAbs, [], none⟩

mutual

def form : Json → Source
  | null => .null
  | boolean value => .boolean value
  | integer value => .numeral (integerForm value)
  | number value => numberForm value
  | string value => .string (value.toList.map printedPart)
  | array items => .array (formItems items)
  | object entries => .object (formEntries entries)
termination_by structural document => document

def formItems : List Json → List Source
  | [] => []
  | item :: rest => item.form :: formItems rest
termination_by structural items => items

def formEntries : List (String × Json) → List (List StringPart × Source)
  | [] => []
  | (key, value) :: rest => (key.toList.map printedPart, value.form) :: formEntries rest
termination_by structural entries => entries

end

/-! ## Integers -/

theorem digitsValue_digitsOf (n : Nat) : digitsValue (digitsOf n) = n := by
  have hfold := @Nat.ofDigitChars_ten_toDigits n
  rw [Nat.ofDigitChars_eq_foldl] at hfold
  unfold digitsValue digitsOf
  simpa only [Nat.mul_comm 10] using hfold

theorem isDigit_of_mem_digitsOf {n : Nat} {c : Char} (hmem : c ∈ digitsOf n) :
    Number.isDigit c = true := by
  have hdigit := Nat.isDigit_of_mem_toDigits (by decide) (by decide) hmem
  simpa [Number.isDigit, Char.isDigit, Char.le_def] using hdigit

/-- The digits of a positive number start with another digit than zero. -/
theorem head_digitsOf {n : Nat} (hn : 0 < n) (more : List Char) : digitsOf n ≠ '0' :: more := by
  induction n using Nat.strong_induction_on generalizing more with
  | _ n ih =>
    by_cases hsmall : n < 10
    · have hdigit : ∀ n < 10, 0 < n → Nat.digitChar n ≠ '0' := by decide
      intro heq
      rw [digitsOf, Nat.toDigits_of_lt_base hsmall] at heq
      exact hdigit n hsmall hn (List.cons.inj heq).1
    · intro heq
      rw [digitsOf, Nat.toDigits_of_base_le (by decide) (by omega)] at heq
      cases hfront : digitsOf (n / 10) with
      | nil => exact Nat.toDigits_ne_nil hfront
      | cons first rest =>
        rw [digitsOf] at hfront
        rw [hfront] at heq
        refine ih (n / 10) (by omega) (by omega) rest ?_
        rw [digitsOf, hfront, (List.cons.inj heq).1]

/-- The digits of a number are read whole, up to the last. -/
theorem readWhole?_digitsOf (n : Nat) :
    Source.readWhole? (digitsOf n) = some (digitsOf n, []) := by
  rcases Nat.eq_zero_or_pos n with rfl | hn
  · rfl
  · have hall : (digitsOf n).takeWhile Number.isDigit = digitsOf n :=
      List.takeWhile_eq_self_iff.2 fun c hmem => isDigit_of_mem_digitsOf hmem
    have hnone : (digitsOf n).dropWhile Number.isDigit = [] :=
      List.dropWhile_eq_nil_iff.2 fun c hmem => isDigit_of_mem_digitsOf hmem
    have hne : digitsOf n ≠ [] := Nat.toDigits_ne_nil
    rw [Source.readWhole?, Source.readDigits?, hall, hnone]
    · simp [hne]
    · exact head_digitsOf hn

/-- A printed integer is read as a numeral of that integer. -/
theorem readNumeral?_integer (value : Int) :
    Source.readNumeral? (toString value).toList = some (integerForm value, []) := by
  cases value with
  | ofNat n =>
    have htext : (toString (Int.ofNat n)).toList = digitsOf n := by
      rw [Int.toString_eq_repr]
      exact Nat.toList_repr
    have hminus : ∀ more, digitsOf n ≠ '-' :: more := by
      intro more heq
      exact absurd (isDigit_of_mem_digitsOf (heq ▸ List.mem_cons_self)) (by decide)
    rw [htext, Source.readNumeral?_of_ne hminus, Source.readUnsigned?, readWhole?_digitsOf]
    rfl
  | negSucc n =>
    have htext : (toString (Int.negSucc n)).toList = '-' :: digitsOf (n + 1) := by
      rw [Int.toString_eq_repr]
      change ("-" ++ (n + 1).repr).toList = _
      rw [String.toList_append, Nat.toList_repr]
      rfl
    have hform : integerForm (.negSucc n) = ⟨true, digitsOf (n + 1), [], none⟩ := by
      simp [integerForm, Int.negSucc_lt_zero]
    rw [htext, Source.readNumeral?_minus, Source.readUnsigned?, readWhole?_digitsOf, hform]
    rfl

/-- A numeral of a 64-bit integer gives that integer back. -/
theorem integer?_integerForm {value : Int} (hleast : -(2 ^ 63 : Int) ≤ value)
    (hgreatest : value ≤ maxInteger) : (integerForm value).integer? = some value := by
  unfold Numeral.integer? integerForm
  simp only [List.isEmpty_nil, Option.isNone_none, Bool.and_self, if_true, digitsValue_digitsOf]
  by_cases hneg : value < 0
  · have hrange : 0 < value.natAbs ∧ value.natAbs ≤ Nat.pow 2 63 := by
      have hpow : Nat.pow 2 63 = 9223372036854775808 := by decide
      omega
    simp only [hneg, decide_true, if_true, hrange, Bool.and_self]
    exact congrArg some (by omega)
  · have hrange : value.natAbs ≤ maxInteger := by omega
    simp only [hneg, decide_false, hrange, if_true, Bool.false_eq_true, if_false]
    exact congrArg some (by omega)

/-- A numeral read as an integer fits in 64 bits. -/
theorem inRange_of_integer? {numeral : Numeral} {value : Int}
    (hvalue : numeral.integer? = some value) : InRange value := by
  have hpow : Nat.pow 2 63 = 9223372036854775808 := by decide
  unfold Numeral.integer? at hvalue
  dsimp only at hvalue
  split at hvalue
  · split at hvalue
    · split at hvalue
      · next hrange =>
        obtain rfl := Option.some.inj hvalue
        simp only [Bool.and_eq_true, decide_eq_true_eq] at hrange
        unfold InRange
        omega
      · exact nomatch hvalue
    · split at hvalue
      · next hrange =>
        obtain rfl := Option.some.inj hvalue
        unfold InRange
        omega
      · exact nomatch hvalue
  · exact nomatch hvalue

/-- A number that reads back is printed as a numeral, not as `null`. -/
theorem readsBack_numberForm {x : Float} (hreads : ReadsBack x) :
    ∃ numeral, numberForm x = .numeral numeral ∧
      Source.readNumeral? (Number.jsonText x).toList = some (numeral, []) ∧
        numeral.toJson? = some (.number x) := by
  obtain ⟨numeral, hread, hvalue⟩ := hreads
  exact ⟨numeral, by rw [numberForm, hread], hread, hvalue⟩

/-- A number that is not finite is printed as nothing. -/
theorem jsonText_of_not_isFinite {x : Float} (hx : x.isFinite = false) :
    Number.jsonText x = "null" := by
  rw [Number.jsonText, (Number.binary?_eq_none_iff x).2 hx]

/-- An infinity and NaN are printed as `null`. -/
theorem numberForm_of_not_isFinite {x : Float} (hx : x.isFinite = false) :
    numberForm x = .null := by
  have hread : Source.readNumeral? (Number.jsonText x).toList = none := by
    have htext : "null".toList = ['n', 'u', 'l', 'l'] := by simp
    rw [jsonText_of_not_isFinite hx, htext]
    decide
  rw [numberForm, hread]

/-! ## Printing -/

namespace Source

theorem blank_newLine (depth : Nat) : Blank (newLine depth).toList := by
  intro c hmem
  have hline : "\n".toList = ['\n'] := by simp
  have hcases : c = '\n' ∨ c ∈ List.replicate (2 * depth) ' ' := by
    simpa only [newLine, String.toList_append, String.toList_ofList, hline, List.mem_append,
      List.mem_singleton] using hmem
  rcases hcases with rfl | hmem
  · rfl
  · rw [List.eq_of_mem_replicate hmem]
    rfl

/-- The lines of an array, each with its item. -/
theorem printedItems_lines {gap last : List Char} (hgap : Blank gap) (hlast : Blank last)
    {items : List Source} {lines : List (List Char)} (hlines : List.Forall₂ Printed items lines)
    (hne : lines ≠ []) :
    PrintedItems items (gap ++ ((',' :: gap).intercalate lines ++ last)) := by
  induction hlines with
  | nil => exact absurd rfl hne
  | @cons item line items lines hline hlines ih =>
    cases hlines with
    | nil =>
      rw [List.intercalate_singleton]
      exact .last hgap hline hlast
    | cons hnext hmore =>
      rw [List.intercalate_cons_cons, List.append_assoc, List.append_assoc]
      have hblank : Blank [] := fun _ hmem => nomatch hmem
      exact .more hgap hline hblank (ih (by simp))

/-- A line of an object with its entry. -/
def PrintedEntry (entry : List StringPart × Source) (line : List Char) : Prop :=
  ∃ key text, entry.1 = key.map printedPart ∧ Printed entry.2 text ∧
    line = quoted key ++ ':' :: ([' '] ++ text)

/-- Entries on lines of their own, however far indented, are one printed table. -/
theorem printedEntries_lines {gap last : List Char} (hgap : Blank gap) (hlast : Blank last)
    {entries : List (List StringPart × Source)} {lines : List (List Char)}
    (hlines : List.Forall₂ PrintedEntry entries lines) (hne : lines ≠ []) :
    PrintedEntries entries (gap ++ ((',' :: gap).intercalate lines ++ last)) := by
  have hspace : Blank [' '] := fun c hmem => by
    rw [List.mem_singleton.1 hmem]
    rfl
  induction hlines with
  | nil => exact absurd rfl hne
  | @cons entry line entries lines hline hlines ih =>
    obtain ⟨parts, value⟩ := entry
    obtain ⟨key, text, rfl, hvalue, rfl⟩ := hline
    cases hlines with
    | nil =>
      rw [List.intercalate_singleton, List.append_assoc, List.cons_append, List.append_assoc]
      exact .last key hgap hspace hvalue hlast
    | cons hnext hmore =>
      have hblank : Blank [] := fun _ hmem => nomatch hmem
      have hmore := PrintedEntries.more key hgap hspace hvalue hblank (ih (by simp))
      simpa only [List.intercalate_cons_cons, List.append_assoc, List.cons_append,
        List.nil_append] using hmore

end Source

open Source

/-- The lines between brackets, each on a line of its own and one level deeper. -/
theorem toList_bracketed {opening closing : Char} {depth : Nat} {lines : List String}
    (hne : lines ≠ []) :
    (bracketed (String.ofList [opening]) (String.ofList [closing]) depth lines).toList =
      opening :: ((newLine (depth + 1)).toList ++
        ((',' :: (newLine (depth + 1)).toList).intercalate (lines.map String.toList) ++
          (newLine depth).toList) ++ [closing]) := by
  rw [bracketed, if_neg (by simpa using hne)]
  simp [String.toList_append, String.toList_intercalate]

theorem toList_stringText (text : String) : (stringText text).toList = quoted text.toList := by
  rw [stringText, String.toList_ofList]
  rfl

theorem toList_entryLine (key : String) (text : String) :
    (stringText key ++ ": " ++ text).toList = quoted key.toList ++ ':' :: ([' '] ++ text.toList) := by
  rw [String.toList_append, String.toList_append, toList_stringText, List.append_assoc]
  rfl

mutual

/-- A document is printed in its form, at any level of indentation. -/
theorem printed_form : (document : Json) → document.Exact → (level : Nat) →
    Printed document.form (document.indented level).toList
  | null, _, _ => by simpa [form, indented] using Printed.null
  | boolean true, _, _ => by simpa [form, indented] using Printed.isTrue
  | boolean false, _, _ => by simpa [form, indented] using Printed.isFalse
  | integer value, _, _ => .numeral (readNumeral?_integer value)
  | number value, hexact, _ => by
    rw [form, indented]
    cases hvalue : value.isFinite with
    | true =>
      obtain ⟨numeral, hform, hread, _⟩ := readsBack_numberForm (hexact hvalue)
      rw [hform]
      exact .numeral hread
    | false =>
      rw [numberForm_of_not_isFinite hvalue, jsonText_of_not_isFinite hvalue]
      simpa using Printed.null
  | string value, _, _ => by
    rw [indented, toList_stringText]
    exact .string value.toList
  | array [], _, _ => by
    simpa [form, formItems, indented, indentedItems, bracketed] using Printed.emptyArray
  | array (item :: rest), hexact, level => by
    have hlines := printed_formItems (item :: rest) hexact (level + 1)
    have hitems := printedItems_lines (blank_newLine (level + 1)) (blank_newLine level) hlines
      (by simp [indentedItems])
    have htext := @toList_bracketed '[' ']' level (indentedItems (level + 1) (item :: rest))
      (by simp [indentedItems])
    rw [indented]
    exact htext ▸ .array hitems
  | object [], _, _ => by
    simpa [form, formEntries, indented, indentedEntries, bracketed] using Printed.emptyObject
  | object (entry :: rest), hexact, level => by
    have hlines := printed_formEntries (entry :: rest) hexact (level + 1)
    have hentries := printedEntries_lines (blank_newLine (level + 1)) (blank_newLine level) hlines
      (by simp [indentedEntries])
    have htext := @toList_bracketed '\x7b' '\x7d' level
      (indentedEntries (level + 1) (entry :: rest)) (by simp [indentedEntries])
    rw [indented]
    exact htext ▸ .object hentries

theorem printed_formItems : (items : List Json) → (array items).Exact → (level : Nat) →
    List.Forall₂ Printed (formItems items) ((indentedItems level items).map String.toList)
  | [], _, _ => .nil
  | item :: rest, hexact, level =>
    .cons (printed_form item hexact.1 level) (printed_formItems rest hexact.2 level)

theorem printed_formEntries : (entries : List (String × Json)) → (object entries).Exact →
    (level : Nat) → List.Forall₂ PrintedEntry (formEntries entries)
      ((indentedEntries level entries).map String.toList)
  | [], _, _ => .nil
  | (key, value) :: rest, hexact, level =>
    .cons ⟨key.toList, _, rfl, printed_form value hexact.1 level, toList_entryLine key _⟩
      (printed_formEntries rest hexact.2 level)

end

/-- The form of a document is read from its text. -/
theorem read?_pretty {document : Json} (hexact : document.Exact) :
    Source.read? document.pretty = some document.form :=
  (printed_form document hexact 0).read?

/-! ## Reading -/

mutual

/-- The form of a document stands for the document. -/
theorem ofSource?_form : (document : Json) → {depth : Nat} → document.Keyed .ascending →
    document.Numbers InRange (fun x => x.isFinite = true) → document.Exact →
    document.Nests depth → ofSource? depth document.form = some document
  | null, _, _, _, _, _ | boolean _, _, _, _, _, _ => rfl
  | integer value, _, _, hrange, _, _ => by
    change (integerForm value).toJson? = _
    rw [Numeral.toJson?, integer?_integerForm hrange.1 hrange.2]
  | number value, _, _, hfinite, hexact, _ => by
    obtain ⟨numeral, hform, _, hvalue⟩ := readsBack_numberForm (hexact hfinite)
    rw [form, hform]
    exact hvalue
  | string value, _, _, _, _, _ => by
    change (stringValue? (value.toList.map printedPart)).map string = _
    rw [stringValue?_printed]
    rfl
  | array items, depth, hkeyed, hnumbers, hexact, hnests => by
    have hitems := ofItems?_form items hkeyed hnumbers hexact hnests.2
    rw [form, ofSource?, if_neg (Nat.pos_iff_ne_zero.1 hnests.1), hitems]
    rfl
  | object entries, depth, hkeyed, hnumbers, hexact, hnests => by
    have hentries := ofEntries?_form entries hkeyed.2 hnumbers hexact hnests.2
    have hascending : Table.Ascending entries := List.pairwise_map.1 hkeyed.1
    rw [form, ofSource?, if_neg (Nat.pos_iff_ne_zero.1 hnests.1), hentries]
    exact congrArg (fun entries => some (object entries)) (Table.ofList_of_ascending hascending)

theorem ofItems?_form : (items : List Json) → {depth : Nat} → KeyedItems .ascending items →
    (array items).Numbers InRange (fun x => x.isFinite = true) → (array items).Exact →
    NestsItems depth items → ofItems? depth (formItems items) = some items
  | [], _, _, _, _, _ => rfl
  | item :: rest, depth, hkeyed, hnumbers, hexact, hnests => by
    rw [formItems, ofItems?, ofSource?_form item hkeyed.1 hnumbers.1 hexact.1 hnests.1,
      ofItems?_form rest hkeyed.2 hnumbers.2 hexact.2 hnests.2]
    rfl

theorem ofEntries?_form : (entries : List (String × Json)) → {depth : Nat} →
    KeyedEntries .ascending entries →
    (object entries).Numbers InRange (fun x => x.isFinite = true) → (object entries).Exact →
    NestsEntries depth entries → ofEntries? depth (formEntries entries) = some entries
  | [], _, _, _, _, _ => rfl
  | (key, value) :: rest, depth, hkeyed, hnumbers, hexact, hnests => by
    rw [formEntries, ofEntries?, stringValue?_printed,
      ofSource?_form value hkeyed.1 hnumbers.1 hexact.1 hnests.1,
      ofEntries?_form rest hkeyed.2 hnumbers.2 hexact.2 hnests.2]
    rfl

end

/-- What is read from a numeral is an integer in range or a finite number. -/
theorem inherited_numbers : Inherited (Numbers InRange fun x => x.isFinite = true) where
  null := trivial
  boolean _ := trivial
  numeral hread := by
    unfold Numeral.toJson? at hread
    split at hread
    · next hinteger =>
      obtain rfl := Option.some.inj hread
      exact inRange_of_integer? hinteger
    · obtain ⟨x, hx, rfl⟩ := Option.map_eq_some_iff.1 hread
      exact isFinite_number? hx
  string _ := trivial
  array := (numbersItems_iff _).2
  object hpairs := (numbersEntries_iff _).2 (Table.forall_ofList hpairs)

/-- The numbers of documents that are read have 64 bits if they are whole, and else are
finite. -/
theorem numbers_ofSource {depth : Nat} (source : Source) {document : Json}
    (hread : ofSource? depth source = some document) :
    document.Numbers InRange fun x => x.isFinite = true :=
  inherited_numbers.ofSource source hread

mutual

/-- A form is only read if the document nests no deeper than the reader goes. -/
theorem nests_of_ofSource? : (document : Json) → {depth : Nat} → {other : Json} →
    ofSource? depth document.form = some other → document.Nests depth
  | null, _, _, _ | boolean _, _, _, _ | integer _, _, _, _ | number _, _, _, _
  | string _, _, _, _ => trivial
  | array items, depth, _, hread => by
    rw [form, ofSource?] at hread
    split at hread
    · exact nomatch hread
    · next hdepth =>
      obtain ⟨others, hothers, _⟩ := Option.map_eq_some_iff.1 hread
      exact ⟨Nat.pos_iff_ne_zero.2 hdepth, nests_of_ofItems? items hothers⟩
  | object entries, depth, _, hread => by
    rw [form, ofSource?] at hread
    split at hread
    · exact nomatch hread
    · next hdepth =>
      obtain ⟨others, hothers, _⟩ := Option.map_eq_some_iff.1 hread
      exact ⟨Nat.pos_iff_ne_zero.2 hdepth, nests_of_ofEntries? entries hothers⟩

theorem nests_of_ofItems? : (items : List Json) → {depth : Nat} → {others : List Json} →
    ofItems? depth (formItems items) = some others → NestsItems depth items
  | [], _, _, _ => trivial
  | item :: rest, _, _, hread => by
    obtain ⟨first, hfirst, hread⟩ := Option.bind_eq_some_iff.1 hread
    obtain ⟨others, hothers, _⟩ := Option.bind_eq_some_iff.1 hread
    exact ⟨nests_of_ofSource? item hfirst, nests_of_ofItems? rest hothers⟩

theorem nests_of_ofEntries? : (entries : List (String × Json)) → {depth : Nat} →
    {pairs : List (String × Json)} → ofEntries? depth (formEntries entries) = some pairs →
    NestsEntries depth entries
  | [], _, _, _ => trivial
  | (_, value) :: rest, _, _, hread => by
    obtain ⟨name, _, hread⟩ := Option.bind_eq_some_iff.1 hread
    obtain ⟨first, hfirst, hread⟩ := Option.bind_eq_some_iff.1 hread
    obtain ⟨others, hothers, _⟩ := Option.bind_eq_some_iff.1 hread
    exact ⟨nests_of_ofSource? value hfirst, nests_of_ofEntries? rest hothers⟩

end

end MetricScript.Json
