import Mathlib
import MetricScript.Proofs.Json.Documents
import MetricScript.Proofs.Json.Values
import MetricScript.Proofs.Provider.Upkeep

/-!
# Two ways to print a value

A value can be printed as it is, and it can be turned into a document that is printed then.  The
first way always gives a text, the second one only if the value has a document; in that case the
texts are the same, compact as well as indented.  What is printed is read back as the value if
arrays and maps nest no deeper than a reader goes, and is refused otherwise.  This takes for
granted that the text of each number in the value is read back as that number.
-/

namespace MetricScript

/-! ## Compact texts -/

namespace Json

open Source

theorem blank_nil : Blank [] := fun _ hmem => nomatch hmem

mutual

/-- The compact text of a document is one in which its form is printed. -/
theorem printed_compact : (document : Json) → document.Exact →
    Printed document.form document.compact.toList
  | null, _ => by simpa [form, compact] using Printed.null
  | boolean true, _ => by simpa [form, compact] using Printed.isTrue
  | boolean false, _ => by simpa [form, compact] using Printed.isFalse
  | integer value, hexact => printed_form (integer value) hexact 0
  | number value, hexact => printed_form (number value) hexact 0
  | string value, hexact => printed_form (string value) hexact 0
  | array [], _ => by
    simpa [form, formItems, compact, compactItems] using Printed.emptyArray
  | array (item :: rest), hexact => by
    rw [compact, String.toList_append, String.toList_append]
    exact .array (printedItems_compact (item :: rest) (List.cons_ne_nil _ _) hexact)
  | object [], _ => by
    simpa [form, formEntries, compact, compactEntries] using Printed.emptyObject
  | object (entry :: rest), hexact => by
    rw [compact, String.toList_append, String.toList_append]
    exact .object (printedEntries_compact (entry :: rest) (List.cons_ne_nil _ _) hexact)

/-- The compact items, separated by commas, are a printing of their forms. -/
theorem printedItems_compact : (items : List Json) → items ≠ [] → (array items).Exact →
    PrintedItems (formItems items) (",".intercalate (compactItems items)).toList
  | [], hne, _ => absurd rfl hne
  | item :: rest, _, hexact => by
    have hitem := printed_compact item hexact.1
    cases rest with
    | nil =>
      simpa [formItems, compactItems] using PrintedItems.last blank_nil hitem blank_nil
    | cons next rest =>
      have hrest := printedItems_compact (next :: rest) (List.cons_ne_nil _ _) hexact.2
      simpa [formItems, compactItems, String.toList_intercalate] using
        PrintedItems.more blank_nil hitem blank_nil hrest

/-- The compact entries, separated by commas, are a printing of their forms. -/
theorem printedEntries_compact : (entries : List (String × Json)) → entries ≠ [] →
    (object entries).Exact →
    PrintedEntries (formEntries entries) (",".intercalate (compactEntries entries)).toList
  | [], hne, _ => absurd rfl hne
  | (key, value) :: rest, _, hexact => by
    have hvalue := printed_compact value hexact.1
    cases rest with
    | nil =>
      simpa [formEntries, compactEntries, toList_stringText] using
        PrintedEntries.last key.toList blank_nil blank_nil hvalue blank_nil
    | cons next rest =>
      have hrest := printedEntries_compact (next :: rest) (List.cons_ne_nil _ _) hexact.2
      simpa [formEntries, compactEntries, toList_stringText, String.toList_intercalate] using
        PrintedEntries.more key.toList blank_nil blank_nil hvalue blank_nil hrest

end

/-- What is printed is read as long as arrays and objects nest no deeper than the reader goes. -/
theorem read?_printed {document : Json} (hkeyed : document.Keyed .ascending)
    (hnumbers : document.Numbers InRange fun x => x.isFinite = true) (hexact : document.Exact)
    {text : String} (htext : text = document.compact ∨ text = document.pretty) :
    (document.Nests depthLimit → read? text = some document) ∧
      (¬ document.Nests depthLimit → read? text = none) := by
  have hsource : Source.read? text = some document.form := by
    rcases htext with rfl | rfl
    · exact (printed_compact document hexact).read?
    · exact read?_pretty hexact
  rw [read?, hsource, Option.bind_some]
  constructor
  · exact ofSource?_form document hkeyed hnumbers hexact
  · intro hdeep
    cases hread : ofSource? depthLimit document.form with
    | none => rfl
    | some other => exact absurd (nests_of_ofSource? document hread) hdeep

end Json

/-! ## Documents of values -/

namespace Value

mutual

/-- How deep arrays and maps nest. -/
def depth : Value → Nat
  | array items => itemsDepth items + 1
  | map entries => entriesDepth entries + 1
  | null | boolean _ | number _ | string _ | handle _ => 0
termination_by structural value => value

def itemsDepth : List Value → Nat
  | [] => 0
  | item :: rest => max item.depth (itemsDepth rest)
termination_by structural items => items

def entriesDepth : List (String × Value) → Nat
  | [] => 0
  | (_, value) :: rest => max value.depth (entriesDepth rest)
termination_by structural entries => entries

end

mutual

/-- The document of a value is the one that is printed for it. -/
theorem printed_of_toJson : (value : Value) → {document : Json} → value.toJson = .ok document →
    value.printed = document
  | null, _, hdocument | boolean _, _, hdocument | string _, _, hdocument =>
    Except.ok.inj hdocument
  | number x, _, hdocument => by
    unfold toJson at hdocument
    split at hdocument
    · exact Except.ok.inj hdocument
    · exact nomatch hdocument
  | array items, _, hdocument => by
    obtain ⟨documents, hdocuments, rfl⟩ := exists_of_map_eq_ok hdocument
    rw [printed, printedItems_of_itemsToJson items hdocuments]
  | map entries, _, hdocument => by
    obtain ⟨documents, hdocuments, rfl⟩ := exists_of_map_eq_ok hdocument
    rw [printed, printedEntries_of_entriesToJson entries hdocuments]
  | handle _, _, hdocument => nomatch hdocument

theorem printedItems_of_itemsToJson : (items : List Value) → {documents : List Json} →
    itemsToJson items = .ok documents → printedItems items = documents
  | [], _, hdocuments => Except.ok.inj hdocuments
  | item :: rest, _, hdocuments => by
    obtain ⟨first, hfirst, hdocuments⟩ := exists_of_bind_eq_ok hdocuments
    obtain ⟨others, hothers, hdocuments⟩ := exists_of_bind_eq_ok hdocuments
    obtain rfl := Except.ok.inj hdocuments
    rw [printedItems, printed_of_toJson item hfirst, printedItems_of_itemsToJson rest hothers]

theorem printedEntries_of_entriesToJson : (entries : List (String × Value)) →
    {documents : List (String × Json)} → entriesToJson entries = .ok documents →
    printedEntries entries = documents
  | [], _, hdocuments => Except.ok.inj hdocuments
  | (_, value) :: rest, _, hdocuments => by
    obtain ⟨first, hfirst, hdocuments⟩ := exists_of_bind_eq_ok hdocuments
    obtain ⟨others, hothers, hdocuments⟩ := exists_of_bind_eq_ok hdocuments
    obtain rfl := Except.ok.inj hdocuments
    rw [printedEntries, printed_of_toJson value hfirst,
      printedEntries_of_entriesToJson rest hothers]

end

mutual

/-- The document that is printed for a value nests as deep as the value. -/
theorem nests_printed_iff : (value : Value) → {limit : Nat} →
    (value.printed.Nests limit ↔ value.depth ≤ limit)
  | null, _ | boolean _, _ | number _, _ | string _, _ | handle _, _ =>
    iff_of_true trivial (Nat.zero_le _)
  | array items, limit => by
    have hitems : Json.NestsItems (limit - 1) (printedItems items) ↔ itemsDepth items ≤ limit - 1 :=
      nestsItems_printed_iff items
    rw [printed, Json.Nests, hitems, depth]
    omega
  | map entries, limit => by
    have hentries : Json.NestsEntries (limit - 1) (printedEntries entries) ↔
        entriesDepth entries ≤ limit - 1 := nestsEntries_printed_iff entries
    rw [printed, Json.Nests, hentries, depth]
    omega

theorem nestsItems_printed_iff : (items : List Value) → {limit : Nat} →
    (Json.NestsItems limit (printedItems items) ↔ itemsDepth items ≤ limit)
  | [], _ => iff_of_true trivial (Nat.zero_le _)
  | item :: rest, _ => by
    rw [printedItems, Json.NestsItems, nests_printed_iff item, nestsItems_printed_iff rest,
      itemsDepth, max_le_iff]

theorem nestsEntries_printed_iff : (entries : List (String × Value)) → {limit : Nat} →
    (Json.NestsEntries limit (printedEntries entries) ↔ entriesDepth entries ≤ limit)
  | [], _ => iff_of_true trivial (Nat.zero_le _)
  | (_, value) :: rest, _ => by
    rw [printedEntries, Json.NestsEntries, nests_printed_iff value, nestsEntries_printed_iff rest,
      entriesDepth, max_le_iff]

end

end Value

/-- A value that has a document is printed like its document, and what is printed is read back as
the value if arrays and maps nest 127 deep at most, and refused if they nest deeper. -/
theorem value_printed_like_document (value : Value) (document : Json)
    (hdocument : value.toJson = .ok document) :
    value.printed.compact = document.compact ∧ value.printed.pretty = document.pretty ∧
      (value.Keyed .ascending → (∀ x, value.Contains (.number x) → Json.ReadsBack x) →
        ∀ text, text = value.printed.compact ∨ text = value.printed.pretty →
          (value.depth ≤ 127 → ∃ reread, Json.read? text = some reread ∧
            Value.ofJson reread = value) ∧
          (127 < value.depth → Json.read? text = none)) := by
  have hprinted : value.printed = document := Value.printed_of_toJson value hdocument
  refine ⟨congrArg Json.compact hprinted, congrArg Json.pretty hprinted, ?_⟩
  intro hkeyed hreads text htext
  have hnumbers : document.Numbers Json.InRange fun x => x.isFinite = true :=
    Value.numbers_toJson value hdocument fun _ _ hfinite => hfinite
  have hexact : document.Exact :=
    Value.numbers_toJson value hdocument fun x hpart _ _ => hreads x hpart
  rw [hprinted] at htext
  obtain ⟨hread, hrefused⟩ := Json.read?_printed (Value.keyed_toJson value hdocument hkeyed)
    hnumbers hexact htext
  rw [← hprinted, Value.nests_printed_iff value] at hread hrefused
  constructor
  · intro hdepth
    exact ⟨value.printed, hread hdepth, hprinted ▸ Value.ofJson_toJson value hdocument⟩
  · intro hdepth
    exact hrefused (Nat.not_le.2 hdepth)

/-- Whole numbers and a negative zero under a key with quotes, beside an empty array. -/
def zeros : Value :=
  .map [("\"0\"\n", .array [.number 20.0, .number (-0.0)]), ("none", .array [])]

theorem readsBack_of_number? {x : Float} {numeral : Json.Numeral}
    (hread : Json.Source.readNumeral? (Number.jsonText x).toList = some (numeral, []))
    (hinteger : numeral.integer? = none) (hnumber : numeral.number? = some x) :
    Json.ReadsBack x :=
  ⟨numeral, hread, by rw [Json.Numeral.toJson?, hinteger, hnumber]; rfl⟩

/-- Both zeros read back. -/
theorem readsBack_zeros (x : Float) (hpart : zeros.Contains (.number x)) : Json.ReadsBack x := by
  have htwenty : Json.ReadsBack 20.0 :=
    @readsBack_of_number? _ ⟨false, ['2', '0'], ['0'], none⟩ (by decide +kernel) rfl
      (by decide +kernel)
  have hnegative : Json.ReadsBack (-0.0) :=
    @readsBack_of_number? _ ⟨true, ['0'], ['0'], none⟩ (by decide +kernel) rfl (by decide +kernel)
  cases hpart with
  | entry hmem hpart =>
    rcases List.mem_pair.1 hmem with rfl | rfl
    · cases hpart with
      | item hmem hpart =>
        rcases List.mem_pair.1 hmem with rfl | rfl
        · cases hpart with
          | whole => exact htwenty
        · cases hpart with
          | whole => exact hnegative
    · cases hpart with
      | item hmem => exact nomatch hmem

/-- A table of zeros, and the same table read from its pretty printing. -/
theorem value_printed_like_document_zeros :
    zeros.toJson = .ok zeros.printed ∧ zeros.Keyed .ascending ∧
      (∀ x, zeros.Contains (.number x) → Json.ReadsBack x) ∧ zeros.depth ≤ 127 ∧
        ∃ reread, Json.read? zeros.printed.pretty = some reread ∧ Value.ofJson reread = zeros := by
  have hdocument : zeros.toJson = .ok zeros.printed := by
    have htwenty : (20.0 : Float).isFinite = true := by decide +kernel
    have hnegative : (-0.0 : Float).isFinite = true := by decide +kernel
    simp only [zeros, Value.toJson, Value.entriesToJson, Value.itemsToJson, htwenty, hnegative,
      if_true]
    rfl
  have hkeyed : zeros.Keyed .ascending := by
    refine ⟨?_, ⟨trivial, trivial, trivial⟩, trivial, trivial⟩
    change ["\"0\"\n", "none"].Pairwise (· < ·)
    decide
  have hdepth : zeros.depth ≤ 127 := by decide
  obtain ⟨_, _, hread⟩ := value_printed_like_document zeros zeros.printed hdocument
  exact ⟨hdocument, hkeyed, readsBack_zeros, hdepth,
    (hread hkeyed readsBack_zeros _ (.inr rfl)).1 hdepth⟩

end MetricScript
