import Mathlib
import MetricScript.Value.Document
import MetricScript.Proofs.Results

/-!
# Values that have a document

A value can be turned into a document if all that it is made of has a JSON form.  Handles have
none, nor do numbers that are undefined or infinite, at whatever depth they are.  The document
of a value stands for that value and no other: numbers are kept to the bit, entries keep their
keys, and items and entries keep their order.
-/

namespace MetricScript

/-- A number is finite if it is a number and has bounds. -/
theorem Number.isFinite_eq (x : Float) : x.isFinite = (!x.isNaN && !x.isInf) := by
  unfold Float.isFinite Float.isNaN Float.isInf Float.Model.isFinite Float.Model.isNaN
    Float.Model.isInf
  generalize x.toModel.unpack = parts
  cases parts with
  | zero | finite | infinity | notANumber => rfl

namespace Value

/-- A value is a part of another one: the other one itself, or a part of an item or of the value
of an entry. -/
inductive Contains : Value → Value → Prop
  | whole (value : Value) : Contains value value
  | item {items : List Value} {item part : Value} (hmem : item ∈ items)
      (hpart : Contains item part) : Contains (array items) part
  | entry {entries : List (String × Value)} {entry : String × Value} {part : Value}
      (hmem : entry ∈ entries) (hpart : Contains entry.2 part) : Contains (map entries) part

/-- The value has a JSON form as far as it is no array and no map. -/
def HasForm : Value → Prop
  | handle _ => False
  | number x => x.isNaN = false ∧ x.isInf = false
  | null | boolean _ | string _ | array _ | map _ => True

/-- No part of the value is a handle, an undefined number or an infinite one. -/
def Recordable (value : Value) : Prop := ∀ part, value.Contains part → part.HasForm

/-- The value is no array and no map, so it has no parts but itself. -/
def Single : Value → Prop
  | array _ | map _ => False
  | null | boolean _ | number _ | string _ | handle _ => True

theorem recordable_iff_of_single (value : Value) (hsingle : value.Single) :
    value.Recordable ↔ value.HasForm := by
  constructor
  · exact fun hrecordable => hrecordable value (.whole value)
  · intro hform part hpart
    cases hpart with
    | whole => exact hform
    | item | entry => exact hsingle.elim

theorem recordable_number_iff (x : Float) : (number x).Recordable ↔ x.isFinite = true := by
  rw [recordable_iff_of_single (number x) trivial, Number.isFinite_eq, Bool.and_eq_true_iff,
    Bool.not_eq_true', Bool.not_eq_true']
  rfl

theorem recordable_array_iff (items : List Value) :
    (array items).Recordable ↔ ∀ item ∈ items, item.Recordable := by
  constructor
  · exact fun hrecordable item hmem part hpart => hrecordable part (.item hmem hpart)
  · intro hitems part hpart
    cases hpart with
    | whole => exact trivial
    | item hmem hpart => exact hitems _ hmem part hpart

/-- A table can be recorded exactly if each of its values can. -/
theorem recordable_map_iff (entries : List (String × Value)) :
    (map entries).Recordable ↔ ∀ entry ∈ entries, entry.2.Recordable := by
  constructor
  · exact fun hrecordable entry hmem part hpart => hrecordable part (.entry hmem hpart)
  · intro hentries part hpart
    cases hpart with
    | whole => exact trivial
    | entry hmem hpart => exact hentries _ hmem part hpart

/-! ## Values that have a document -/

mutual

/-- A value has a document exactly if it is recordable. -/
theorem exists_toJson_iff :
    (value : Value) → ((∃ document, value.toJson = .ok document) ↔ value.Recordable)
  | null => iff_of_true ⟨_, rfl⟩ ((recordable_iff_of_single null trivial).2 trivial)
  | boolean truth =>
      iff_of_true ⟨_, rfl⟩ ((recordable_iff_of_single (boolean truth) trivial).2 trivial)
  | string text =>
      iff_of_true ⟨_, rfl⟩ ((recordable_iff_of_single (string text) trivial).2 trivial)
  | number x => by
      rw [recordable_number_iff, toJson]
      cases x.isFinite with
      | true => exact iff_of_true ⟨_, rfl⟩ rfl
      | false => exact iff_of_false (fun ⟨_, hdocument⟩ => nomatch hdocument) Bool.false_ne_true
  | handle reference =>
      iff_of_false (fun ⟨_, hdocument⟩ => nomatch hdocument)
        (recordable_iff_of_single (handle reference) trivial).1
  | array items => by
      rw [recordable_array_iff, ← exists_itemsToJson_iff items]
      exact exists_map_eq_ok_iff
  | map entries => by
      rw [recordable_map_iff, ← exists_entriesToJson_iff entries]
      exact exists_map_eq_ok_iff

theorem exists_itemsToJson_iff : (items : List Value) →
    ((∃ documents, itemsToJson items = .ok documents) ↔ ∀ item ∈ items, item.Recordable)
  | [] => iff_of_true ⟨_, rfl⟩ (List.forall_mem_nil _)
  | item :: rest => by
      rw [List.forall_mem_cons, ← exists_toJson_iff item, ← exists_itemsToJson_iff rest]
      exact exists_bind_bind_eq_ok_iff

/-- A list of entries has documents exactly if each value is recordable. -/
theorem exists_entriesToJson_iff : (entries : List (String × Value)) →
    ((∃ documents, entriesToJson entries = .ok documents) ↔
      ∀ entry ∈ entries, entry.2.Recordable)
  | [] => iff_of_true ⟨_, rfl⟩ (List.forall_mem_nil _)
  | (key, value) :: rest => by
      rw [List.forall_mem_cons, ← exists_toJson_iff value, ← exists_entriesToJson_iff rest]
      exact exists_bind_bind_eq_ok_iff

end

/-! ## The value of a document -/

mutual

/-- The document of a value stands for this value. -/
theorem ofJson_toJson : (value : Value) → {document : Json} → value.toJson = .ok document →
    ofJson document = value
  | null, _, hdocument | boolean _, _, hdocument | string _, _, hdocument => by
      obtain rfl := Except.ok.inj hdocument
      rfl
  | number x, _, hdocument => by
      unfold toJson at hdocument
      split at hdocument
      · obtain rfl := Except.ok.inj hdocument
        rfl
      · exact nomatch hdocument
  | array items, _, hdocument => by
      obtain ⟨documents, hdocuments, rfl⟩ := exists_of_map_eq_ok hdocument
      exact congrArg array (ofJsonItems_itemsToJson items hdocuments)
  | map entries, _, hdocument => by
      obtain ⟨documents, hdocuments, rfl⟩ := exists_of_map_eq_ok hdocument
      exact congrArg map (ofJsonEntries_entriesToJson entries hdocuments)
  | handle _, _, hdocument => nomatch hdocument

theorem ofJsonItems_itemsToJson : (items : List Value) → {documents : List Json} →
    itemsToJson items = .ok documents → ofJsonItems documents = items
  | [], _, hdocuments => by
      obtain rfl := Except.ok.inj hdocuments
      rfl
  | item :: rest, _, hdocuments => by
      obtain ⟨first, hfirst, hdocuments⟩ := exists_of_bind_eq_ok hdocuments
      obtain ⟨others, hothers, hdocuments⟩ := exists_of_bind_eq_ok hdocuments
      obtain rfl := Except.ok.inj hdocuments
      rw [ofJsonItems, ofJson_toJson item hfirst, ofJsonItems_itemsToJson rest hothers]

/-- The entries read back from their documents are the entries themselves. -/
theorem ofJsonEntries_entriesToJson : (entries : List (String × Value)) →
    {documents : List (String × Json)} → entriesToJson entries = .ok documents →
    ofJsonEntries documents = entries
  | [], _, hdocuments => by
      obtain rfl := Except.ok.inj hdocuments
      rfl
  | (_, value) :: rest, _, hdocuments => by
      obtain ⟨first, hfirst, hdocuments⟩ := exists_of_bind_eq_ok hdocuments
      obtain ⟨others, hothers, hdocuments⟩ := exists_of_bind_eq_ok hdocuments
      obtain rfl := Except.ok.inj hdocuments
      rw [ofJsonEntries, ofJson_toJson value hfirst, ofJsonEntries_entriesToJson rest hothers]

end

end Value

end MetricScript
