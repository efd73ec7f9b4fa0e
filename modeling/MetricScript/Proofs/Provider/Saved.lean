import Mathlib
import MetricScript.Proofs.Json.Documents
import MetricScript.Proofs.Results
import MetricScript.Provider.Saved

/-!
# Saved stores are read back

A store is sound if its names rise and its stored maps are as documents that were read: their
keys rise, their integers have 64 bits and their numbers are finite.  The saved text of a sound
store is read back as that store if all samples are finite and the stored maps nest no deeper
than a reader goes; otherwise it is not read at all.  What is assumed is that the finite numbers
in the store read back one by one.
-/

namespace MetricScript

/-! ## Records and tables of printed documents -/

namespace Json

theorem entries?_form (entries : List (String × Json)) :
    (object entries).form.entries? = some (entries.map fun entry => (entry.1, entry.2.form)) := by
  change (formEntries entries).mapM (fun entry : List StringPart × Source => do
    return ((← stringValue? entry.1), entry.2)) = _
  induction entries with
  | nil => rfl
  | cons entry entries ih =>
    rw [formEntries, List.mapM_cons, ih, stringValue?_printed]
    rfl

theorem parts?_form {names : List String} {entries : List (String × Json)}
    {parts : List (Option Source)}
    (hparts : names.mapM (fun name => Source.sole? name (entries.map fun entry =>
      (entry.1, entry.2.form))) = some parts) :
    (object entries).form.parts? names = some parts := by
  change ((object entries).form.entries? >>= fun entries =>
    names.mapM fun name => Source.sole? name entries) = _
  rw [entries?_form]
  exact hparts

section Parts

variable {α : Type} {read : Source → Option α}

/-- A table that was read comes from the entries of its source, each of them read. -/
theorem table?_eq_some {source : Source} {table : Table α}
    (hread : source.table? read = some table) :
    ∃ entries pairs, source.entries? = some entries ∧ table = Table.ofList pairs ∧
      (∀ entry ∈ entries, ∃ value, read entry.2 = some value) ∧
        ∀ pair ∈ pairs, ∃ entry ∈ entries, read entry.2 = some pair.2 := by
  obtain ⟨entries, hentries, hread⟩ := Option.bind_eq_some_iff.1 hread
  obtain ⟨pairs, hpairs, hread⟩ := Option.bind_eq_some_iff.1 hread
  obtain ⟨hvalues, hsources⟩ := forall_of_mapM hpairs
  refine ⟨entries, pairs, hentries, (Option.some.inj hread).symm, ?_, ?_⟩
  · intro entry hmem
    obtain ⟨pair, hpair⟩ := hvalues entry hmem
    obtain ⟨value, hvalue, _⟩ := Option.bind_eq_some_iff.1 hpair
    exact ⟨value, hvalue⟩
  · intro pair hmem
    obtain ⟨entry, hentry, hpair⟩ := hsources pair hmem
    obtain ⟨value, hvalue, hpair⟩ := Option.bind_eq_some_iff.1 hpair
    obtain rfl := Option.some.inj hpair
    exact ⟨entry, hentry, hvalue⟩

variable {write : α → Json}

/-- A table is read back from the form of an object, value by value. -/
theorem table?_form {entries : Table α}
    (hread : ∀ entry ∈ entries, read (write entry.2).form = some entry.2)
    (hascending : Table.Ascending entries) :
    (object (Table.mapValues write entries)).form.table? read = some entries := by
  have hpairs : (entries.map fun entry => (entry.1, (write entry.2).form)).mapM
      (fun entry : String × Source => do return (entry.1, ← read entry.2)) = some entries := by
    apply mapM_map_of_forall
    intro entry hmem
    rw [hread entry hmem]
    rfl
  rw [Source.table?, entries?_form, Table.mapValues, List.map_map]
  change ((entries.map fun entry => (entry.1, (write entry.2).form)).mapM
    (fun entry : String × Source => do return (entry.1, ← read entry.2)) >>= fun pairs =>
      pure (Table.ofList pairs)) = _
  rw [hpairs]
  exact congrArg some (Table.ofList_of_ascending hascending)

/-- If a table is read from the form of an object, all its values are. -/
theorem exists_of_table?_form {entries other : Table α}
    (hread : (object (Table.mapValues write entries)).form.table? read = some other) :
    ∀ entry ∈ entries, ∃ value, read (write entry.2).form = some value := by
  obtain ⟨sources, pairs, hsources, _, hvalues, _⟩ := table?_eq_some hread
  rw [entries?_form] at hsources
  obtain rfl := Option.some.inj hsources
  intro entry hmem
  exact hvalues _ (List.mem_map_of_mem (List.mem_map_of_mem hmem))

/-- A list is read item by item from the form of an array. -/
theorem list?_form (items : List α) :
    (array (items.map write)).form.list? read =
      (items.map fun item => (write item).form).mapM read := by
  have hform : formItems (items.map write) = items.map fun item => (write item).form := by
    induction items with
    | nil => rfl
    | cons item items ih => exact congrArg _ ih
  rw [form, Source.list?, hform]

end Parts

end Json

open Json

/-! ## The parts of a store -/

/-- A printed 64-bit integer is read back. -/
theorem readInt64?_form (value : Int64) : readInt64? (integer value.toInt).form = some value := by
  have hleast : Int64.minValue.toInt ≤ value.toInt := value.minValue_le_toInt
  have hgreatest : value.toInt ≤ Int64.maxValue.toInt := value.toInt_le
  have hinteger : (integerForm value.toInt).integer? = some value.toInt := by
    apply integer?_integerForm
    · exact hleast
    · have hmax : (maxInteger : Int) = 18446744073709551615 := by decide
      have hvalue : Int64.maxValue.toInt = 9223372036854775807 := by decide
      omega
  have hbounds : (decide (Int64.minValue.toInt ≤ value.toInt) &&
      decide (value.toInt ≤ Int64.maxValue.toInt)) = true := by
    simp only [hleast, hgreatest, decide_true, Bool.and_self]
  rw [readInt64?, form, Source.integer?, hinteger]
  change ((guard _ >>= fun _ => some value.toInt).map Int64.ofInt) = _
  rw [hbounds]
  exact congrArg some value.ofInt_toInt

/-- A sample is read back if its value is. -/
theorem Point.ofSource?_form (point : Point) :
    Point.ofSource? point.toJson.form =
      (numberForm point.value).number?.map fun value => ⟨point.timestamp, value⟩ := by
  have hparts : point.toJson.form.parts? ["timestamp", "value"] =
      some [some (integer point.timestamp.toInt).form, some (number point.value).form] := by
    apply parts?_form
    simp [Source.sole?]
  unfold Point.ofSource?
  rw [hparts]
  change (readInt64? (integer point.timestamp.toInt).form >>= fun timestamp =>
    (numberForm point.value).number? >>= fun value => some (Point.mk timestamp value)) = _
  rw [readInt64?_form]
  cases (numberForm point.value).number? <;> rfl

theorem number?_numberForm {x : Float} (hreads : ReadsBack x) : (numberForm x).number? = some x := by
  obtain ⟨numeral, hform, _, hvalue⟩ := readsBack_numberForm hreads
  rw [hform, Source.number?, hvalue]

namespace Store

/-- The map is as one that was read: its keys rise, and its numbers are of 64 bits or finite. -/
def Storable (entries : Table Json) : Prop :=
  (object entries).Keyed .ascending ∧ (object entries).Numbers InRange fun x => x.isFinite = true

/-- The names of the store rise, and its stored maps are as ones that were read. -/
structure Sound (store : Store) : Prop where
  counters : Table.Ascending store.counters
  series : Table.Ascending store.series
  storage : Table.Ascending store.storage
  stored : ∀ entry ∈ store.storage, Storable entry.2

/-- All samples are finite, and no stored map nests too deep for a reader of the store. -/
structure Savable (store : Store) : Prop where
  samples : ∀ entry ∈ store.series, ∀ point ∈ entry.2, point.value.isFinite = true
  maps : ∀ entry ∈ store.storage, (object entry.2).Nests (depthLimit - 2)

section Exact

variable {store : Store} (hexact : store.toJson.Exact)
include hexact

theorem readsBack_of_exact {entry : String × Series} (hentry : entry ∈ store.series)
    {point : Point} (hpoint : point ∈ entry.2) (hfinite : point.value.isFinite = true) :
    ReadsBack point.value := by
  have hseries := (numbersEntries_iff _).1 hexact.2.1 _ (List.mem_map_of_mem hentry)
  have hsample := (numbersItems_iff _).1 hseries _ (List.mem_map_of_mem hpoint)
  exact hsample.2.1 hfinite

theorem exact_of_mem_storage {entry : String × Table Json} (hentry : entry ∈ store.storage) :
    (object entry.2).Exact :=
  (numbersEntries_iff _).1 hexact.2.2.1 _ (List.mem_map_of_mem hentry)

end Exact

/-- The store is read part by part from the form of its document. -/
theorem ofSource?_form (store : Store) :
    ofSource? store.toJson.form = do
      let counters ← (object (Table.mapValues (fun value : Int64 => .integer value.toInt)
        store.counters)).form.table? readInt64?
      let series ← (object (Table.mapValues (fun points : Series =>
        .array (points.map Point.toJson)) store.series)).form.table?
          (Source.list? Point.ofSource?)
      let storage ← (object (Table.mapValues .object store.storage)).form.table? storedOfSource?
      return ⟨counters, series, storage⟩ := by
  have hparts : store.toJson.form.parts? ["counters", "series", "storage"] =
      some [some (object (Table.mapValues (fun value : Int64 => .integer value.toInt)
          store.counters)).form,
        some (object (Table.mapValues (fun points : Series => .array (points.map Point.toJson))
          store.series)).form,
        some (object (Table.mapValues .object store.storage)).form] := by
    apply parts?_form
    simp [Source.sole?]
  unfold ofSource?
  rw [hparts]
  rfl

/-- A savable store is read back from its own document. -/
theorem ofSource?_form_of_savable {store : Store} (hsound : store.Sound)
    (hexact : store.toJson.Exact) (hsavable : store.Savable) :
    ofSource? store.toJson.form = some store := by
  have hcounters := @table?_form _ readInt64? (fun value : Int64 => .integer value.toInt)
    store.counters (fun entry _ => readInt64?_form entry.2) hsound.counters
  have hseries := @table?_form _ (Source.list? Point.ofSource?)
    (fun points : Series => .array (points.map Point.toJson)) store.series
    (by
      intro entry hentry
      rw [list?_form]
      apply mapM_map_of_forall
      intro point hpoint
      have hfinite := hsavable.samples entry hentry point hpoint
      rw [Point.ofSource?_form, number?_numberForm (readsBack_of_exact hexact hentry hpoint hfinite)]
      rfl)
    hsound.series
  have hstorage := @table?_form _ storedOfSource? .object store.storage
    (by
      intro entry hentry
      obtain ⟨hkeyed, hnumbers⟩ := hsound.stored entry hentry
      rw [storedOfSource?, Json.ofSource?_form _ hkeyed hnumbers
        (exact_of_mem_storage hexact hentry) (hsavable.maps entry hentry)])
    hsound.storage
  rw [ofSource?_form, hcounters, hseries, hstorage]
  rfl

/-- A store whose document can be read back was savable. -/
theorem savable_of_ofSource?_form {store other : Store}
    (hread : ofSource? store.toJson.form = some other) : store.Savable := by
  rw [ofSource?_form] at hread
  obtain ⟨counters, _, hread⟩ := Option.bind_eq_some_iff.1 hread
  obtain ⟨series, hseries, hread⟩ := Option.bind_eq_some_iff.1 hread
  obtain ⟨storage, hstorage, _⟩ := Option.bind_eq_some_iff.1 hread
  refine ⟨?_, ?_⟩
  · intro entry hentry point hpoint
    obtain ⟨points, hpoints⟩ := exists_of_table?_form hseries entry hentry
    rw [list?_form] at hpoints
    obtain ⟨result, hresult⟩ := (forall_of_mapM hpoints).1 _ (List.mem_map_of_mem hpoint)
    by_contra hfinite
    rw [Point.ofSource?_form, numberForm_of_not_isFinite (by simpa using hfinite)] at hresult
    exact nomatch hresult
  · intro entry hentry
    obtain ⟨stored, hstored⟩ := exists_of_table?_form hstorage entry hentry
    unfold storedOfSource? at hstored
    split at hstored
    · next hdocument => exact nests_of_ofSource? _ hdocument
    · exact nomatch hstored

/-- A saved text is not blank. -/
theorem trim_savedText (store : Store) : (Text.trim store.savedText).isEmpty = false := by
  have htext : ∃ rest, store.savedText.toList = '\x7b' :: rest :=
    ⟨_, @toList_bracketed '\x7b' '\x7d' 0 (indentedEntries 1 _) (by simp [indentedEntries])⟩
  obtain ⟨rest, htext⟩ := htext
  have hbrace : Text.isBlank '\x7b' = false := by decide
  apply Bool.eq_false_iff.2
  intro hempty
  have hblank : Text.trimList store.savedText.toList = [] := by
    simpa [Text.trim] using hempty
  rw [htext, Text.trimList, List.dropWhile_cons_of_neg (by simp [hbrace]),
    List.reverse_eq_nil_iff, List.dropWhile_eq_nil_iff] at hblank
  have hfirst := hblank '\x7b' (by simp)
  rw [hbrace] at hfirst
  exact nomatch hfirst

/-- A sound store that is savable is read back from its saved text. -/
theorem readSaved?_savedText {store : Store} (hsound : store.Sound)
    (hexact : store.toJson.Exact) (hsavable : store.Savable) :
    readSaved? store.savedText = some store := by
  rw [readSaved?, trim_savedText, savedText, read?_pretty hexact]
  exact ofSource?_form_of_savable hsound hexact hsavable

/-- The saved text of any other store is refused. -/
theorem readSaved?_savedText_of_not_savable {store : Store} (hexact : store.toJson.Exact)
    (hsavable : ¬store.Savable) : readSaved? store.savedText = none := by
  rw [readSaved?, trim_savedText, savedText, read?_pretty hexact]
  apply Option.eq_none_iff_forall_ne_some.2
  exact fun other hread => hsavable (savable_of_ofSource?_form hread)

end Store

end MetricScript
