import Mathlib
import MetricScript.Proofs.Json.Values
import MetricScript.Proofs.Provider.Refinement
import MetricScript.Proofs.Provider.Saved
import MetricScript.Proofs.Results
import MetricScript.Proofs.Run.ProviderFailure

/-!
# Stores stay sound

A store that was read from a text is sound, and so is the empty store.  Every operation that a
run asks for keeps a store sound: names are inserted in their order, and what is stored under a
key is the document of a map, which has finite numbers only.  So a run leads from sound stores
to sound stores, if the maps that come from outside have rising keys.
-/

namespace MetricScript

open Json

/-! ## Documents of values -/

namespace Value

variable {rule : KeyRule}

/-- Documents keep the keys of the values they come from. -/
theorem keys_entriesToJson {entries : List (String × Value)} {documents : List (String × Json)}
    (hdocuments : entriesToJson entries = .ok documents) :
    documents.map Prod.fst = entries.map Prod.fst := by
  induction entries generalizing documents with
  | nil =>
    obtain rfl := Except.ok.inj hdocuments
    rfl
  | cons entry rest ih =>
    obtain ⟨first, _, hdocuments⟩ := exists_of_bind_eq_ok hdocuments
    obtain ⟨others, hothers, hdocuments⟩ := exists_of_bind_eq_ok hdocuments
    obtain rfl := Except.ok.inj hdocuments
    exact congrArg (entry.1 :: ·) (ih hothers)

mutual

/-- The document of a value has the keys of the value. -/
theorem keyed_toJson : (value : Value) → {document : Json} → value.toJson = .ok document →
    value.Keyed rule → document.Keyed rule
  | .null, _, hdocument, _ | .boolean _, _, hdocument, _ | .string _, _, hdocument, _ => by
    obtain rfl := Except.ok.inj hdocument
    exact trivial
  | .number x, _, hdocument, _ => by
    unfold toJson at hdocument
    split at hdocument
    · obtain rfl := Except.ok.inj hdocument
      exact trivial
    · exact nomatch hdocument
  | .array items, _, hdocument, hkeyed => by
    obtain ⟨documents, hdocuments, rfl⟩ := exists_of_map_eq_ok hdocument
    exact keyed_itemsToJson items hdocuments hkeyed
  | .map entries, _, hdocument, hkeyed => by
    obtain ⟨documents, hdocuments, rfl⟩ := exists_of_map_eq_ok hdocument
    refine ⟨?_, keyed_entriesToJson entries hdocuments hkeyed.2⟩
    rw [keys_entriesToJson hdocuments]
    exact hkeyed.1
  | .handle _, _, hdocument, _ => nomatch hdocument

theorem keyed_itemsToJson : (items : List Value) → {documents : List Json} →
    itemsToJson items = .ok documents → KeyedItems rule items → Json.KeyedItems rule documents
  | [], _, hdocuments, _ => by
    obtain rfl := Except.ok.inj hdocuments
    exact trivial
  | item :: rest, _, hdocuments, hkeyed => by
    obtain ⟨first, hfirst, hdocuments⟩ := exists_of_bind_eq_ok hdocuments
    obtain ⟨others, hothers, hdocuments⟩ := exists_of_bind_eq_ok hdocuments
    obtain rfl := Except.ok.inj hdocuments
    exact ⟨keyed_toJson item hfirst hkeyed.1, keyed_itemsToJson rest hothers hkeyed.2⟩

theorem keyed_entriesToJson : (entries : List (String × Value)) →
    {documents : List (String × Json)} → entriesToJson entries = .ok documents →
    KeyedEntries rule entries → Json.KeyedEntries rule documents
  | [], _, hdocuments, _ => by
    obtain rfl := Except.ok.inj hdocuments
    exact trivial
  | (_, value) :: rest, _, hdocuments, hkeyed => by
    obtain ⟨first, hfirst, hdocuments⟩ := exists_of_bind_eq_ok hdocuments
    obtain ⟨others, hothers, hdocuments⟩ := exists_of_bind_eq_ok hdocuments
    obtain rfl := Except.ok.inj hdocuments
    exact ⟨keyed_toJson value hfirst hkeyed.1, keyed_entriesToJson rest hothers hkeyed.2⟩

end

variable {whole : Int → Prop} {real : Float → Prop}

mutual

/-- What holds of all finite numbers in a value holds of the numbers in its document, which are
finite and never integers. -/
theorem numbers_toJson : (value : Value) → {document : Json} → value.toJson = .ok document →
    (∀ x, value.Contains (.number x) → x.isFinite = true → real x) → document.Numbers whole real
  | .null, _, hdocument, _ | .boolean _, _, hdocument, _ | .string _, _, hdocument, _ => by
    obtain rfl := Except.ok.inj hdocument
    exact trivial
  | .number x, _, hdocument, hnumbers => by
    unfold toJson at hdocument
    split at hdocument
    · next hfinite =>
      obtain rfl := Except.ok.inj hdocument
      exact hnumbers x (.whole _) hfinite
    · exact nomatch hdocument
  | .array items, _, hdocument, hnumbers => by
    obtain ⟨documents, hdocuments, rfl⟩ := exists_of_map_eq_ok hdocument
    exact numbers_itemsToJson items hdocuments
      fun _ hmem x hpart => hnumbers x (.item hmem hpart)
  | .map entries, _, hdocument, hnumbers => by
    obtain ⟨documents, hdocuments, rfl⟩ := exists_of_map_eq_ok hdocument
    exact numbers_entriesToJson entries hdocuments
      fun _ hmem x hpart => hnumbers x (.entry hmem hpart)
  | .handle _, _, hdocument, _ => nomatch hdocument

/-- The numbers in the documents of a list are numbers of its items. -/
theorem numbers_itemsToJson : (items : List Value) → {documents : List Json} →
    itemsToJson items = .ok documents →
    (∀ item ∈ items, ∀ x, item.Contains (.number x) → x.isFinite = true → real x) →
    NumbersItems whole real documents
  | [], _, hdocuments, _ => by
    obtain rfl := Except.ok.inj hdocuments
    exact trivial
  | item :: rest, _, hdocuments, hnumbers => by
    obtain ⟨first, hfirst, hdocuments⟩ := exists_of_bind_eq_ok hdocuments
    obtain ⟨others, hothers, hdocuments⟩ := exists_of_bind_eq_ok hdocuments
    obtain rfl := Except.ok.inj hdocuments
    obtain ⟨hitem, hrest⟩ := List.forall_mem_cons.1 hnumbers
    exact ⟨numbers_toJson item hfirst hitem, numbers_itemsToJson rest hothers hrest⟩

/-- The numbers in the documents of a table are numbers of its values. -/
theorem numbers_entriesToJson : (entries : List (String × Value)) →
    {documents : List (String × Json)} → entriesToJson entries = .ok documents →
    (∀ entry ∈ entries, ∀ x, entry.2.Contains (.number x) → x.isFinite = true → real x) →
    NumbersEntries whole real documents
  | [], _, hdocuments, _ => by
    obtain rfl := Except.ok.inj hdocuments
    exact trivial
  | (_, value) :: rest, _, hdocuments, hnumbers => by
    obtain ⟨first, hfirst, hdocuments⟩ := exists_of_bind_eq_ok hdocuments
    obtain ⟨others, hothers, hdocuments⟩ := exists_of_bind_eq_ok hdocuments
    obtain rfl := Except.ok.inj hdocuments
    obtain ⟨hvalue, hrest⟩ := List.forall_mem_cons.1 hnumbers
    exact ⟨numbers_toJson value hfirst hvalue, numbers_entriesToJson rest hothers hrest⟩

end

end Value

namespace Store

/-! ## Stores that are read -/

theorem ascending_of_partOfSource? {α : Type} {read : Source → Option α} {part : Option Source}
    {table : Table α} (hread : partOfSource? read part = some table) : Table.Ascending table := by
  cases part with
  | none =>
    obtain rfl := Option.some.inj hread
    exact List.Pairwise.nil
  | some source =>
    obtain ⟨_, pairs, _, rfl, _⟩ := table?_eq_some hread
    exact Table.ascending_ofList pairs

/-- What holds of every value read holds throughout the table read. -/
theorem forall_of_partOfSource? {α : Type} {read : Source → Option α} {holds : α → Prop}
    (hholds : ∀ source value, read source = some value → holds value) {part : Option Source}
    {table : Table α} (hread : partOfSource? read part = some table) :
    ∀ entry ∈ table, holds entry.2 := by
  cases part with
  | none =>
    obtain rfl := Option.some.inj hread
    exact List.forall_mem_nil _
  | some source =>
    obtain ⟨entries, pairs, _, rfl, _, hpairs⟩ := table?_eq_some hread
    apply Table.forall_ofList
    intro pair hmem
    obtain ⟨entry, _, hvalue⟩ := hpairs pair hmem
    exact hholds entry.2 pair.2 hvalue

theorem sound_empty : ({} : Store).Sound :=
  ⟨List.Pairwise.nil, List.Pairwise.nil, List.Pairwise.nil, List.forall_mem_nil _⟩

theorem storable_of_source? (source : Source) (stored : Table Json)
    (hread : storedOfSource? source = some stored) : Storable stored := by
  unfold storedOfSource? at hread
  split at hread
  · next hdocument =>
    obtain rfl := Option.some.inj hread
    exact ⟨keyed_ofSource source hdocument, numbers_ofSource source hdocument⟩
  · exact nomatch hread

/-- A store read from a file is sound. -/
theorem sound_ofSource? {source : Source} {store : Store} (hread : ofSource? source = some store) :
    store.Sound := by
  obtain ⟨parts, _, hread⟩ := Option.bind_eq_some_iff.1 hread
  split at hread
  · next counters series storage =>
    obtain ⟨countersTable, hcounters, hread⟩ := Option.bind_eq_some_iff.1 hread
    obtain ⟨seriesTable, hseries, hread⟩ := Option.bind_eq_some_iff.1 hread
    obtain ⟨storageTable, hstorage, hread⟩ := Option.bind_eq_some_iff.1 hread
    obtain rfl := Option.some.inj hread
    exact ⟨ascending_of_partOfSource? hcounters, ascending_of_partOfSource? hseries,
      ascending_of_partOfSource? hstorage, forall_of_partOfSource? storable_of_source? hstorage⟩
  · exact nomatch hread

/-- A store that is read from a text is sound. -/
theorem sound_of_readSaved? {text : String} {store : Store} (hread : readSaved? text = some store) :
    store.Sound := by
  unfold readSaved? at hread
  split at hread
  · obtain rfl := Option.some.inj hread
    exact sound_empty
  · obtain ⟨source, _, hsource⟩ := Option.bind_eq_some_iff.1 hread
    exact sound_ofSource? hsource

/-! ## Steps and runs -/

section Steps

variable {σ : Type}

/-- Around a store that is kept up, a property of the surroundings is kept up as well, and the
maps in responses have rising keys. -/
structure Orderly (outside : Surroundings (StateM σ)) (keeps : σ → Prop) : Prop where
  now : ∀ around, keeps around → keeps (outside.now around).2
  readFile : ∀ path around, keeps around → keeps (outside.readFile path around).2
  send : ∀ request around, keeps around → keeps (outside.send request around).2 ∧
    ∀ response, (outside.send request around).1 = .ok response →
      Operation.Answered .ascending (.http request) response

/-- Storing the document of a well-keyed table keeps a store sound. -/
theorem Sound.insert_storage {store : Store} (hsound : store.Sound) (key : String)
    {entries : Table Value} {document : Table Json} (hentries : (Value.map entries).Keyed .ascending)
    (hdocument : Value.entriesToJson entries = .ok document) :
    (store.writeStored key document).Sound where
  counters := hsound.counters
  series := hsound.series
  storage := hsound.storage.insert key document
  stored := by
    have htoJson : (Value.map entries).toJson = .ok (.object document) := by
      change (Value.entriesToJson entries).map Json.object = _
      rw [hdocument]
      rfl
    apply Table.forall_insert hsound.stored key
    exact ⟨Value.keyed_toJson _ htoJson hentries,
      Value.numbers_toJson _ htoJson fun _ _ hfinite => hfinite⟩

theorem answered_stored {store : Store} (hsound : store.Sound) (key : String) :
    (object (store.stored key)).Keyed .ascending := by
  unfold stored
  cases hget : Table.get? key store.storage with
  | none => exact ⟨List.Pairwise.nil, trivial⟩
  | some document => exact (hsound.stored _ (Table.mem_of_get? hget)).1

variable {outside : Surroundings (StateM σ)} {keeps : σ → Prop}

/-- An operation that a run asks for keeps the store sound, and the answer keeps to the terms. -/
theorem sound_stepped (houtside : Orderly outside keeps) {state : Store × σ}
    (hsound : state.1.Sound) (hkeeps : keeps state.2) {operation : Operation}
    (hasked : operation.Asked .ascending) :
    KeyRule.ascending.terms.Admits operation (replied outside state operation) ∧
      (stepped outside state operation).1.Sound ∧ keeps (stepped outside state operation).2 := by
  obtain ⟨store, around⟩ := state
  cases operation with
  | counterValue | seriesLast | seriesItems => exact ⟨fun _ _ => trivial, hsound, hkeeps⟩
  | seriesAggregate | seriesCompute =>
    exact ⟨fun _ _ => trivial, hsound, houtside.now around hkeeps⟩
  | setCounter name value =>
    exact ⟨fun _ _ => trivial, { hsound with counters := hsound.counters.insert name value }, hkeeps⟩
  | incrementCounter name delta =>
    exact ⟨fun _ _ => trivial, { hsound with counters := hsound.counters.insert name _ }, hkeeps⟩
  | seriesPush name point =>
    exact ⟨fun _ _ => trivial, { hsound with series := hsound.series.insert name _ }, hkeeps⟩
  | seriesPop name | seriesTrim name _ =>
    exact ⟨fun _ _ => trivial, { hsound with series := hsound.series.modify name _ }, hkeeps⟩
  | readStorage key =>
    refine ⟨fun answer hanswer => ?_, hsound, hkeeps⟩
    obtain rfl := Except.ok.inj hanswer
    exact answered_stored hsound key
  | writeStorage key document =>
    obtain ⟨entries, hentries, hdocument⟩ := hasked
    exact ⟨fun _ _ => trivial, hsound.insert_storage key hentries hdocument, hkeeps⟩
  | http request =>
    obtain ⟨hafter, hanswer⟩ := houtside.send request around hkeeps
    exact ⟨hanswer, hsound, hafter⟩
  | fileText path => exact ⟨fun _ _ => trivial, hsound, houtside.readFile path around hkeeps⟩

/-- A run on a sound store leaves a sound store, if the maps that it starts from have rising
keys. -/
theorem sound_run (houtside : Orderly outside keeps) (script : Script) (passes : Nat)
    {arguments : Table Value} (harguments : Table.Keyed .ascending arguments) {store : Store}
    (hsound : store.Sound) {around : σ} (hkeeps : keeps around) :
    let ran := script.run (provider outside) passes arguments store around
    ran.1.2.Sound ∧ keeps ran.2 := by
  intro ran
  have hstart : ({ arguments } : Run).Keyed .ascending := ⟨harguments, List.forall_mem_nil _⟩
  have hrun : ran = (script.run .asking passes arguments).answer (provider outside) store around :=
    congrFun (congrFun (script.run_eq_answer (provider outside) passes arguments) store) around
  rw [hrun]
  let both : Store → σ → Prop := fun store around => store.Sound ∧ keeps around
  have hboth : both store around := ⟨hsound, hkeeps⟩
  refine (script.heeds_run passes hstart).keeps_answer ?_ ?_ hboth
  · exact fun store around ⟨hsound, hkeeps⟩ => ⟨hsound, houtside.now around hkeeps⟩
  · intro operation hasked store around ⟨hsound, hkeeps⟩
    exact @sound_stepped _ outside keeps houtside (store, around) hsound hkeeps operation hasked

end Steps

end Store

end MetricScript
