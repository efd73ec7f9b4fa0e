import Mathlib
import MetricScript.Run.Calls
import MetricScript.Provider.Memory
import MetricScript.Proofs.Json.Values
import MetricScript.Proofs.Method.Binding
import MetricScript.Proofs.Run.Faithful

/-!
# Stored maps

A map is stored as a document and read back as a value.  The whole map is turned into a document
first, and only if that succeeds the store is changed, and under one key.  As the document stands
for the map, what is read under the key is the map that was stored.
-/

namespace MetricScript

open RunM

variable {σ : Type}

/-! ## Arguments -/

/-- A key and a map are bound in either order. -/
theorem bindArguments_set (key : Value) (entries : Table Value)
    {given : List (Option String × Value)}
    (hgiven : given.Perm [(some "key", key), (some "value", .map entries)]) :
    bindArguments (BoundMethod.ofStorage .set).name (BoundMethod.ofStorage .set).params given =
      .ok ⟨"set", [("key", .string key.text), ("value", .map entries)]⟩ := by
  have hnames : (StorageMethod.set.params.map Param.name).Nodup := by decide
  have hkeys : ([(some "key", key), (some "value", Value.map entries)].filterMap
      Prod.fst).Nodup := by
    change ["key", "value"].Nodup
    decide
  exact bindArguments_perm hnames hkeys hgiven.symm rfl

/-- The key of a map to be read may go unnamed. -/
theorem bindArguments_get (key : Value) {name : Option String}
    (hname : name = none ∨ name = some "key") :
    bindArguments (BoundMethod.ofStorage .get).name (BoundMethod.ofStorage .get).params
        [(name, key)] =
      .ok ⟨"get", [("key", .string key.text)]⟩ := by
  rcases hname with rfl | rfl
  · rfl
  · rfl

/-! ## Calls -/

/-- A call whose arguments can be bound is the body of the method. -/
theorem BoundMethod.call_of_bound {m : Type → Type} [Monad m] [LawfulMonad m]
    {provider : Provider m} {bound : BoundMethod} {given : List (Option String × Value)}
    {arguments : Arguments} (hbound : bindArguments bound.name bound.params given = .ok arguments) :
    bound.call provider given = bound.apply provider arguments := by
  unfold call
  rw [hbound]
  exact pure_bind arguments _

section Calls

variable (outside : Surroundings (StateM σ)) (key : Value) (run : Run) (store : Store) (around : σ)

/-- A map is stored if it has a document. -/
theorem outcome_storageSet (entries : Table Value) {given : List (Option String × Value)}
    (hgiven : given.Perm [(some "key", key), (some "value", .map entries)]) :
    outcome ((BoundMethod.ofStorage .set).call (Store.provider outside) given) run store around =
      match Value.entriesToJson entries with
      | .error fault => (((.error fault, run), store), around)
      | .ok document =>
          (((.ok .null, run.after (.performed (.writeStorage key.text document) (.ok ()))),
            store.writeStored key.text document), around) := by
  let arguments : Arguments := ⟨"set", [("key", .string key.text), ("value", .map entries)]⟩
  rw [BoundMethod.call_of_bound (bindArguments_set key entries hgiven)]
  change outcome (settle (objectOf arguments entries) >>= fun document =>
    perform (Store.provider outside) (quotedCall "storage.set" key.text)
      (.writeStorage key.text document) >>= fun _ => pure Value.null) run store around = _
  rw [objectOf_eq]
  cases Value.entriesToJson entries with
  | error fault => rfl
  | ok document => rfl

theorem outcome_storageGet {name : Option String} (hname : name = none ∨ name = some "key") :
    outcome ((BoundMethod.ofStorage .get).call (Store.provider outside) [(name, key)]) run store
        around =
      (((.ok (.ofJson (.object (store.stored key.text))),
        run.after (.performed (.readStorage key.text) (.ok (store.stored key.text)))), store),
        around) := by
  rw [BoundMethod.call_of_bound (bindArguments_get key hname)]
  rfl

end Calls

theorem Store.stored_writeStored_self (store : Store) (key : String) (document : Table Json) :
    (store.writeStored key document).stored key = document := by
  change (Table.get? key (Table.insert key document store.storage)).getD [] = document
  rw [Table.get?_insert_self]
  rfl

/-- A value has a document if it is made of data with a JSON form, and the document stands for
the value.  So a map that is stored is read back as it was and nothing else is changed, and a
map that cannot be stored leaves the storage as it is. -/
theorem stored_maps_come_back :
    (∀ value : Value, (∃ document, value.toJson = .ok document) ↔ value.Recordable) ∧
    (∀ (value : Value) (document : Json), value.toJson = .ok document →
      Value.ofJson document = value) ∧
    ∀ {σ : Type} (outside : Surroundings (StateM σ)) (key : Value) (entries : Table Value)
      (given : List (Option String × Value)) (run : Run) (store : Store) (around : σ),
      given.Perm [(some "key", key), (some "value", .map entries)] →
      let provider := Store.provider outside
      let ended := outcome ((BoundMethod.ofStorage .set).call provider given) run store around
      ((∃ value, ended.1.1.1 = .ok value) ↔ (Value.map entries).Recordable) ∧
      (∀ value, ended.1.1.1 = .ok value →
        (∀ other, other ≠ key.text →
          Table.get? other ended.1.2.storage = Table.get? other store.storage) ∧
        ∀ (name : Option String) (later : Run) (aroundThen : σ), name = none ∨ name = some "key" →
          (outcome ((BoundMethod.ofStorage .get).call provider [(name, key)]) later ended.1.2
            aroundThen).1.1.1 = .ok (.map entries)) ∧
      ∀ fault, ended.1.1.1 = .error fault → ended.1.2.storage = store.storage := by
  refine ⟨Value.exists_toJson_iff, fun value _ => Value.ofJson_toJson value, ?_⟩
  intro σ outside key entries given run store around hgiven provider ended
  have hended : ended = _ := outcome_storageSet outside key run store around entries hgiven
  have hrecordable : (∃ document, Value.entriesToJson entries = .ok document) ↔
      (Value.map entries).Recordable := by
    rw [Value.recordable_map_iff]
    exact Value.exists_entriesToJson_iff entries
  rw [hended, ← hrecordable]
  cases hdocument : Value.entriesToJson entries with
  | error fault =>
    dsimp only
    refine ⟨?_, (fun _ hvalue => nomatch hvalue), fun _ _ => rfl⟩
    exact iff_of_false (fun ⟨_, hvalue⟩ => nomatch hvalue) (fun ⟨_, hnone⟩ => nomatch hnone)
  | ok document =>
    dsimp only
    refine ⟨iff_of_true ⟨_, rfl⟩ ⟨_, rfl⟩, fun _ _ => ⟨?_, ?_⟩, fun _ herror => nomatch herror⟩
    · exact fun other hne => Table.get?_insert_of_ne hne _ _
    · intro name later aroundThen hname
      rw [outcome_storageGet outside key later _ aroundThen hname]
      change Except.ok (Value.map (Value.ofJsonEntries
        ((store.writeStored key.text document).stored key.text))) = _
      rw [Store.stored_writeStored_self, Value.ofJsonEntries_entriesToJson entries hdocument]

/-- A map is stored beside another one, and the value comes before the key. -/
theorem stored_maps_come_back_limits :
    let provider := Store.provider Scene.surroundings
    let entries : Table Value := [("high", .array [.number 0.5, .null]), ("on", .boolean true)]
    let given : List (Option String × Value) :=
      [(some "value", .map entries), (some "key", .string "limits")]
    let store : Store := { storage := [("names", [("first", .string "a")])] }
    let ended := outcome ((BoundMethod.ofStorage .set).call provider given) {} store { clock := 40 }
    (Value.map entries).Recordable ∧
      Table.get? "names" ended.1.2.storage = Table.get? "names" store.storage ∧
      (outcome ((BoundMethod.ofStorage .get).call provider [(none, .string "limits")]) {}
        ended.1.2 { clock := 50 }).1.1.1 = .ok (.map entries) := by
  intro provider entries given store ended
  obtain ⟨hdocument, _, hstored⟩ := stored_maps_come_back
  have hgiven : given.Perm [(some "key", .string "limits"), (some "value", .map entries)] :=
    List.Perm.swap _ _ []
  have hrecordable : (Value.map entries).Recordable := (hdocument _).1 ⟨_, rfl⟩
  obtain ⟨hsucceeds, hafter, _⟩ :=
    hstored Scene.surroundings (.string "limits") entries given {} store { clock := 40 } hgiven
  obtain ⟨value, hvalue⟩ := hsucceeds.2 hrecordable
  obtain ⟨hothers, hread⟩ := hafter value hvalue
  exact ⟨hrecordable, hothers "names" (by decide), hread none {} { clock := 50 } (.inl rfl)⟩

end MetricScript
