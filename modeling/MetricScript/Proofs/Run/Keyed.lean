import Mathlib
import MetricScript.Proofs.Run.Inherited

/-!
# The keys of maps

The maps of a run are made by inserting entries, so what inserting keeps up holds of the keys
of every map at any depth, also of the maps that bound methods belong to.  A rule for keys is
such a property of lists of keys.  Two rules matter: that the keys rise, and the rule that
allows everything.  Conversions, operators, documents and the methods of plain data keep to
every rule.
-/

namespace MetricScript

/-- What may be said of the keys of a table because inserting keeps it up. -/
structure KeyRule where
  allows : List String → Prop
  allows_nil : allows []
  allows_insert : ∀ {α : Type} (key : String) (value : α) (entries : Table α),
    allows (entries.map Prod.fst) → allows ((Table.insert key value entries).map Prod.fst)

namespace KeyRule

def any : KeyRule := ⟨fun _ => True, trivial, fun _ _ _ _ => trivial⟩

def ascending : KeyRule where
  allows keys := keys.Pairwise (· < ·)
  allows_nil := List.Pairwise.nil
  allows_insert key value _ hkeys :=
    List.pairwise_map.2 (Table.Ascending.insert (List.pairwise_map.1 hkeys) key value)

/-- A table made of pairs has keys that every rule allows. -/
theorem allows_ofList (rule : KeyRule) {α : Type} (pairs : List (String × α)) :
    rule.allows ((Table.ofList pairs).map Prod.fst) := by
  have hfold : ∀ entries : Table α, rule.allows (entries.map Prod.fst) →
      rule.allows ((pairs.foldl (fun entries pair => Table.insert pair.1 pair.2 entries)
        entries).map Prod.fst) := by
    induction pairs with
    | nil => exact fun _ hentries => hentries
    | cons pair rest ih => exact fun entries hentries => ih _ (rule.allows_insert _ _ _ hentries)
  exact hfold [] rule.allows_nil

end KeyRule

variable {rule : KeyRule}

/-! ## Documents -/

namespace Json

mutual

/-- The keys of all objects in the document keep to the rule. -/
def Keyed (rule : KeyRule) : Json → Prop
  | array items => KeyedItems rule items
  | object entries => rule.allows (entries.map Prod.fst) ∧ KeyedEntries rule entries
  | null | boolean _ | integer _ | number _ | string _ => True
termination_by structural document => document

def KeyedItems (rule : KeyRule) : List Json → Prop
  | [] => True
  | item :: rest => item.Keyed rule ∧ KeyedItems rule rest
termination_by structural items => items

def KeyedEntries (rule : KeyRule) : List (String × Json) → Prop
  | [] => True
  | (_, value) :: rest => value.Keyed rule ∧ KeyedEntries rule rest
termination_by structural entries => entries

end

theorem keyedItems_iff (items : List Json) :
    KeyedItems rule items ↔ ∀ item ∈ items, item.Keyed rule := by
  induction items with
  | nil => simp [KeyedItems]
  | cons item items ih => simp [KeyedItems, ih]

theorem keyedEntries_iff (entries : List (String × Json)) :
    KeyedEntries rule entries ↔ ∀ entry ∈ entries, entry.2.Keyed rule := by
  induction entries with
  | nil => simp [KeyedEntries]
  | cons entry entries ih => simp [KeyedEntries, ih]

mutual

/-- Every document keeps to the rule that allows everything. -/
theorem keyed_any : (document : Json) → document.Keyed .any
  | null | boolean _ | integer _ | number _ | string _ => trivial
  | array items => keyedItems_any items
  | object entries => ⟨trivial, keyedEntries_any entries⟩

theorem keyedItems_any : (items : List Json) → KeyedItems .any items
  | [] => trivial
  | item :: rest => ⟨item.keyed_any, keyedItems_any rest⟩

theorem keyedEntries_any : (entries : List (String × Json)) → KeyedEntries .any entries
  | [] => trivial
  | (_, value) :: rest => ⟨value.keyed_any, keyedEntries_any rest⟩

end

/-- Documents are keyed by a rule if their parts are. -/
theorem inherited_keyed : Inherited (Keyed rule) where
  null := trivial
  boolean _ := trivial
  numeral hread := by
    unfold Numeral.toJson? at hread
    split at hread
    · obtain rfl := Option.some.inj hread
      exact trivial
    · obtain ⟨_, _, rfl⟩ := Option.map_eq_some_iff.1 hread
      exact trivial
  string _ := trivial
  array := (keyedItems_iff _).2
  object {pairs} hpairs :=
    ⟨rule.allows_ofList pairs, (keyedEntries_iff _).2 (Table.forall_ofList hpairs)⟩

theorem keyed_ofSource {depth : Nat} (source : Source) {document : Json}
    (hread : ofSource? depth source = some document) : document.Keyed rule :=
  inherited_keyed.ofSource source hread

/-- Documents that are read from a text keep to every rule. -/
theorem keyed_of_read? {text : String} {document : Json} (hread : read? text = some document) :
    document.Keyed rule := by
  obtain ⟨source, _, hsource⟩ := Option.bind_eq_some_iff.1 hread
  exact keyed_ofSource source hsource

end Json

/-! ## Values -/

namespace Value

mutual

/-- The keys of all maps in the value keep to the rule. -/
def Keyed (rule : KeyRule) : Value → Prop
  | array items => KeyedItems rule items
  | map entries => rule.allows (entries.map Prod.fst) ∧ KeyedEntries rule entries
  | handle reference => KeyedHandle rule reference
  | null | boolean _ | number _ | string _ => True
termination_by structural value => value

def KeyedItems (rule : KeyRule) : List Value → Prop
  | [] => True
  | item :: rest => item.Keyed rule ∧ KeyedItems rule rest
termination_by structural items => items

def KeyedEntries (rule : KeyRule) : List (String × Value) → Prop
  | [] => True
  | (_, value) :: rest => value.Keyed rule ∧ KeyedEntries rule rest
termination_by structural entries => entries

def KeyedHandle (rule : KeyRule) : Handle → Prop
  | .method bound => KeyedMethod rule bound
  | .global | .storage | .counter _ | .series _ | .point _ | .aggregate _ => True
termination_by structural reference => reference

def KeyedMethod (rule : KeyRule) : BoundMethod → Prop
  | .ofArray items _ => KeyedItems rule items
  | .ofMap entries _ _ => rule.allows (entries.map Prod.fst) ∧ KeyedEntries rule entries
  | .ofGlobal _ | .ofCounter _ _ | .ofSeries _ _ | .ofStorage _ | .ofString _ _ => True
termination_by structural bound => bound

end

theorem keyedItems_iff (items : List Value) :
    KeyedItems rule items ↔ ∀ item ∈ items, item.Keyed rule := by
  induction items with
  | nil => simp [KeyedItems]
  | cons item items ih => simp [KeyedItems, ih]

theorem keyedEntries_iff (entries : List (String × Value)) :
    KeyedEntries rule entries ↔ ∀ entry ∈ entries, entry.2.Keyed rule := by
  induction entries with
  | nil => simp [KeyedEntries]
  | cons entry entries ih => simp [KeyedEntries, ih]

theorem keyed_map_ofList {pairs : List (String × Value)}
    (hpairs : ∀ pair ∈ pairs, pair.2.Keyed rule) : (map (Table.ofList pairs)).Keyed rule :=
  ⟨rule.allows_ofList pairs, (keyedEntries_iff _).2 (Table.forall_ofList hpairs)⟩

theorem keyed_map_insert {entries : Table Value} (hentries : (map entries).Keyed rule)
    (key : String) {value : Value} (hvalue : value.Keyed rule) :
    (map (Table.insert key value entries)).Keyed rule := by
  refine ⟨rule.allows_insert key value entries hentries.1, (keyedEntries_iff _).2 ?_⟩
  exact Table.forall_insert ((keyedEntries_iff entries).1 hentries.2) key hvalue

/-- A value found in a keyed map is keyed. -/
theorem Keyed.entry {entries : Table Value} (hentries : (map entries).Keyed rule) {key : String}
    {value : Value} (hget : Table.get? key entries = some value) : value.Keyed rule :=
  (keyedEntries_iff entries).1 hentries.2 _ (Table.mem_of_get? hget)

mutual

/-- Every value keeps to the rule that allows everything. -/
theorem keyed_any : (value : Value) → value.Keyed .any
  | null | boolean _ | number _ | string _ => trivial
  | array items => keyedItems_any items
  | map entries => ⟨trivial, keyedEntries_any entries⟩
  | handle reference => keyedHandle_any reference

theorem keyedItems_any : (items : List Value) → KeyedItems .any items
  | [] => trivial
  | item :: rest => ⟨item.keyed_any, keyedItems_any rest⟩

theorem keyedEntries_any : (entries : List (String × Value)) → KeyedEntries .any entries
  | [] => trivial
  | (_, value) :: rest => ⟨value.keyed_any, keyedEntries_any rest⟩

theorem keyedHandle_any : (reference : Handle) → KeyedHandle .any reference
  | .method bound => keyedMethod_any bound
  | .global | .storage | .counter _ | .series _ | .point _ | .aggregate _ => trivial

theorem keyedMethod_any : (bound : BoundMethod) → KeyedMethod .any bound
  | .ofArray items _ => keyedItems_any items
  | .ofMap entries _ _ => ⟨trivial, keyedEntries_any entries⟩
  | .ofGlobal _ | .ofCounter _ _ | .ofSeries _ _ | .ofStorage _ | .ofString _ _ => trivial

end

/-! ## Documents and values -/

theorem keys_ofJsonEntries (entries : List (String × Json)) :
    (ofJsonEntries entries).map Prod.fst = entries.map Prod.fst := by
  induction entries with
  | nil => rfl
  | cons entry rest ih => exact congrArg (entry.1 :: ·) ih

mutual

/-- The value of a keyed document is keyed. -/
theorem keyed_ofJson : (document : Json) → document.Keyed rule → (ofJson document).Keyed rule
  | .null, _ | .boolean _, _ | .integer _, _ | .number _, _ | .string _, _ => trivial
  | .array items, hkeyed => keyedItems_ofJson items hkeyed
  | .object entries, hkeyed => by
    refine ⟨?_, keyedEntries_ofJson entries hkeyed.2⟩
    rw [keys_ofJsonEntries]
    exact hkeyed.1

theorem keyedItems_ofJson : (items : List Json) → Json.KeyedItems rule items →
    KeyedItems rule (ofJsonItems items)
  | [], _ => trivial
  | item :: rest, hkeyed => ⟨keyed_ofJson item hkeyed.1, keyedItems_ofJson rest hkeyed.2⟩

theorem keyedEntries_ofJson : (entries : List (String × Json)) →
    Json.KeyedEntries rule entries → KeyedEntries rule (ofJsonEntries entries)
  | [], _ => trivial
  | (_, value) :: rest, hkeyed =>
    ⟨keyed_ofJson value hkeyed.1, keyedEntries_ofJson rest hkeyed.2⟩

end

end Value

/-! ## Results -/

def GivesKeyed (rule : KeyRule) (result : Except Fault Value) : Prop :=
  ∀ value, result = .ok value → value.Keyed rule

theorem Value.inherited_keyed : Value.Inherited (Value.Keyed rule) where
  boolean _ := trivial
  number _ := trivial
  string _ := trivial
  array_iff := Value.keyedItems_iff _

theorem givesKeyed_operator (operator : BinaryOperator) (left right : Value) :
    GivesKeyed rule (operator.apply left right) :=
  Value.inherited_keyed.operator operator left right

theorem givesKeyed_unary (operator : UnaryOperator) (operand : Value) :
    GivesKeyed rule (operator.apply operand) :=
  Value.inherited_keyed.unary operator operand

theorem keyed_literal (literal : Literal) : literal.value.Keyed rule := by
  cases literal with
  | null | boolean | number | string => exact trivial

/-! ## Arguments -/

def Table.Keyed (rule : KeyRule) (entries : Table Value) : Prop :=
  ∀ entry ∈ entries, entry.2.Keyed rule

theorem keyed_bindArguments {function : String} {params : List Param}
    {given : List (Option String × Value)} (hgiven : ∀ argument ∈ given, argument.2.Keyed rule)
    {arguments : Arguments} (hbound : bindArguments function params given = .ok arguments) :
    Table.Keyed rule arguments.values :=
  Value.inherited_keyed.bindArguments hgiven hbound

theorem keyed_of_argument {arguments : Arguments} (hkeyed : Table.Keyed rule arguments.values)
    {name : String} {value : Value} (hget : arguments.get? name = some value) :
    value.Keyed rule :=
  hkeyed _ (Table.mem_of_get? hget)

theorem givesKeyed_argument {arguments : Arguments} (hkeyed : Table.Keyed rule arguments.values)
    (name : String) : GivesKeyed rule (arguments.value name) :=
  givesOnly_argument hkeyed name

/-- A map given as an argument is keyed by the rule of the arguments. -/
theorem keyed_of_map_argument {arguments : Arguments}
    (hkeyed : Table.Keyed rule arguments.values) {name : String} {entries : Table Value}
    (hmap : arguments.map name = .ok entries) : (Value.map entries).Keyed rule := by
  unfold Arguments.map Arguments.map? at hmap
  split at hmap
  · next found hfound =>
    obtain rfl := Except.ok.inj hmap
    split at hfound
    · next entries' hget =>
      obtain rfl := Option.some.inj hfound
      exact keyed_of_argument hkeyed hget
    · exact nomatch hfound
  · exact nomatch hmap

/-! ## Methods of plain data and properties -/

theorem givesKeyed_string (method : StringMethod) (text : String) (arguments : Arguments) :
    GivesKeyed rule (method.apply text arguments) :=
  Value.inherited_keyed.stringMethod method text arguments

theorem givesKeyed_array (method : ArrayMethod) {items : List Value}
    (hitems : (Value.array items).Keyed rule) (arguments : Arguments) :
    GivesKeyed rule (method.apply items arguments) :=
  Value.inherited_keyed.arrayMethod method (Value.inherited_keyed.array_iff.1 hitems) arguments

theorem keyed_pointValues (points : List Point) : (pointValues points).Keyed rule :=
  Value.inherited_keyed.pointValues points

theorem keyed_boundMethod {value : Value} (hvalue : value.Keyed rule) {name : String}
    {origin : Option String} {bound : BoundMethod}
    (hbound : boundMethod? value name origin = some bound) : Value.KeyedMethod rule bound := by
  unfold boundMethod? at hbound
  split at hbound
  case h_8 => exact nomatch hbound
  all_goals obtain ⟨method, _, rfl⟩ := Option.map_eq_some_iff.1 hbound
  case h_6 => exact hvalue
  case h_7 => exact hvalue
  all_goals exact trivial

theorem givesKeyed_property {value : Value} (hvalue : value.Keyed rule) (name : String)
    (origin : Option String) : GivesKeyed rule (value.property name origin) := by
  intro result hresult
  unfold Value.property at hresult
  dsimp only at hresult
  split at hresult
  · next found hfound =>
    obtain rfl := Except.ok.inj hresult
    split at hfound
    · exact Value.inherited_keyed.pointProperty hfound
    · exact Value.inherited_keyed.pointsProperty hfound
    · obtain ⟨bound, hbound, rfl⟩ := Option.map_eq_some_iff.1 hfound
      exact keyed_boundMethod hvalue hbound
  · exact nomatch hresult

end MetricScript
