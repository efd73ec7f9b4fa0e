import Mathlib
import MetricScript.Proofs.Run.Inherited

/-!
# Plain data

Plain data has no handle in it at any depth.  A value of a run is tidy if it is plain data
or a handle by itself; the receiver that a bound method keeps is plain data then.  Tidiness
is what evaluation keeps up: conversions, operators and the methods of plain data give plain
data, and JSON documents stand for plain data.
-/

namespace MetricScript

namespace Value

mutual

/-- The value has no handle in it. -/
def Plain : Value → Prop
  | array items => PlainItems items
  | map entries => PlainEntries entries
  | handle _ => False
  | null | boolean _ | number _ | string _ => True
termination_by structural value => value

def PlainItems : List Value → Prop
  | [] => True
  | item :: rest => item.Plain ∧ PlainItems rest
termination_by structural items => items

def PlainEntries : List (String × Value) → Prop
  | [] => True
  | (_, value) :: rest => value.Plain ∧ PlainEntries rest
termination_by structural entries => entries

end

theorem plainItems_iff (items : List Value) : PlainItems items ↔ ∀ item ∈ items, item.Plain := by
  induction items with
  | nil => simp [PlainItems]
  | cons item items ih => simp [PlainItems, ih]

/-- A list of entries is plain exactly if each value is. -/
theorem plainEntries_iff (entries : List (String × Value)) :
    PlainEntries entries ↔ ∀ entry ∈ entries, entry.2.Plain := by
  induction entries with
  | nil => simp [PlainEntries]
  | cons entry entries ih => simp [PlainEntries, ih]

theorem plain_array {items : List Value} (hitems : ∀ item ∈ items, item.Plain) :
    (array items).Plain :=
  (plainItems_iff items).2 hitems

theorem plain_map {entries : Table Value} (hentries : ∀ entry ∈ entries, entry.2.Plain) :
    (map entries).Plain :=
  (plainEntries_iff entries).2 hentries

theorem Plain.items {items : List Value} (hplain : (array items).Plain) :
    ∀ item ∈ items, item.Plain :=
  (plainItems_iff items).1 hplain

theorem Plain.entries {entries : Table Value} (hplain : (map entries).Plain) :
    ∀ entry ∈ entries, entry.2.Plain :=
  (plainEntries_iff entries).1 hplain

end Value

/-- The receiver of a method is plain data. -/
def BoundMethod.Tidy : BoundMethod → Prop
  | .ofArray items _ => ∀ item ∈ items, item.Plain
  | .ofMap entries _ _ => ∀ entry ∈ entries, entry.2.Plain
  | _ => True

/-- What a method keeps is plain data; other handles keep nothing. -/
def Handle.Tidy : Handle → Prop
  | .method bound => bound.Tidy
  | _ => True

/-- The value is plain data or a tidy handle by itself. -/
def Value.Tidy : Value → Prop
  | .handle reference => reference.Tidy
  | value => value.Plain

theorem Value.Plain.tidy {value : Value} (hplain : value.Plain) : value.Tidy := by
  cases value with
  | handle => exact hplain.elim
  | null | boolean | number | string | array | map => exact hplain

def Table.Plain (entries : Table Value) : Prop := ∀ entry ∈ entries, entry.2.Plain

def Table.Tidy (entries : Table Value) : Prop := ∀ entry ∈ entries, entry.2.Tidy

/-! ## Documents -/

namespace Value

mutual

/-- The value of a document is plain data. -/
theorem plain_ofJson : (document : Json) → (ofJson document).Plain
  | .null | .boolean _ | .integer _ | .number _ | .string _ => trivial
  | .array items => plainItems_ofJson items
  | .object entries => plainEntries_ofJson entries

theorem plainItems_ofJson : (items : List Json) → PlainItems (ofJsonItems items)
  | [] => trivial
  | item :: rest => ⟨plain_ofJson item, plainItems_ofJson rest⟩

theorem plainEntries_ofJson : (entries : List (String × Json)) →
    PlainEntries (ofJsonEntries entries)
  | [] => trivial
  | (_, value) :: rest => ⟨plain_ofJson value, plainEntries_ofJson rest⟩

end

end Value

/-! ## Conversions and operators -/

theorem Value.inherited_plain : Value.Inherited Value.Plain where
  boolean _ := trivial
  number _ := trivial
  string _ := trivial
  array_iff := Value.plainItems_iff _

def GivesPlain (result : Except Fault Value) : Prop := ∀ value, result = .ok value → value.Plain

theorem givesPlain_operator (operator : BinaryOperator) (left right : Value) :
    GivesPlain (operator.apply left right) :=
  Value.inherited_plain.operator operator left right

theorem givesPlain_unary (operator : UnaryOperator) (operand : Value) :
    GivesPlain (operator.apply operand) :=
  Value.inherited_plain.unary operator operand

/-! ## Arguments -/

/-- Plain data that is given to a call arrives as plain data. -/
theorem plain_bindArguments {function : String} {params : List Param}
    {given : List (Option String × Value)} (hgiven : ∀ argument ∈ given, argument.2.Plain)
    {arguments : Arguments} (hbound : bindArguments function params given = .ok arguments) :
    Table.Plain arguments.values :=
  Value.inherited_plain.bindArguments hgiven hbound

theorem plain_of_argument {arguments : Arguments} (hplain : Table.Plain arguments.values)
    {name : String} {value : Value} (hget : arguments.get? name = some value) : value.Plain :=
  hplain _ (Table.mem_of_get? hget)

theorem givesPlain_argument {arguments : Arguments} (hplain : Table.Plain arguments.values)
    (name : String) : GivesPlain (arguments.value name) :=
  givesOnly_argument hplain name

theorem plain_map_argument {arguments : Arguments} (hplain : Table.Plain arguments.values)
    {name : String} {entries : Table Value} (hmap : arguments.map? name = some entries) :
    Table.Plain entries := by
  unfold Arguments.map? at hmap
  split at hmap
  · next entries' hget =>
    obtain rfl := Option.some.inj hmap
    exact (plain_of_argument hplain hget).entries
  · exact nomatch hmap

/-- A map given as an argument is plain if the arguments are. -/
theorem plain_of_map_argument {arguments : Arguments} (hplain : Table.Plain arguments.values)
    {name : String} {entries : Table Value} (hmap : arguments.map name = .ok entries) :
    Table.Plain entries := by
  unfold Arguments.map at hmap
  split at hmap
  · next found hfound =>
    obtain rfl := Except.ok.inj hmap
    exact plain_map_argument hplain hfound
  · exact nomatch hmap

/-! ## Methods of plain data and properties -/

theorem givesPlain_string (method : StringMethod) (text : String) (arguments : Arguments) :
    GivesPlain (method.apply text arguments) :=
  Value.inherited_plain.stringMethod method text arguments

theorem givesPlain_array (method : ArrayMethod) {items : List Value}
    (hitems : ∀ item ∈ items, item.Plain) (arguments : Arguments) :
    GivesPlain (method.apply items arguments) :=
  Value.inherited_plain.arrayMethod method hitems arguments

/-- A method that a tidy value has keeps plain data at most. -/
theorem tidy_boundMethod {value : Value} (hvalue : value.Tidy) {name : String}
    {origin : Option String} {bound : BoundMethod}
    (hbound : boundMethod? value name origin = some bound) : bound.Tidy := by
  unfold boundMethod? at hbound
  split at hbound
  case h_8 => exact nomatch hbound
  all_goals obtain ⟨method, _, rfl⟩ := Option.map_eq_some_iff.1 hbound
  case h_6 => exact Value.Plain.items hvalue
  case h_7 => exact Value.Plain.entries hvalue
  all_goals exact trivial

theorem plain_of_pointProperty {point : Point} {name : String} {value : Value}
    (hvalue : point.property? name = some value) : value.Plain :=
  Value.inherited_plain.pointProperty hvalue

theorem plain_pointValues (points : List Point) : (pointValues points).Plain :=
  Value.inherited_plain.pointValues points

theorem plain_of_pointsProperty {points : List Point} {name : String} {value : Value}
    (hvalue : pointsProperty? points name = some value) : value.Plain :=
  Value.inherited_plain.pointsProperty hvalue

/-- The properties of a tidy value are tidy. -/
theorem tidy_of_property {value result : Value} (hvalue : value.Tidy) {name : String}
    {origin : Option String} (hresult : value.property name origin = .ok result) :
    result.Tidy := by
  unfold Value.property at hresult
  dsimp only at hresult
  split at hresult
  · next found hfound =>
    obtain rfl := Except.ok.inj hresult
    split at hfound
    · exact (plain_of_pointProperty hfound).tidy
    · exact (plain_of_pointsProperty hfound).tidy
    · obtain ⟨bound, hbound, rfl⟩ := Option.map_eq_some_iff.1 hfound
      exact tidy_boundMethod hvalue hbound
  · exact nomatch hresult

/-! ## Faults that are not about handles

Plain data can be unfit for a document or for a request, but never because a handle in it
stands for no data. -/

/-- The fault is not that a handle stands for no data. -/
def Fault.SparesHandles (fault : Fault) : Prop := ∀ text, fault ≠ .notEvaluable text

theorem Fault.sparesHandles_missing (arguments : Arguments) (name : String) :
    (arguments.missing name).SparesHandles := by
  rintro text ⟨⟩

theorem Fault.sparesHandles_invalid (arguments : Arguments) (name reason : String) :
    (arguments.invalid name reason).SparesHandles := by
  rintro text ⟨⟩

/-- If there is no result, then not because of a handle. -/
def SparesHandles {α : Type} (result : Except Fault α) : Prop :=
  ∀ fault, result = .error fault → fault.SparesHandles

section Spares

variable {α β : Type}

theorem sparesHandles_ok (value : α) : SparesHandles (.ok value) :=
  fun _ hresult => nomatch hresult

theorem sparesHandles_error {fault : Fault} (hfault : fault.SparesHandles) :
    SparesHandles (.error fault : Except Fault α) := by
  intro other hother
  obtain rfl := Except.error.inj hother
  exact hfault

theorem sparesHandles_bind {first : Except Fault α} {continuation : α → Except Fault β}
    (hfirst : SparesHandles first)
    (hcontinuation : ∀ value, first = .ok value → SparesHandles (continuation value)) :
    SparesHandles (first >>= continuation) := by
  cases first with
  | error fault => exact sparesHandles_error (hfirst fault rfl)
  | ok value => exact hcontinuation value rfl

theorem sparesHandles_map {first : Except Fault α} (hfirst : SparesHandles first)
    (change : α → β) : SparesHandles (first.map change) := by
  cases first with
  | error fault => exact sparesHandles_error (hfirst fault rfl)
  | ok value => exact sparesHandles_ok (change value)

end Spares

namespace Value

mutual

theorem sparesHandles_toJson : (value : Value) → value.Plain → SparesHandles value.toJson
  | null, _ | boolean _, _ | string _, _ => sparesHandles_ok _
  | number value, _ => by
    unfold toJson
    split
    · exact sparesHandles_ok _
    · exact sparesHandles_error (by rintro text ⟨⟩)
  | array items, hplain => sparesHandles_map (sparesHandles_itemsToJson items hplain) _
  | map entries, hplain => sparesHandles_map (sparesHandles_entriesToJson entries hplain) _
  | handle _, hplain => hplain.elim

theorem sparesHandles_itemsToJson : (items : List Value) → PlainItems items →
    SparesHandles (itemsToJson items)
  | [], _ => sparesHandles_ok _
  | item :: rest, hplain => by
    apply sparesHandles_bind (sparesHandles_toJson item hplain.1)
    intro first _
    apply sparesHandles_bind (sparesHandles_itemsToJson rest hplain.2)
    exact fun others _ => sparesHandles_ok _

/-- Plain entries are never refused for a handle. -/
theorem sparesHandles_entriesToJson : (entries : List (String × Value)) →
    PlainEntries entries → SparesHandles (entriesToJson entries)
  | [], _ => sparesHandles_ok _
  | (_, value) :: rest, hplain => by
    apply sparesHandles_bind (sparesHandles_toJson value hplain.1)
    intro first _
    apply sparesHandles_bind (sparesHandles_entriesToJson rest hplain.2)
    exact fun others _ => sparesHandles_ok _

end

end Value

theorem sparesHandles_string (arguments : Arguments) (name : String) :
    SparesHandles (arguments.string name) := by
  unfold Arguments.string
  split
  · exact sparesHandles_ok _
  · exact sparesHandles_error (Fault.sparesHandles_missing _ _)

theorem sparesHandles_map_argument (arguments : Arguments) (name : String) :
    SparesHandles (arguments.map name) := by
  unfold Arguments.map
  split
  · exact sparesHandles_ok _
  · exact sparesHandles_error (Fault.sparesHandles_missing _ _)

theorem sparesHandles_credentials (arguments : Arguments) (entries : Table Value) :
    SparesHandles (credentialsOf arguments entries) := by
  unfold credentialsOf
  refine sparesHandles_bind ?_ fun user _ => sparesHandles_bind ?_ fun password _ =>
    sparesHandles_ok _
  all_goals
    dsimp only
    split
    · exact sparesHandles_ok _
    · exact sparesHandles_error (Fault.sparesHandles_invalid _ _ _)

theorem sparesHandles_body {arguments : Arguments} (hplain : Table.Plain arguments.values) :
    SparesHandles (bodyOf arguments) := by
  unfold bodyOf
  split
  · exact sparesHandles_ok _
  · exact sparesHandles_ok _
  · next entries _ hmap =>
    split
    · exact sparesHandles_map (Value.sparesHandles_toJson _
        (Value.plain_map (plain_map_argument hplain hmap))) _
    · exact sparesHandles_ok _

/-- A request made of plain arguments is never refused for a handle. -/
theorem sparesHandles_request {arguments : Arguments} (hplain : Table.Plain arguments.values)
    (method : HttpMethod) : SparesHandles (requestOf method arguments) := by
  apply sparesHandles_bind (sparesHandles_string arguments "url")
  intro url _
  refine sparesHandles_bind ?_ fun credentials _ => ?_
  · cases arguments.map? "auth" with
    | none => exact sparesHandles_ok _
    | some entries => exact sparesHandles_map (sparesHandles_credentials arguments entries) some
  · exact sparesHandles_bind (sparesHandles_body hplain) fun _ _ => sparesHandles_ok _

theorem sparesHandles_selectParam (function : String) (params : List Param) (sole : Bool)
    (name : Option String) : SparesHandles (selectParam function params sole name) := by
  unfold selectParam
  split <;> split
  · exact sparesHandles_ok _
  · exact sparesHandles_error (by rintro text ⟨⟩)
  · exact sparesHandles_ok _
  · exact sparesHandles_error (by rintro text ⟨⟩)

theorem sparesHandles_bindEach (function : String) (params : List Param) (sole : Bool)
    (values : Table Value) (given : List (Option String × Value)) :
    SparesHandles (bindEach function params sole values given) := by
  induction given generalizing values with
  | nil => exact sparesHandles_ok _
  | cons argument given ih =>
    apply sparesHandles_bind (sparesHandles_selectParam function params sole argument.1)
    intro param _
    -- what is wrong with the value itself is only reported in a text
    split
    · exact sparesHandles_error (by rintro text ⟨⟩)
    · exact ih _

/-- Binding never fails for a handle. -/
theorem sparesHandles_bindArguments (function : String) (params : List Param)
    (given : List (Option String × Value)) :
    SparesHandles (bindArguments function params given) := by
  apply sparesHandles_bind (sparesHandles_bindEach function params _ [] given)
  intro values _
  split
  · exact sparesHandles_error (by rintro text ⟨⟩)
  · exact sparesHandles_ok _

end MetricScript
