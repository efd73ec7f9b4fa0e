import Mathlib
import MetricScript.Run.Eval
import MetricScript.Proofs.Results
import MetricScript.Proofs.Table

/-!
# Inherited properties

Conversions, operators, the binding of arguments and the methods of strings and arrays make
booleans, numbers, strings and arrays of them, and pass on values that they were given.  A
property that the former have, and that an array has if its items do, goes through all of them.
That a value is plain data is such a property, and so is what may be said of the keys of its
maps.  Documents that are read from a text are built from their parts in the same way.
-/

namespace MetricScript

/-! ## Documents -/

namespace Json

/-- Scalars have the property, and arrays and objects have it if their parts do. -/
structure Inherited (holds : Json → Prop) : Prop where
  null : holds .null
  boolean (truth : Bool) : holds (.boolean truth)
  numeral {numeral : Numeral} {document : Json} (hread : numeral.toJson? = some document) :
    holds document
  string (text : String) : holds (.string text)
  array {items : List Json} (hitems : ∀ item ∈ items, holds item) : holds (.array items)
  object {pairs : List (String × Json)} (hpairs : ∀ pair ∈ pairs, holds pair.2) :
    holds (.object (Table.ofList pairs))

variable {holds : Json → Prop}

mutual

/-- An inherited property holds of every document read from a source. -/
theorem Inherited.ofSource (hholds : Inherited holds) {depth : Nat} : (source : Source) →
    {document : Json} → ofSource? depth source = some document → holds document
  | .null, _, hread => Option.some.inj hread ▸ hholds.null
  | .boolean truth, _, hread => Option.some.inj hread ▸ hholds.boolean truth
  | .numeral _, _, hread => hholds.numeral hread
  | .string _, _, hread => by
    obtain ⟨text, _, rfl⟩ := Option.map_eq_some_iff.1 hread
    exact hholds.string text
  | .array items, _, hread => by
    unfold ofSource? at hread
    split at hread
    · exact nomatch hread
    · obtain ⟨documents, hdocuments, rfl⟩ := Option.map_eq_some_iff.1 hread
      exact hholds.array (hholds.ofItems items hdocuments)
  | .object entries, _, hread => by
    unfold ofSource? at hread
    split at hread
    · exact nomatch hread
    · obtain ⟨pairs, hpairs, rfl⟩ := Option.map_eq_some_iff.1 hread
      exact hholds.object (hholds.ofEntries entries hpairs)

theorem Inherited.ofItems (hholds : Inherited holds) {depth : Nat} : (items : List Source) →
    {documents : List Json} → ofItems? depth items = some documents →
    ∀ document ∈ documents, holds document
  | [], _, hread => Option.some.inj hread ▸ List.forall_mem_nil _
  | item :: rest, _, hread => by
    obtain ⟨first, hfirst, hread⟩ := Option.bind_eq_some_iff.1 hread
    obtain ⟨others, hothers, hread⟩ := Option.bind_eq_some_iff.1 hread
    obtain rfl := Option.some.inj hread
    exact List.forall_mem_cons.2 ⟨hholds.ofSource item hfirst, hholds.ofItems rest hothers⟩

theorem Inherited.ofEntries (hholds : Inherited holds) {depth : Nat} :
    (entries : List (List StringPart × Source)) → {pairs : List (String × Json)} →
    ofEntries? depth entries = some pairs → ∀ pair ∈ pairs, holds pair.2
  | [], _, hread => Option.some.inj hread ▸ List.forall_mem_nil _
  | (_, value) :: rest, _, hread => by
    obtain ⟨name, _, hread⟩ := Option.bind_eq_some_iff.1 hread
    obtain ⟨first, hfirst, hread⟩ := Option.bind_eq_some_iff.1 hread
    obtain ⟨others, hothers, hread⟩ := Option.bind_eq_some_iff.1 hread
    obtain rfl := Option.some.inj hread
    exact List.forall_mem_cons.2 ⟨hholds.ofSource value hfirst, hholds.ofEntries rest hothers⟩

end

end Json

/-! ## Results -/

def GivesOnly (holds : Value → Prop) (result : Except Fault Value) : Prop :=
  ∀ value, result = .ok value → holds value

section Results

variable {α : Type} {holds : Value → Prop}

theorem givesOnly_ok {value : Value} (hvalue : holds value) : GivesOnly holds (.ok value) :=
  fun _ hresult => Except.ok.inj hresult ▸ hvalue

theorem givesOnly_error (fault : Fault) : GivesOnly holds (.error fault) :=
  fun _ hresult => nomatch hresult

theorem givesOnly_map (first : Except Fault α) {change : α → Value}
    (hchange : ∀ value, holds (change value)) : GivesOnly holds (first.map change) := by
  intro result hresult
  obtain ⟨value, _, rfl⟩ := exists_of_map_eq_ok hresult
  exact hchange value

theorem givesOnly_bind (first : Except Fault α) {next : α → Except Fault Value}
    (hnext : ∀ value, GivesOnly holds (next value)) : GivesOnly holds (first >>= next) := by
  intro result hresult
  obtain ⟨value, _, hresult⟩ := exists_of_bind_eq_ok hresult
  exact hnext value result hresult

theorem givesOnly_argument {arguments : Arguments}
    (harguments : ∀ entry ∈ arguments.values, holds entry.2) (name : String) :
    GivesOnly holds (arguments.value name) := by
  unfold Arguments.value
  split
  · next value hget => exact givesOnly_ok (harguments _ (Table.mem_of_get? hget))
  · exact givesOnly_error _

end Results

theorem mem_of_itemAt {items : List Value} {index : Float} {item : Value}
    (hitem : itemAt items index = .ok item) : item ∈ items := by
  unfold itemAt at hitem
  dsimp only at hitem
  split at hitem
  · next found hfound =>
    obtain rfl := Except.ok.inj hitem
    split at hfound
    · exact nomatch hfound
    · exact List.mem_of_getElem? hfound
  · exact nomatch hitem

/-! ## Values -/

namespace Value

/-- Booleans, numbers and strings have the property, and arrays share it with their items. -/
structure Inherited (holds : Value → Prop) : Prop where
  boolean (truth : Bool) : holds (.boolean truth)
  number (x : Float) : holds (.number x)
  string (text : String) : holds (.string text)
  array_iff {items : List Value} : holds (.array items) ↔ ∀ item ∈ items, holds item

namespace Inherited

variable {holds : Value → Prop} (hholds : Inherited holds)

include hholds

theorem array_map {α : Type} (items : List α) {change : α → Value}
    (hchange : ∀ item, holds (change item)) : holds (.array (items.map change)) :=
  hholds.array_iff.2 (List.forall_mem_map.2 fun item _ => hchange item)

/-! ### Operators and arguments -/

/-- The operators make nothing that lacks an inherited property. -/
theorem operator (operator : BinaryOperator) (left right : Value) :
    GivesOnly holds (operator.apply left right) := by
  cases operator with
  | add | subtract | multiply => exact givesOnly_bind _ fun _ => givesOnly_ok (hholds.number _)
  | less | lessEqual | greater | greaterEqual | and | or =>
    exact givesOnly_bind _ fun _ => givesOnly_ok (hholds.boolean _)
  | equal | notEqual => exact givesOnly_ok (hholds.boolean _)
  | divide =>
    refine givesOnly_bind _ fun operands => ?_
    obtain ⟨left, right⟩ := operands
    dsimp only
    split
    · exact givesOnly_error _
    · exact givesOnly_ok (hholds.number _)

theorem unary (operator : UnaryOperator) (operand : Value) :
    GivesOnly holds (operator.apply operand) := by
  cases operator with
  | negate | plus => exact givesOnly_map _ fun _ => hholds.number _
  | not => exact givesOnly_map _ fun _ => hholds.boolean _

/-- Coercing an argument keeps an inherited property. -/
theorem coerce (kind : ArgKind) {value : Value} (hvalue : holds value) :
    GivesOnly holds (kind.coerce value) := by
  cases kind with
  | string => exact givesOnly_ok (hholds.string _)
  | numeric => exact givesOnly_map _ fun _ => hholds.number _
  | boolean => exact givesOnly_map _ fun _ => hholds.boolean _
  | numericArray => exact givesOnly_map _ fun _ => hholds.array_map _ hholds.number
  | any => exact givesOnly_ok hvalue
  | array =>
    cases value with
    | array items => exact givesOnly_ok hvalue
    | null | boolean | number | string | map | handle => exact givesOnly_error _
  | map =>
    cases value with
    | map entries => exact givesOnly_ok hvalue
    | null | boolean | number | string | array | handle => exact givesOnly_error _

/-- Binding the arguments keeps an inherited property. -/
theorem bindEach {function : String} {params : List Param} {sole : Bool}
    {given : List (Option String × Value)} (hgiven : ∀ argument ∈ given, holds argument.2)
    {values bound : Table Value} (hvalues : ∀ entry ∈ values, holds entry.2)
    (hbound : bindEach function params sole values given = .ok bound) :
    ∀ entry ∈ bound, holds entry.2 := by
  induction given generalizing values with
  | nil =>
    obtain rfl := Except.ok.inj hbound
    exact hvalues
  | cons argument given ih =>
    obtain ⟨name, value⟩ := argument
    obtain ⟨hvalue, hothers⟩ := List.forall_mem_cons.1 hgiven
    obtain ⟨param, _, hbound⟩ := exists_of_bind_eq_ok hbound
    split at hbound
    · exact nomatch hbound
    · next coerced hcoerced =>
      have hentry := hholds.coerce param.kind hvalue coerced hcoerced
      exact ih hothers (Table.forall_insert hvalues param.name hentry) hbound

/-- Arguments arrive with the property that they were given with. -/
theorem bindArguments {function : String} {params : List Param}
    {given : List (Option String × Value)} (hgiven : ∀ argument ∈ given, holds argument.2)
    {arguments : Arguments} (hbound : bindArguments function params given = .ok arguments) :
    ∀ entry ∈ arguments.values, holds entry.2 := by
  obtain ⟨values, hvalues, hbound⟩ := exists_of_bind_eq_ok hbound
  split at hbound
  · exact nomatch hbound
  · obtain rfl := Except.ok.inj hbound
    exact hholds.bindEach hgiven (List.forall_mem_nil _) hvalues

/-! ### Methods and properties -/

theorem stringMethod (method : StringMethod) (text : String) (arguments : Arguments) :
    GivesOnly holds (method.apply text arguments) := by
  cases method with
  | split =>
    exact givesOnly_bind _ fun _ => givesOnly_ok (hholds.array_map _ hholds.string)
  | toNumber => exact givesOnly_map _ hholds.number

/-- A method of an array gives an item of the array or a number. -/
theorem arrayMethod (method : ArrayMethod) {items : List Value}
    (hitems : ∀ item ∈ items, holds item) (arguments : Arguments) :
    GivesOnly holds (method.apply items arguments) := by
  cases method with
  | item =>
    exact givesOnly_bind _ fun _ item hitem => hitems item (mem_of_itemAt hitem)
  | count => exact givesOnly_ok (hholds.number _)
  | sum | min | max | avg | stddev =>
    exact givesOnly_bind _ fun _ => givesOnly_ok (hholds.number _)

theorem pointProperty {point : Point} {name : String} {value : Value}
    (hvalue : point.property? name = some value) : holds value := by
  unfold Point.property? at hvalue
  split at hvalue
  · exact Option.some.inj hvalue ▸ hholds.number _
  · exact Option.some.inj hvalue ▸ hholds.number _
  · exact nomatch hvalue

theorem pointValues (points : List Point) : holds (pointValues points) :=
  hholds.array_map points fun _ => hholds.number _

theorem pointsProperty {points : List Point} {name : String} {value : Value}
    (hvalue : pointsProperty? points name = some value) : holds value := by
  unfold pointsProperty? at hvalue
  split at hvalue
  · exact Option.some.inj hvalue ▸ hholds.pointValues points
  · exact Option.some.inj hvalue ▸ hholds.array_map points fun _ => hholds.number _
  · exact nomatch hvalue

end Inherited

end Value

end MetricScript
