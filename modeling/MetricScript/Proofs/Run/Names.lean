import Mathlib
import MetricScript.Proofs.Run.Plain
import MetricScript.Proofs.Script.Parts

/-!
# The names that a run uses

A script names variables, entries of the output table and properties.  Names outlive the
expressions they stand in: a method that was taken from a value can be kept and called later,
and a method of a map remembers the variable that the map was read from.  A vocabulary says
which names may be used, and it is kept by a script, by a value with the methods in it, and by
an operation if a script within the vocabulary can ask for it.
-/

namespace MetricScript

/-- The names that may be used for variables, for entries of the output table and for
properties. -/
structure Vocabulary where
  variableNames : String → Prop := fun _ => True
  outputNames : String → Prop := fun _ => True
  propertyNames : String → Prop := fun _ => True

variable {vocabulary : Vocabulary}

/-! ## Scripts -/

namespace Expr

/-- The name that an expression itself uses, without those of its parts. -/
def Named (vocabulary : Vocabulary) : Expr → Prop
  | var _ name => vocabulary.variableNames name
  | property _ _ name => vocabulary.propertyNames name
  | literal _ _ | array _ _ | map _ _ | binary _ _ _ _ | unary _ _ _ | call _ _ _ | global _
  | storage _ => True

/-- All names in the expression are in the vocabulary. -/
def Within (vocabulary : Vocabulary) (expression : Expr) : Prop :=
  ∀ node ∈ expression.nodes, node.Named vocabulary

/-- The variable that an expression is belongs to the vocabulary. -/
theorem Within.variableName {expression : Expr} (hwithin : expression.Within vocabulary)
    {name : String} (hname : expression.variableName? = some name) :
    vocabulary.variableNames name := by
  cases expression with
  | var place other =>
    obtain rfl := Option.some.inj hname
    exact hwithin _ List.mem_cons_self
  | literal | array | map | binary | unary | property | call | global | storage =>
    exact nomatch hname

end Expr

namespace Command

mutual

def Within (vocabulary : Vocabulary) : Command → Prop
  | setVariable name value => vocabulary.variableNames name ∧ value.Within vocabulary
  | setOutput name value => vocabulary.outputNames name ∧ value.Within vocabulary
  | evaluate value => value.Within vocabulary
  | ifElse condition thenBranch elseBranch =>
      condition.Within vocabulary ∧ AllWithin vocabulary thenBranch ∧
        AllWithin vocabulary elseBranch
  | whileLoop condition body => condition.Within vocabulary ∧ AllWithin vocabulary body
termination_by structural command => command

def AllWithin (vocabulary : Vocabulary) : List Command → Prop
  | [] => True
  | command :: rest => command.Within vocabulary ∧ AllWithin vocabulary rest
termination_by structural commands => commands

end

def Named (vocabulary : Vocabulary) : Command → Prop
  | setVariable name _ => vocabulary.variableNames name
  | setOutput name _ => vocabulary.outputNames name
  | evaluate _ | ifElse _ _ _ | whileLoop _ _ => True

mutual

/-- A command is within a vocabulary if its parts and nodes are named in it. -/
theorem within_of_parts : (command : Command) →
    (∀ part ∈ command.parts, part.Named vocabulary) →
    (∀ node ∈ command.nodes, node.Named vocabulary) → command.Within vocabulary
  | setVariable _ _, hparts, hnodes | setOutput _ _, hparts, hnodes =>
    ⟨hparts _ List.mem_cons_self, hnodes⟩
  | evaluate _, _, hnodes => hnodes
  | ifElse _ thenBranch elseBranch, hparts, hnodes => by
    obtain ⟨hthenParts, helseParts⟩ := List.forall_mem_append.1 (List.forall_mem_cons.1 hparts).2
    obtain ⟨hcondition, hbranches⟩ := List.forall_mem_append.1 hnodes
    obtain ⟨hthen, helse⟩ := List.forall_mem_append.1 hbranches
    exact ⟨hcondition, allWithin_of_parts thenBranch hthenParts hthen,
      allWithin_of_parts elseBranch helseParts helse⟩
  | whileLoop _ body, hparts, hnodes => by
    obtain ⟨hcondition, hbody⟩ := List.forall_mem_append.1 hnodes
    exact ⟨hcondition, allWithin_of_parts body (List.forall_mem_cons.1 hparts).2 hbody⟩

/-- So is a list of commands. -/
theorem allWithin_of_parts : (commands : List Command) →
    (∀ part ∈ allParts commands, part.Named vocabulary) →
    (∀ node ∈ allNodes commands, node.Named vocabulary) → AllWithin vocabulary commands
  | [], _, _ => trivial
  | command :: rest, hparts, hnodes => by
    obtain ⟨hcommandParts, hrestParts⟩ := List.forall_mem_append.1 hparts
    obtain ⟨hcommand, hrest⟩ := List.forall_mem_append.1 hnodes
    exact ⟨within_of_parts command hcommandParts hcommand,
      allWithin_of_parts rest hrestParts hrest⟩

end

end Command

/-! ## Values -/

namespace Value

mutual

/-- The methods that a value holds at any depth, also in what they belong to. -/
def methods : Value → List BoundMethod
  | array items => itemMethods items
  | map entries => entryMethods entries
  | handle reference => handleMethods reference
  | null | boolean _ | number _ | string _ => []
termination_by structural value => value

def itemMethods : List Value → List BoundMethod
  | [] => []
  | item :: rest => item.methods ++ itemMethods rest
termination_by structural items => items

def entryMethods : List (String × Value) → List BoundMethod
  | [] => []
  | (_, value) :: rest => value.methods ++ entryMethods rest
termination_by structural entries => entries

def handleMethods : Handle → List BoundMethod
  | .method bound => boundMethods bound
  | .global | .storage | .counter _ | .series _ | .point _ | .aggregate _ => []
termination_by structural reference => reference

/-- The method itself and those in the value that it belongs to. -/
def boundMethods : BoundMethod → List BoundMethod
  | .ofArray items method => .ofArray items method :: itemMethods items
  | .ofMap entries origin method => .ofMap entries origin method :: entryMethods entries
  | .ofGlobal method => [.ofGlobal method]
  | .ofCounter name method => [.ofCounter name method]
  | .ofSeries name method => [.ofSeries name method]
  | .ofStorage method => [.ofStorage method]
  | .ofString text method => [.ofString text method]
termination_by structural bound => bound

end

end Value

/-- The variable that a method remembers. -/
def BoundMethod.origin? : BoundMethod → Option String
  | .ofMap _ origin _ => origin
  | .ofGlobal _ | .ofCounter _ _ | .ofSeries _ _ | .ofStorage _ | .ofString _ _
  | .ofArray _ _ => none

def Value.captured (value : Value) : List String := value.methods.filterMap BoundMethod.origin?

/-- The method can be taken from a value by a script within the vocabulary.  Methods of plain
data reach nothing outside of the run, except for the variable that a map came from. -/
def BoundMethod.Allowed (vocabulary : Vocabulary) : BoundMethod → Prop
  | .ofGlobal method => vocabulary.propertyNames method.name
  | .ofCounter _ method => vocabulary.propertyNames method.name
  | .ofSeries _ method => vocabulary.propertyNames method.name
  | .ofStorage method => vocabulary.propertyNames method.name
  | .ofMap _ origin _ => ∀ name, origin = some name → vocabulary.variableNames name
  | .ofString _ _ | .ofArray _ _ => True

namespace Value

def Within (vocabulary : Vocabulary) (value : Value) : Prop :=
  ∀ bound ∈ value.methods, bound.Allowed vocabulary

theorem within_array {items : List Value} :
    (array items).Within vocabulary ↔ ∀ item ∈ items, item.Within vocabulary := by
  change (∀ bound ∈ itemMethods items, _) ↔ _
  induction items with
  | nil => simp [itemMethods]
  | cons item rest ih =>
    rw [itemMethods, List.forall_mem_append, ih, List.forall_mem_cons]
    rfl

/-- A map is within a vocabulary exactly if its values are. -/
theorem within_map {entries : Table Value} :
    (map entries).Within vocabulary ↔ ∀ entry ∈ entries, entry.2.Within vocabulary := by
  change (∀ bound ∈ entryMethods entries, _) ↔ _
  induction entries with
  | nil => simp [entryMethods]
  | cons entry rest ih =>
    rw [entryMethods, List.forall_mem_append, ih, List.forall_mem_cons]
    rfl

theorem within_ofArray {items : List Value} {method : ArrayMethod} :
    (handle (.method (.ofArray items method))).Within vocabulary ↔
      (array items).Within vocabulary := by
  change (∀ bound ∈ BoundMethod.ofArray items method :: itemMethods items, _) ↔ _
  rw [List.forall_mem_cons]
  exact and_iff_right trivial

theorem within_ofMap {entries : Table Value} {origin : Option String} {method : MapMethod} :
    (handle (.method (.ofMap entries origin method))).Within vocabulary ↔
      (∀ name, origin = some name → vocabulary.variableNames name) ∧
        (map entries).Within vocabulary := by
  change (∀ bound ∈ BoundMethod.ofMap entries origin method :: entryMethods entries, _) ↔ _
  rw [List.forall_mem_cons]
  rfl

mutual

/-- Plain data holds no method. -/
theorem methods_of_plain : (value : Value) → value.Plain → value.methods = []
  | array items, hplain => itemMethods_of_plain items hplain
  | map entries, hplain => entryMethods_of_plain entries hplain
  | handle _, hplain => hplain.elim
  | null, _ | boolean _, _ | number _, _ | string _, _ => rfl

theorem itemMethods_of_plain : (items : List Value) → PlainItems items → itemMethods items = []
  | [], _ => rfl
  | item :: rest, hplain => by
    rw [itemMethods, methods_of_plain item hplain.1, itemMethods_of_plain rest hplain.2]
    rfl

theorem entryMethods_of_plain : (entries : List (String × Value)) → PlainEntries entries →
    entryMethods entries = []
  | [], _ => rfl
  | (_, value) :: rest, hplain => by
    rw [entryMethods, methods_of_plain value hplain.1, entryMethods_of_plain rest hplain.2]
    rfl

end

/-- A value without bound methods names nothing. -/
theorem within_of_methods {value : Value} (hmethods : value.methods = []) :
    value.Within vocabulary := by
  intro bound hmem
  rw [hmethods] at hmem
  exact nomatch hmem

theorem inherited_within : Inherited (Within vocabulary) where
  boolean _ := within_of_methods rfl
  number _ := within_of_methods rfl
  string _ := within_of_methods rfl
  array_iff := within_array

/-- Plain data names nothing. -/
theorem Plain.within {value : Value} (hplain : value.Plain) : value.Within vocabulary :=
  within_of_methods (methods_of_plain value hplain)

/-- Where all properties may be used, a value has only to keep to the names of variables. -/
theorem within_of_captured {value : Value} (hproperties : ∀ name, vocabulary.propertyNames name)
    (hcaptured : ∀ name ∈ value.captured, vocabulary.variableNames name) :
    value.Within vocabulary := by
  intro bound hmem
  cases bound with
  | ofGlobal | ofCounter | ofSeries | ofStorage => exact hproperties _
  | ofString | ofArray => exact trivial
  | ofMap entries origin method =>
    exact fun name horigin => hcaptured name (List.mem_filterMap.2 ⟨_, hmem, horigin⟩)

end Value

/-! ## Properties -/

theorem GlobalMethod.name_of_lookup {name : String} {method : GlobalMethod}
    (hlookup : lookup? name = some method) : method.name = name := by
  unfold lookup? at hlookup
  split at hlookup
  case h_11 => exact nomatch hlookup
  all_goals
    obtain rfl := Option.some.inj hlookup
    rfl

theorem CounterMethod.name_of_lookup {name : String} {method : CounterMethod}
    (hlookup : lookup? name = some method) : method.name = name := by
  unfold lookup? at hlookup
  split at hlookup
  case h_4 => exact nomatch hlookup
  all_goals
    obtain rfl := Option.some.inj hlookup
    rfl

theorem SeriesMethod.name_of_lookup {name : String} {method : SeriesMethod}
    (hlookup : lookup? name = some method) : method.name = name := by
  unfold lookup? at hlookup
  split at hlookup
  case h_13 => exact nomatch hlookup
  all_goals
    obtain rfl := Option.some.inj hlookup
    rfl

theorem StorageMethod.name_of_lookup {name : String} {method : StorageMethod}
    (hlookup : lookup? name = some method) : method.name = name := by
  unfold lookup? at hlookup
  split at hlookup
  case h_3 => exact nomatch hlookup
  all_goals
    obtain rfl := Option.some.inj hlookup
    rfl

/-- A method that is taken under an allowed name is allowed. -/
theorem within_boundMethod {value : Value} (hvalue : value.Within vocabulary) {name : String}
    (hname : vocabulary.propertyNames name) {origin : Option String}
    (horigin : ∀ other, origin = some other → vocabulary.variableNames other)
    {bound : BoundMethod} (hbound : boundMethod? value name origin = some bound) :
    (Value.handle (.method bound)).Within vocabulary := by
  have hsingle : ∀ {bound : BoundMethod}, bound.Allowed vocabulary →
      ∀ other ∈ [bound], other.Allowed vocabulary := fun hbound =>
    List.forall_mem_singleton.2 hbound
  unfold boundMethod? at hbound
  split at hbound
  case h_8 => exact nomatch hbound
  all_goals obtain ⟨method, hmethod, rfl⟩ := Option.map_eq_some_iff.1 hbound
  case h_1 =>
    rw [← GlobalMethod.name_of_lookup hmethod] at hname
    exact hsingle hname
  case h_2 =>
    rw [← StorageMethod.name_of_lookup hmethod] at hname
    exact hsingle hname
  case h_3 =>
    rw [← CounterMethod.name_of_lookup hmethod] at hname
    exact hsingle hname
  case h_4 =>
    rw [← SeriesMethod.name_of_lookup hmethod] at hname
    exact hsingle hname
  case h_5 => exact hsingle trivial
  case h_6 => exact Value.within_ofArray.2 hvalue
  case h_7 => exact Value.within_ofMap.2 ⟨horigin, hvalue⟩

/-- A property of a value under an allowed name keeps to the vocabulary. -/
theorem within_of_property {value result : Value} (hvalue : value.Within vocabulary)
    {name : String} (hname : vocabulary.propertyNames name) {origin : Option String}
    (horigin : ∀ other, origin = some other → vocabulary.variableNames other)
    (hresult : value.property name origin = .ok result) : result.Within vocabulary := by
  unfold Value.property at hresult
  dsimp only at hresult
  split at hresult
  · next found hfound =>
    obtain rfl := Except.ok.inj hresult
    split at hfound
    · exact (plain_of_pointProperty hfound).within
    · exact (plain_of_pointsProperty hfound).within
    · obtain ⟨bound, hbound, rfl⟩ := Option.map_eq_some_iff.1 hfound
      exact within_boundMethod hvalue hname horigin hbound
  · exact nomatch hresult

/-- A method of an array gives an item of the array or a number. -/
theorem within_of_arrayMethod {items : List Value}
    (hitems : (Value.array items).Within vocabulary) (method : ArrayMethod)
    {arguments : Arguments} {value : Value} (hvalue : method.apply items arguments = .ok value) :
    value.Within vocabulary :=
  Value.inherited_within.arrayMethod method (Value.within_array.1 hitems) arguments value hvalue

/-! ## Operations and events -/

/-- The names of the methods that ask for the operation.  The value of a counter is asked for
whenever it is used. -/
def Operation.methodNames : Operation → List String
  | .counterValue _ => []
  | .setCounter _ _ => ["set", "reset"]
  | .incrementCounter _ _ => ["increment"]
  | .seriesLast _ => ["last"]
  | .seriesAggregate _ _ _ _ => ["aggregate"]
  | .seriesCompute _ function _ => [function.name]
  | .seriesPush _ _ => ["push"]
  | .seriesPop _ => ["pop"]
  | .seriesTrim _ _ => ["trim"]
  | .seriesItems _ _ => ["items"]
  | .readStorage _ => ["get"]
  | .writeStorage _ _ => ["set"]
  | .http _ => ["get", "post"]
  | .fileText _ => ["load"]

def Operation.Allowed (vocabulary : Vocabulary) (operation : Operation) : Prop :=
  operation.methodNames = [] ∨ ∃ name ∈ operation.methodNames, vocabulary.propertyNames name

def Event.Within (vocabulary : Vocabulary) : Event → Prop
  | .assigned name _ => vocabulary.variableNames name
  | .wrote name _ => vocabulary.outputNames name
  | .performed operation _ => operation.Allowed vocabulary
  | .readClock _ | .logged _ => True

end MetricScript
