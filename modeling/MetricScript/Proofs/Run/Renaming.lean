import Mathlib
import MetricScript.Proofs.Run.Names
import MetricScript.Proofs.Run.Calls
import MetricScript.Run.Exec

/-!
# Renaming variables

Variables can be given other names: in a script, in the values that remember a variable, and in
the events of a run.  Everything that looks at a value from outside takes no notice, since
neither the text of a value nor the data it stands for shows the variables in it.
-/

namespace MetricScript

variable {rename : String → String}

/-! ## Scripts -/

namespace Expr

mutual

/-- The expression with its variables renamed. -/
def renamed (rename : String → String) : Expr → Expr
  | literal place value => literal place value
  | array place items => array place (renamedItems rename items)
  | map place entries => map place (renamedEntries rename entries)
  | var place name => var place (rename name)
  | binary place operator left right =>
      binary place operator (left.renamed rename) (right.renamed rename)
  | unary place operator operand => unary place operator (operand.renamed rename)
  | property place target name => property place (target.renamed rename) name
  | call place target arguments =>
      call place (target.renamed rename) (renamedArguments rename arguments)
  | global place => global place
  | storage place => storage place
termination_by structural expression => expression

def renamedItems (rename : String → String) : List Expr → List Expr
  | [] => []
  | item :: rest => item.renamed rename :: renamedItems rename rest
termination_by structural items => items

def renamedEntries (rename : String → String) : List (String × Expr) → List (String × Expr)
  | [] => []
  | (key, value) :: rest => (key, value.renamed rename) :: renamedEntries rename rest
termination_by structural entries => entries

def renamedArguments (rename : String → String) :
    List (Option String × Expr) → List (Option String × Expr)
  | [] => []
  | (name, value) :: rest => (name, value.renamed rename) :: renamedArguments rename rest
termination_by structural arguments => arguments

end

@[simp]
theorem position_renamed (expression : Expr) :
    (expression.renamed rename).position = expression.position := by
  cases expression <;> rfl

@[simp]
theorem variableName?_renamed (expression : Expr) :
    (expression.renamed rename).variableName? = expression.variableName?.map rename := by
  cases expression <;> rfl

mutual

theorem renamed_id : (expression : Expr) → expression.renamed id = expression
  | literal _ _ | var _ _ | global _ | storage _ => rfl
  | array place items => congrArg (array place) (renamedItems_id items)
  | map place entries => congrArg (map place) (renamedEntries_id entries)
  | binary place operator left right =>
    congrArg₂ (binary place operator) (renamed_id left) (renamed_id right)
  | unary place operator operand => congrArg (unary place operator) (renamed_id operand)
  | property place target name => congrArg (property place · name) (renamed_id target)
  | call place target arguments =>
    congrArg₂ (call place) (renamed_id target) (renamedArguments_id arguments)

theorem renamedItems_id : (items : List Expr) → renamedItems id items = items
  | [] => rfl
  | item :: rest => congrArg₂ List.cons (renamed_id item) (renamedItems_id rest)

theorem renamedEntries_id : (entries : List (String × Expr)) → renamedEntries id entries = entries
  | [] => rfl
  | (key, value) :: rest =>
    congrArg₂ List.cons (congrArg (Prod.mk key) (renamed_id value)) (renamedEntries_id rest)

theorem renamedArguments_id : (arguments : List (Option String × Expr)) →
    renamedArguments id arguments = arguments
  | [] => rfl
  | (name, value) :: rest =>
    congrArg₂ List.cons (congrArg (Prod.mk name) (renamed_id value)) (renamedArguments_id rest)

end

end Expr

namespace Command

mutual

/-- The command with its variables renamed, assigned ones included. -/
def renamed (rename : String → String) : Command → Command
  | setVariable name value => setVariable (rename name) (value.renamed rename)
  | setOutput name value => setOutput name (value.renamed rename)
  | evaluate value => evaluate (value.renamed rename)
  | ifElse condition thenBranch elseBranch =>
      ifElse (condition.renamed rename) (allRenamed rename thenBranch)
        (allRenamed rename elseBranch)
  | whileLoop condition body => whileLoop (condition.renamed rename) (allRenamed rename body)
termination_by structural command => command

def allRenamed (rename : String → String) : List Command → List Command
  | [] => []
  | command :: rest => command.renamed rename :: allRenamed rename rest
termination_by structural commands => commands

end

mutual

theorem renamed_id : (command : Command) → command.renamed id = command
  | setVariable name value => congrArg (setVariable name) value.renamed_id
  | setOutput name value => congrArg (setOutput name) value.renamed_id
  | evaluate value => congrArg evaluate value.renamed_id
  | ifElse condition thenBranch elseBranch => by
    rw [renamed, condition.renamed_id, allRenamed_id thenBranch, allRenamed_id elseBranch]
  | whileLoop condition body => congrArg₂ whileLoop condition.renamed_id (allRenamed_id body)

/-- Renaming nothing changes nothing. -/
theorem allRenamed_id : (commands : List Command) → allRenamed id commands = commands
  | [] => rfl
  | command :: rest => congrArg₂ List.cons (renamed_id command) (allRenamed_id rest)

end

end Command

def Script.renamed (rename : String → String) (script : Script) : Script :=
  Command.allRenamed rename script

/-! ## Values -/

namespace Value

mutual

/-- The value with the variables that it remembers renamed. -/
def renamed (rename : String → String) : Value → Value
  | array items => array (renamedItems rename items)
  | map entries => map (renamedEntries rename entries)
  | handle reference => handle (renamedHandle rename reference)
  | null => null
  | boolean value => boolean value
  | number value => number value
  | string value => string value
termination_by structural value => value

def renamedItems (rename : String → String) : List Value → List Value
  | [] => []
  | item :: rest => item.renamed rename :: renamedItems rename rest
termination_by structural items => items

def renamedEntries (rename : String → String) : List (String × Value) → List (String × Value)
  | [] => []
  | (key, value) :: rest => (key, value.renamed rename) :: renamedEntries rename rest
termination_by structural entries => entries

def renamedHandle (rename : String → String) : Handle → Handle
  | .method bound => .method (renamedMethod rename bound)
  | .global => .global
  | .storage => .storage
  | .counter name => .counter name
  | .series name => .series name
  | .point sample => .point sample
  | .aggregate points => .aggregate points
termination_by structural reference => reference

/-- Renames the variable that a method remembers and those in what it belongs to. -/
def renamedMethod (rename : String → String) : BoundMethod → BoundMethod
  | .ofArray items method => .ofArray (renamedItems rename items) method
  | .ofMap entries origin method =>
      .ofMap (renamedEntries rename entries) (origin.map rename) method
  | .ofGlobal method => .ofGlobal method
  | .ofCounter name method => .ofCounter name method
  | .ofSeries name method => .ofSeries name method
  | .ofStorage method => .ofStorage method
  | .ofString text method => .ofString text method
termination_by structural bound => bound

end

theorem renamedItems_eq (items : List Value) :
    renamedItems rename items = items.map (renamed rename) := by
  induction items with
  | nil => rfl
  | cons item rest ih => exact congrArg (item.renamed rename :: ·) ih

theorem renamedEntries_eq (entries : Table Value) :
    renamedEntries rename entries = Table.mapValues (renamed rename) entries := by
  induction entries with
  | nil => rfl
  | cons entry rest ih => exact congrArg ((entry.1, entry.2.renamed rename) :: ·) ih

mutual

/-- A value that remembers no variable stays as it is. -/
theorem renamed_of_captured : (value : Value) → value.captured = [] →
    value.renamed rename = value
  | null, _ | boolean _, _ | number _, _ | string _, _ => rfl
  | array items, hnone => congrArg array (renamedItems_of_captured items hnone)
  | map entries, hnone => congrArg map (renamedEntries_of_captured entries hnone)
  | handle reference, hnone => congrArg handle (renamedHandle_of_captured reference hnone)

theorem renamedItems_of_captured : (items : List Value) →
    (itemMethods items).filterMap BoundMethod.origin? = [] → renamedItems rename items = items
  | [], _ => rfl
  | item :: rest, hnone => by
    rw [itemMethods, List.filterMap_append, List.append_eq_nil_iff] at hnone
    exact congrArg₂ List.cons (renamed_of_captured item hnone.1)
      (renamedItems_of_captured rest hnone.2)

theorem renamedEntries_of_captured : (entries : List (String × Value)) →
    (entryMethods entries).filterMap BoundMethod.origin? = [] →
    renamedEntries rename entries = entries
  | [], _ => rfl
  | (key, value) :: rest, hnone => by
    rw [entryMethods, List.filterMap_append, List.append_eq_nil_iff] at hnone
    exact congrArg₂ List.cons (congrArg (Prod.mk key) (renamed_of_captured value hnone.1))
      (renamedEntries_of_captured rest hnone.2)

theorem renamedHandle_of_captured : (reference : Handle) →
    (handleMethods reference).filterMap BoundMethod.origin? = [] →
    renamedHandle rename reference = reference
  | .global, _ | .storage, _ | .counter _, _ | .series _, _ | .point _, _ | .aggregate _, _ => rfl
  | .method bound, hnone => congrArg Handle.method (renamedMethod_of_captured bound hnone)

theorem renamedMethod_of_captured : (bound : BoundMethod) →
    (boundMethods bound).filterMap BoundMethod.origin? = [] →
    renamedMethod rename bound = bound
  | .ofGlobal _, _ | .ofCounter _ _, _ | .ofSeries _ _, _ | .ofStorage _, _ | .ofString _ _, _ =>
    rfl
  | .ofArray items method, hnone =>
    congrArg (BoundMethod.ofArray · method) (renamedItems_of_captured items hnone)
  | .ofMap entries none method, hnone =>
    congrArg (BoundMethod.ofMap · none method) (renamedEntries_of_captured entries hnone)
  | .ofMap _ (some _) _, hnone => nomatch hnone

end

theorem Plain.captured {value : Value} (hplain : value.Plain) : value.captured = [] := by
  rw [Value.captured, methods_of_plain value hplain]
  rfl

theorem Plain.renamed {value : Value} (hplain : value.Plain) : value.renamed rename = value :=
  renamed_of_captured value hplain.captured

mutual

theorem renamed_id : (value : Value) → value.renamed id = value
  | null | boolean _ | number _ | string _ => rfl
  | array items => congrArg array (renamedItems_id items)
  | map entries => congrArg map (renamedEntries_id entries)
  | handle reference => congrArg handle (renamedHandle_id reference)

theorem renamedItems_id : (items : List Value) → renamedItems id items = items
  | [] => rfl
  | item :: rest => congrArg₂ List.cons (renamed_id item) (renamedItems_id rest)

theorem renamedEntries_id : (entries : List (String × Value)) →
    renamedEntries id entries = entries
  | [] => rfl
  | (key, value) :: rest =>
    congrArg₂ List.cons (congrArg (Prod.mk key) (renamed_id value)) (renamedEntries_id rest)

theorem renamedHandle_id : (reference : Handle) → renamedHandle id reference = reference
  | .global | .storage | .counter _ | .series _ | .point _ | .aggregate _ => rfl
  | .method bound => congrArg Handle.method (renamedMethod_id bound)

theorem renamedMethod_id : (bound : BoundMethod) → renamedMethod id bound = bound
  | .ofGlobal _ | .ofCounter _ _ | .ofSeries _ _ | .ofStorage _ | .ofString _ _ => rfl
  | .ofArray items method => congrArg (BoundMethod.ofArray · method) (renamedItems_id items)
  | .ofMap entries origin method => by
    rw [renamedMethod, renamedEntries_id entries, Option.map_id_fun]
    rfl

end

/-! ## What is seen of a value -/

@[simp]
theorem name_renamedMethod (bound : BoundMethod) :
    (renamedMethod rename bound).name = bound.name := by
  cases bound <;> rfl

@[simp]
theorem params_renamedMethod (bound : BoundMethod) :
    (renamedMethod rename bound).params = bound.params := by
  cases bound <;> rfl

theorem text_renamedHandle (reference : Handle) :
    (renamedHandle rename reference).text = reference.text := by
  cases reference with
  | method bound => exact congrArg (· ++ "()") (name_renamedMethod bound)
  | global | storage | counter | series | point | aggregate => rfl

mutual

theorem innerText_renamed : (value : Value) → (value.renamed rename).innerText = value.innerText
  | null | boolean _ | number _ | string _ => rfl
  | array items => congrArg (fun texts => "[" ++ ", ".intercalate texts ++ "]")
      (itemTexts_renamed items)
  | map entries => congrArg (fun texts => "\x7b" ++ ", ".intercalate texts ++ "\x7d")
      (entryTexts_renamed entries)
  | handle reference => text_renamedHandle reference

theorem itemTexts_renamed : (items : List Value) →
    itemTexts (renamedItems rename items) = itemTexts items
  | [] => rfl
  | item :: rest => congrArg₂ List.cons (innerText_renamed item) (itemTexts_renamed rest)

theorem entryTexts_renamed : (entries : List (String × Value)) →
    entryTexts (renamedEntries rename entries) = entryTexts entries
  | [] => rfl
  | (key, value) :: rest =>
    congrArg₂ (fun inner others => (Text.quote key ++ ": " ++ inner) :: others)
      (innerText_renamed value) (entryTexts_renamed rest)

end

@[simp]
theorem text_renamed (value : Value) : (value.renamed rename).text = value.text := by
  cases value with
  | string => rfl
  | null | boolean | number => rfl
  | array items => exact innerText_renamed (array items)
  | map entries => exact innerText_renamed (map entries)
  | handle reference => exact innerText_renamed (handle reference)

theorem toNumber_renamed (value : Value) :
    (value.renamed rename).toNumber = value.toNumber := by
  cases value with
  | null | boolean | number | string => rfl
  | array items => exact congrArg (Except.error ∘ Fault.invalidNumber) (text_renamed (array items))
  | map entries => exact congrArg (Except.error ∘ Fault.invalidNumber) (text_renamed (map entries))
  | handle reference =>
    exact congrArg (Except.error ∘ Fault.invalidNumber) (text_renamed (handle reference))

theorem numbersFrom_renamed (items : List Value) (index : Nat) :
    numbersFrom index (items.map (renamed rename)) = numbersFrom index items := by
  induction items generalizing index with
  | nil => rfl
  | cons item rest ih => simp only [List.map_cons, numbersFrom, toNumber_renamed, ih]

section Resolving

variable {m : Type → Type} [Monad m] {provider : Provider m}

theorem resolve_renamedHandle (reference : Handle) :
    (renamedHandle rename reference).resolve provider = reference.resolve provider := by
  cases reference with
  | method bound =>
    exact congrArg (throw ∘ Fault.notEvaluable) (text_renamedHandle (.method bound))
  | global | storage | counter | series | point | aggregate => rfl

mutual

/-- The data that a value stands for is the same under all names. -/
theorem resolve_renamed : (value : Value) →
    (value.renamed rename).resolve provider = value.resolve provider
  | null | boolean _ | number _ | string _ => rfl
  | array items =>
    congrArg (fun action => do return array (← action)) (resolveItems_renamed items)
  | map entries =>
    congrArg (fun action => do return map (← action)) (resolveEntries_renamed entries)
  | handle reference => resolve_renamedHandle reference

theorem resolveItems_renamed : (items : List Value) →
    resolveItems provider (renamedItems rename items) = resolveItems provider items
  | [] => rfl
  | item :: rest => by
    rw [renamedItems, resolveItems, resolveItems, resolve_renamed item, resolveItems_renamed rest]

theorem resolveEntries_renamed : (entries : List (String × Value)) →
    resolveEntries provider (renamedEntries rename entries) = resolveEntries provider entries
  | [] => rfl
  | (key, value) :: rest => by
    rw [renamedEntries, resolveEntries, resolveEntries, resolve_renamed value,
      resolveEntries_renamed rest]

end

end Resolving

end Value

/-! ## Properties and methods of plain data -/

/-- A method is found alike on a renamed value, and is renamed itself. -/
theorem boundMethod?_renamed (value : Value) (name : String) (origin : Option String) :
    boundMethod? (value.renamed rename) name (origin.map rename) =
      (boundMethod? value name origin).map (Value.renamedMethod rename) := by
  cases value with
  | handle reference =>
    cases reference with
    | global | storage | counter | series =>
      simp only [boundMethod?, Value.renamed, Value.renamedHandle, Option.map_map]
      rfl
    | point | aggregate | method => rfl
  | string | array | map =>
    simp only [boundMethod?, Value.renamed, Option.map_map]
    rfl
  | null | boolean | number => rfl

/-- What a value has under a name. -/
def Value.found? (value : Value) (name : String) (origin : Option String) : Option Value :=
  match value with
  | .handle (.point point) => point.property? name
  | .handle (.aggregate points) => pointsProperty? points name
  | other => (boundMethod? other name origin).map fun bound => .handle (.method bound)

/-- A property is the one found, and an unknown property otherwise. -/
theorem property_eq (value : Value) (name : String) (origin : Option String) :
    value.property name origin =
      (value.found? name origin).elim (.error (.unknownProperty value.text name)) .ok := by
  unfold Value.property
  dsimp only
  split
  · next result hresult =>
    rw [show value.found? name origin = some result from hresult]
    rfl
  · next hnone =>
    rw [show value.found? name origin = none from hnone]
    rfl

theorem map_renamed_of_plain {found : Option Value}
    (hplain : ∀ result, found = some result → result.Plain) :
    found.map (Value.renamed rename) = found := by
  cases found with
  | none => rfl
  | some result => exact congrArg some (hplain result rfl).renamed

/-- A property is found alike on a renamed value. -/
theorem found?_renamed (value : Value) (name : String) (origin : Option String) :
    (value.renamed rename).found? name (origin.map rename) =
      (value.found? name origin).map (Value.renamed rename) := by
  have hmethod : ((boundMethod? (value.renamed rename) name (origin.map rename)).map
      fun bound => Value.handle (.method bound)) = ((boundMethod? value name origin).map
        fun bound => Value.handle (.method bound)).map (Value.renamed rename) := by
    rw [boundMethod?_renamed, Option.map_map, Option.map_map]
    rfl
  cases value with
  | handle reference =>
    cases reference with
    | point sample => exact (map_renamed_of_plain fun _ => plain_of_pointProperty).symm
    | aggregate points => exact (map_renamed_of_plain fun _ => plain_of_pointsProperty).symm
    | global | storage | counter | series | method => exact hmethod
  | null | boolean | number | string | array | map => exact hmethod

/-- A property of the renamed value is the renamed property. -/
theorem property_renamed (value : Value) (name : String) (origin : Option String) :
    (value.renamed rename).property name (origin.map rename) =
      (value.property name origin).map (Value.renamed rename) := by
  rw [property_eq, property_eq, found?_renamed, Value.text_renamed]
  cases value.found? name origin with
  | none => rfl
  | some result => rfl

theorem itemAt_renamed (items : List Value) (index : Float) :
    itemAt (items.map (Value.renamed rename)) index =
      (itemAt items index).map (Value.renamed rename) := by
  unfold itemAt
  by_cases hindex : (index < 0.0 || !Number.isWhole index) = true
  · simp only [hindex, if_true]
    rfl
  · simp only [hindex, List.getElem?_map]
    cases items[Number.toCount index]? with
    | none => rfl
    | some item => rfl

/-- An array method gives the renamed result on renamed items. -/
theorem apply_renamed (method : ArrayMethod) (items : List Value) (arguments : Arguments) :
    method.apply (items.map (Value.renamed rename)) arguments =
      (method.apply items arguments).map (Value.renamed rename) := by
  have hsummarize : ∀ summary, summarize summary (items.map (Value.renamed rename)) =
      (summarize summary items).map (Value.renamed rename) := by
    intro summary
    have hnumbers : (Value.array (items.map (Value.renamed rename))).toNumbers =
        (Value.array items).toNumbers := Value.numbersFrom_renamed items 0
    unfold summarize
    rw [hnumbers]
    cases (Value.array items).toNumbers with
    | error fault => rfl
    | ok numbers => rfl
  cases method with
  | item =>
    unfold ArrayMethod.apply
    cases arguments.number "index" with
    | error fault => rfl
    | ok index => exact itemAt_renamed items index
  | count =>
    change Except.ok (Value.number (countOf (items.map _))) = .ok (.number (countOf items))
    rw [countOf, List.length_map]
    rfl
  | sum | min | max | avg | stddev => exact hsummarize _

end MetricScript
