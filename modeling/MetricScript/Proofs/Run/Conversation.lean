import Mathlib
import MetricScript.Proofs.Run.Faithful
import MetricScript.Run.Exec

/-!
# Scripts converse faithfully

Resolving, calling, evaluating and executing are faithful actions, for every provider and every
rule for keys.  So a script comes to the same as its dialogue, answered by the provider, and at
a failure of the provider the dialogue is over.
-/

namespace MetricScript

open RunM

variable {m : Type → Type} [Monad m] {provider : Provider m} {rule : KeyRule}

theorem faithful_settle {α ε : Type} {source : ε → Option ProviderError} (result : Except ε α) :
    Faithful rule provider source (settle result) (settle result) fun _ => True :=
  Faithful.settle fun _ _ => trivial

variable [LawfulMonad m]

/-- An operation of the provider, after which something is made of the answer. -/
theorem faithful_answer (label : String) (operation : Operation)
    (hasks : operation.Asked rule) {shown : operation.Answer → Value}
    (hshown : ∀ answer, operation.Answered rule answer → (shown answer).Keyed rule) :
    Faithful rule provider Fault.source? (do return shown (← perform provider label operation))
      (do return shown (← perform .asking label operation)) (Value.Keyed rule) := by
  apply Faithful.bind (Faithful.perform label operation hasks)
  exact fun answer hanswer => Faithful.pure (hshown answer hanswer)

/-! ## Resolving -/

theorem faithful_handle_resolve (reference : Handle) :
    Faithful rule provider Fault.source? (reference.resolve provider) (reference.resolve .asking)
      (Value.Keyed rule) := by
  cases reference with
  | counter name => exact faithful_answer _ (.counterValue name) trivial fun _ _ => trivial
  | point sample => exact Faithful.pure trivial
  | aggregate points => exact Faithful.pure (keyed_pointValues points)
  | global | storage | series | method => exact Faithful.throw _

namespace Value

mutual

/-- Resolving a value is faithful to its dialogue. -/
theorem faithful_resolve : (value : Value) → value.Keyed rule →
    Faithful rule provider Fault.source? (value.resolve provider) (value.resolve .asking)
      (Keyed rule)
  | array items, hitems => by
    apply Faithful.bind (faithful_resolveItems items hitems)
    exact fun resolved hresolved => Faithful.pure hresolved
  | map entries, hentries => by
    apply Faithful.bind (faithful_resolveEntries entries hentries.2)
    rintro resolved ⟨hkeys, hresolved⟩
    refine Faithful.pure ⟨?_, hresolved⟩
    rw [hkeys]
    exact hentries.1
  | handle reference, _ => faithful_handle_resolve reference
  | null, _ | boolean _, _ | number _, _ | string _, _ => Faithful.pure trivial

theorem faithful_resolveItems : (items : List Value) → KeyedItems rule items →
    Faithful rule provider Fault.source? (resolveItems provider items)
      (resolveItems .asking items) (KeyedItems rule)
  | [], _ => Faithful.pure trivial
  | item :: rest, hitems => by
    apply Faithful.bind (faithful_resolve item hitems.1)
    intro first hfirst
    apply Faithful.bind (faithful_resolveItems rest hitems.2)
    exact fun others hothers => Faithful.pure ⟨hfirst, hothers⟩

/-- Resolving leaves the keys of a map alone. -/
theorem faithful_resolveEntries : (entries : List (String × Value)) → KeyedEntries rule entries →
    Faithful rule provider Fault.source? (resolveEntries provider entries)
      (resolveEntries .asking entries) fun resolved =>
        resolved.map Prod.fst = entries.map Prod.fst ∧ KeyedEntries rule resolved
  | [], _ => Faithful.pure ⟨rfl, trivial⟩
  | (key, value) :: rest, hentries => by
    apply Faithful.bind (faithful_resolve value hentries.1)
    intro first hfirst
    apply Faithful.bind (faithful_resolveEntries rest hentries.2)
    rintro others ⟨hkeys, hothers⟩
    exact Faithful.pure ⟨congrArg (key :: ·) hkeys, hfirst, hothers⟩

end

end Value

/-! ## Calls -/

section Calls

variable {given : Arguments}

theorem keyed_response {response : HttpResponse} (hbody : response.body.Keyed rule)
    (hheaders : rule.allows (response.headers.map Prod.fst)) :
    (responseValue response).Keyed rule := by
  have hkeys : rule.allows ["body", "header", "status_code"] :=
    rule.allows_ofList [("body", ()), ("header", ()), ("status_code", ())]
  refine ⟨hkeys, Value.keyed_ofJson _ hbody, ⟨?_, (Value.keyedEntries_iff _).2 ?_⟩, trivial,
    trivial⟩
  · simpa [Table.mapValues, Function.comp_def] using hheaders
  · intro entry hmem
    obtain ⟨header, _, rfl⟩ := List.mem_map.1 hmem
    exact trivial

theorem faithful_http (method : HttpMethod) :
    Faithful rule provider Fault.source? (callHttp provider method given)
      (callHttp .asking method given) (Value.Keyed rule) := by
  apply Faithful.bind (faithful_settle _)
  intro request _
  exact faithful_answer _ (.http request) trivial fun _ hanswer =>
    keyed_response hanswer.1 hanswer.2

/-- Loading is faithful to its dialogue, and gives documents keyed by the rule. -/
theorem faithful_load :
    Faithful rule provider Fault.source? (callLoad provider given) (callLoad .asking given)
      (Value.Keyed rule) := by
  apply Faithful.bind (faithful_settle _)
  intro format _
  by_cases hformat : Text.lower format ≠ "json"
  · simp only [if_pos hformat]
    exact Faithful.throw _
  · simp only [if_neg hformat]
    apply Faithful.bind (faithful_settle _)
    intro path _
    apply Faithful.bind (Faithful.perform _ (.fileText path) trivial)
    intro text _
    cases hread : Json.read? text with
    | none => exact Faithful.throw _
    | some document => exact Faithful.pure (Value.keyed_ofJson document (Json.keyed_of_read? hread))

theorem faithful_arg :
    Faithful rule provider Fault.source? (GlobalMethod.call provider given .arg)
      (GlobalMethod.call .asking given .arg) (Value.Keyed rule) := by
  apply Faithful.bind (faithful_settle _)
  intro name _
  apply Faithful.bind Faithful.current
  intro run hrun
  cases hget : Table.get? name run.arguments with
  | none => exact Faithful.throw _
  | some value => exact Faithful.pure (hrun.arguments _ (Table.mem_of_get? hget))

/-- The global methods are faithful to their dialogues. -/
theorem faithful_global (method : GlobalMethod) :
    Faithful rule provider Fault.source? (method.call provider given) (method.call .asking given)
      (Value.Keyed rule) := by
  cases method with
  | now => exact Faithful.bind Faithful.clock fun _ _ => Faithful.pure trivial
  | counter | series => exact Faithful.bind (faithful_settle _) fun _ _ => Faithful.pure trivial
  | get => exact faithful_http .get
  | post => exact faithful_http .post
  | arg => exact faithful_arg
  | log =>
    apply Faithful.bind (faithful_settle _)
    intro message _
    exact Faithful.bind (Faithful.log message) fun _ _ => Faithful.pure trivial
  | error => exact Faithful.bind (faithful_settle _) fun _ _ => Faithful.throw _
  | anomaly =>
    apply Faithful.bind (faithful_settle _)
    intro data _
    exact Faithful.bind (faithful_settle _) fun _ _ => Faithful.pure trivial
  | load => exact faithful_load

theorem faithful_counter (counter : String) (method : CounterMethod) :
    Faithful rule provider Fault.source? (method.call provider counter given)
      (method.call .asking counter given) (Value.Keyed rule) := by
  unfold CounterMethod.call
  cases method with
  | set =>
    apply Faithful.bind (faithful_settle _)
    intro value _
    simp only [pure_bind]
    exact faithful_answer _ (.setCounter counter (Number.toInt64 value)) trivial fun _ _ => trivial
  | increment =>
    apply Faithful.bind (faithful_settle _)
    intro delta _
    simp only [pure_bind]
    exact faithful_answer _ (.incrementCounter counter (Number.toInt64 delta)) trivial
      fun _ _ => trivial
  | reset =>
    simp only [pure_bind]
    exact faithful_answer _ (.setCounter counter 0) trivial fun _ _ => trivial

/-- So is working out what to trim. -/
theorem faithful_trim :
    Faithful rule provider Fault.source? (trimOf provider given) (trimOf .asking given)
      fun _ => True := by
  unfold trimOf
  cases given.string? "since" with
  | none =>
    cases given.get? "count" with
    | none => exact Faithful.throw _
    | some count => exact Faithful.bind (faithful_settle _) fun _ _ => Faithful.pure trivial
  | some since =>
    cases given.get? "count" with
    | some count => exact Faithful.throw _
    | none =>
      apply Faithful.bind (faithful_settle _)
      intro seconds _
      by_cases hlarge : Int64.maxValue.toInt < seconds
      · simp only [if_pos hlarge]
        exact Faithful.throw _
      · simp only [if_neg hlarge]
        apply Faithful.bind Faithful.clock
        intro now _
        cases timeBefore? now seconds with
        | none => exact Faithful.throw _
        | some time => exact Faithful.pure trivial

/-- So are the methods of a series. -/
theorem faithful_series (series : String) (method : SeriesMethod) :
    Faithful rule provider Fault.source? (method.call provider series given)
      (method.call .asking series given) (Value.Keyed rule) := by
  cases method with
  | last => exact faithful_answer _ (.seriesLast series) trivial fun _ _ => trivial
  | pop => exact faithful_answer _ (.seriesPop series) trivial fun _ _ => trivial
  | aggregate =>
    apply Faithful.bind (faithful_settle _)
    intro name _
    cases AggregateFunction.read? name with
    | none => exact Faithful.throw _
    | some function =>
      apply Faithful.bind (faithful_settle _)
      intro interval _
      apply Faithful.bind (faithful_settle _)
      exact fun count _ => faithful_answer _ (.seriesAggregate series function interval count)
        trivial fun _ _ => trivial
  | compute function =>
    apply Faithful.bind (faithful_settle _)
    exact fun window _ => faithful_answer _ (.seriesCompute series function window) trivial
      fun _ _ => trivial
  | push =>
    apply Faithful.bind (faithful_settle _)
    intro value _
    cases given.number? "timestamp" with
    | some time =>
      simp only [pure_bind]
      exact faithful_answer _ (.seriesPush series ⟨Number.toInt64 time, value⟩) trivial
        fun _ _ => trivial
    | none =>
      apply Faithful.bind Faithful.clock
      exact fun timestamp _ => faithful_answer _ (.seriesPush series ⟨timestamp, value⟩) trivial
        fun _ _ => trivial
  | trim =>
    apply Faithful.bind faithful_trim
    exact fun trim _ => faithful_answer _ (.seriesTrim series trim) trivial fun _ _ => trivial
  | items =>
    apply Faithful.bind (faithful_settle _)
    exact fun count _ => faithful_answer _ (.seriesItems series count) trivial fun _ _ => trivial

/-- So are the methods of the storage, given arguments keyed by the rule. -/
theorem faithful_storage (hgiven : Table.Keyed rule given.values) (method : StorageMethod) :
    Faithful rule provider Fault.source? (method.call provider given) (method.call .asking given)
      (Value.Keyed rule) := by
  apply Faithful.bind (faithful_settle _)
  intro key _
  cases method with
  | get =>
    exact faithful_answer _ (.readStorage key) trivial fun _ hanswer =>
      Value.keyed_ofJson _ hanswer
  | set =>
    apply Faithful.bind (Faithful.settle fun _ hmap => keyed_of_map_argument hgiven hmap)
    intro entries hentries
    rw [objectOf_eq]
    apply Faithful.bind (Faithful.settle fun _ hdocument => hdocument)
    exact fun document hdocument => faithful_answer _ (.writeStorage key document)
      ⟨entries, hentries, hdocument⟩ fun _ _ => trivial

/-- So are the methods of a keyed map. -/
theorem faithful_map {entries : Table Value} (hentries : (Value.map entries).Keyed rule)
    (hgiven : Table.Keyed rule given.values) (origin : Option String) (method : MapMethod) :
    Faithful rule provider Fault.source? (method.call entries origin given)
      (method.call entries origin given) (Value.Keyed rule) := by
  cases method with
  | item =>
    apply Faithful.bind (faithful_settle _)
    intro index _
    cases hget : Table.get? index entries with
    | none => exact Faithful.throw _
    | some value => exact Faithful.pure (hentries.entry hget)
  | count => exact Faithful.pure trivial
  | set =>
    apply Faithful.bind (faithful_settle _)
    intro index _
    apply Faithful.bind (Faithful.settle (givesKeyed_argument hgiven "value"))
    intro value hvalue
    cases origin with
    | none => exact Faithful.pure trivial
    | some variableName =>
      have hchanged := Value.keyed_map_insert hentries index hvalue
      exact Faithful.bind (Faithful.assign variableName hchanged) fun _ _ => Faithful.pure trivial

/-- So is every bound method. -/
theorem faithful_apply (hgiven : Table.Keyed rule given.values) {bound : BoundMethod}
    (hbound : Value.KeyedMethod rule bound) :
    Faithful rule provider Fault.source? (bound.apply provider given) (bound.apply .asking given)
      (Value.Keyed rule) := by
  cases bound with
  | ofGlobal method => exact faithful_global method
  | ofCounter counter method => exact faithful_counter counter method
  | ofSeries series method => exact faithful_series series method
  | ofStorage method => exact faithful_storage hgiven method
  | ofString text method => exact Faithful.settle (givesKeyed_string method text given)
  | ofArray items method => exact Faithful.settle (givesKeyed_array method hbound given)
  | ofMap entries origin method => exact faithful_map hbound hgiven origin method

/-- So is every call, its arguments being bound first. -/
theorem faithful_call {target : Value} (htarget : target.Keyed rule) (shown : String)
    {values : List (Option String × Value)}
    (hvalues : ∀ argument ∈ values, argument.2.Keyed rule) :
    Faithful rule provider Fault.source? (target.call provider shown values)
      (target.call .asking shown values) (Value.Keyed rule) := by
  cases target with
  | handle reference =>
    cases reference with
    | method bound =>
      apply Faithful.bind (Faithful.settle fun _ hgiven => keyed_bindArguments hvalues hgiven)
      exact fun given hgiven => faithful_apply hgiven htarget
    | global | storage | counter | series | point | aggregate => exact Faithful.throw _
  | null | boolean | number | string | array | map => exact Faithful.throw _

end Calls

/-! ## Expressions -/

/-- The failure of the provider behind a run-time error. -/
def RuntimeError.source? (error : RuntimeError) : Option ProviderError := error.fault.source?

theorem faithful_reported {α : Type} {action : RunM m Fault α} {asked : RunM Dialogue Fault α}
    {gives : α → Prop} (place : Position)
    (haction : Faithful rule provider Fault.source? action asked gives) :
    Faithful rule provider RuntimeError.source? (reported place action) (reported place asked)
      gives :=
  Faithful.mapError haction

theorem faithful_valueOf (name : String) :
    Faithful rule provider Fault.source? (valueOf name) (valueOf name) (Value.Keyed rule) := by
  apply Faithful.bind Faithful.current
  intro run hrun
  cases hget : Table.get? name run.bindings with
  | none => exact Faithful.throw _
  | some value => exact Faithful.pure (hrun.bindings _ (Table.mem_of_get? hget))

namespace Expr

mutual

/-- The evaluation of an expression is faithful to its dialogue. -/
theorem faithful_evaluate : (expression : Expr) →
    Faithful rule provider RuntimeError.source? (expression.evaluate provider)
      (expression.evaluate .asking) (Value.Keyed rule)
  | literal _ value => Faithful.pure (keyed_literal value)
  | array _ items => by
    apply Faithful.bind (faithful_evaluateItems items)
    exact fun values hvalues => Faithful.pure ((Value.keyedItems_iff values).2 hvalues)
  | map _ entries => by
    apply Faithful.bind (faithful_evaluateEntries entries)
    exact fun values hvalues => Faithful.pure (Value.keyed_map_ofList hvalues)
  | var place name => faithful_reported place (faithful_valueOf name)
  | binary place operator left right => by
    apply Faithful.bind (faithful_evaluate left)
    intro leftValue hleft
    apply Faithful.bind (faithful_evaluate right)
    intro rightValue hright
    apply faithful_reported
    apply Faithful.bind (leftValue.faithful_resolve hleft)
    intro leftData _
    apply Faithful.bind (rightValue.faithful_resolve hright)
    exact fun rightData _ => Faithful.settle (givesKeyed_operator operator leftData rightData)
  | unary place operator operand => by
    apply Faithful.bind (faithful_evaluate operand)
    intro value hvalue
    apply faithful_reported
    apply Faithful.bind (value.faithful_resolve hvalue)
    exact fun data _ => Faithful.settle (givesKeyed_unary operator data)
  | property _ target name => by
    apply Faithful.bind (faithful_evaluate target)
    intro value hvalue
    exact faithful_reported _ (Faithful.settle (givesKeyed_property hvalue name _))
  | call _ target arguments => by
    apply Faithful.bind (faithful_evaluateArguments arguments)
    intro values hvalues
    apply Faithful.bind (faithful_evaluate target)
    exact fun value hvalue => faithful_reported _ (faithful_call hvalue target.text hvalues)
  | global _ => Faithful.pure trivial
  | storage _ => Faithful.pure trivial

theorem faithful_evaluateItems : (items : List Expr) →
    Faithful rule provider RuntimeError.source? (evaluateItems provider items)
      (evaluateItems .asking items) fun values => ∀ value ∈ values, value.Keyed rule
  | [] => Faithful.pure (List.forall_mem_nil _)
  | item :: rest => by
    apply Faithful.bind (faithful_evaluate item)
    intro value hvalue
    apply Faithful.bind (faithful_reported item.position (value.faithful_resolve hvalue))
    intro first hfirst
    apply Faithful.bind (faithful_evaluateItems rest)
    exact fun others hothers => Faithful.pure (List.forall_mem_cons.2 ⟨hfirst, hothers⟩)

theorem faithful_evaluateEntries : (entries : List (String × Expr)) →
    Faithful rule provider RuntimeError.source? (evaluateEntries provider entries)
      (evaluateEntries .asking entries) fun values => ∀ entry ∈ values, entry.2.Keyed rule
  | [] => Faithful.pure (List.forall_mem_nil _)
  | (key, item) :: rest => by
    apply Faithful.bind (faithful_evaluate item)
    intro value hvalue
    apply Faithful.bind (faithful_reported item.position (value.faithful_resolve hvalue))
    intro first hfirst
    apply Faithful.bind (faithful_evaluateEntries rest)
    exact fun others hothers => Faithful.pure (List.forall_mem_cons.2 ⟨hfirst, hothers⟩)

theorem faithful_evaluateArguments : (arguments : List (Option String × Expr)) →
    Faithful rule provider RuntimeError.source? (evaluateArguments provider arguments)
      (evaluateArguments .asking arguments) fun values =>
        ∀ argument ∈ values, argument.2.Keyed rule
  | [] => Faithful.pure (List.forall_mem_nil _)
  | (name, item) :: rest => by
    apply Faithful.bind (faithful_evaluate item)
    intro value hvalue
    apply Faithful.bind (faithful_reported item.position (value.faithful_resolve hvalue))
    intro first hfirst
    apply Faithful.bind (faithful_evaluateArguments rest)
    exact fun others hothers => Faithful.pure (List.forall_mem_cons.2 ⟨hfirst, hothers⟩)

end

theorem faithful_data (expression : Expr) :
    Faithful rule provider RuntimeError.source? (expression.data provider)
      (expression.data .asking) (Value.Keyed rule) := by
  apply Faithful.bind (faithful_evaluate expression)
  exact fun value hvalue => faithful_reported _ (value.faithful_resolve hvalue)

theorem faithful_holds (condition : Expr) :
    Faithful rule provider RuntimeError.source? (condition.holds provider)
      (condition.holds .asking) fun _ => True := by
  apply Faithful.bind (faithful_data condition)
  exact fun value _ => faithful_reported _ (faithful_settle _)

end Expr

/-! ## Commands -/

def Stop.source? : Stop → Option ProviderError
  | .failed error => error.source?
  | .exhausted => none

theorem faithful_failed {α : Type} {action : RunM m RuntimeError α}
    {asked : RunM Dialogue RuntimeError α} {gives : α → Prop}
    (haction : Faithful rule provider RuntimeError.source? action asked gives) :
    Faithful rule provider Stop.source? (mapError .failed action) (mapError .failed asked) gives :=
  Faithful.mapError haction

/-- A loop is faithful if its passes are. -/
theorem faithful_repeatWhile {test : RunM m RuntimeError Bool} {body : RunM m Stop Unit}
    {askedTest : RunM Dialogue RuntimeError Bool} {askedBody : RunM Dialogue Stop Unit}
    (htest : Faithful rule provider RuntimeError.source? test askedTest fun _ => True)
    (hbody : Faithful rule provider Stop.source? body askedBody fun _ => True) (passes : Nat) :
    Faithful rule provider Stop.source? (repeatWhile test body passes)
      (repeatWhile askedTest askedBody passes) fun _ => True := by
  induction passes with
  | zero => exact Faithful.throw _
  | succ passes ih =>
    apply Faithful.bind (faithful_failed htest)
    intro holds _
    cases holds with
    | true => exact Faithful.bind hbody fun _ _ => ih
    | false => exact Faithful.pure trivial

namespace Command

variable {passes : Nat}

mutual

/-- The execution of a command is faithful to its dialogue. -/
theorem faithful_execute : (command : Command) →
    Faithful rule provider Stop.source? (command.execute provider passes)
      (command.execute .asking passes) fun _ => True
  | setVariable name value => by
    apply Faithful.bind (faithful_failed (Expr.faithful_evaluate value))
    exact fun result hresult => Faithful.assign name hresult
  | setOutput name value => by
    apply Faithful.bind (faithful_failed (Expr.faithful_data value))
    exact fun result hresult => Faithful.write name hresult
  | evaluate value => by
    apply Faithful.bind (faithful_failed (Expr.faithful_data value))
    exact fun _ _ => Faithful.pure trivial
  | ifElse condition thenBranch elseBranch => by
    apply Faithful.bind (faithful_failed (Expr.faithful_holds condition))
    intro holds _
    cases holds with
    | true => exact faithful_executeAll thenBranch
    | false => exact faithful_executeAll elseBranch
  | whileLoop condition body =>
    faithful_repeatWhile (Expr.faithful_holds condition) (faithful_executeAll body) passes

/-- A list of commands is faithful to its dialogue. -/
theorem faithful_executeAll : (commands : List Command) →
    Faithful rule provider Stop.source? (executeAll provider passes commands)
      (executeAll .asking passes commands) fun _ => True
  | [] => Faithful.pure trivial
  | command :: rest => by
    apply Faithful.bind (faithful_execute command)
    exact fun _ _ => faithful_executeAll rest

end

end Command

end MetricScript
