import Mathlib
import MetricScript.Proofs.Run.ProviderFailure
import MetricScript.Proofs.Run.SideBySide

/-!
# Scripts correspond to their renamings

Resolving takes no notice of names at all, and a call is told apart from its counterpart only by
the variable that a map is written back to.  So evaluating and executing are the same action on
both sides, for every provider and every naming.
-/

namespace MetricScript

open RunM Naming

variable {m : Type → Type} [Monad m] [LawfulMonad m] {provider : Provider m} {naming : Naming}

/-- An operation of the provider, after which something is made of the answer. -/
theorem corresponds_answer (label : String) {operation : Operation}
    (hasks : operation.Allowed naming.toVocabulary) {shown : operation.Answer → Value}
    (hshown : ∀ answer, naming.Pairs (shown answer) (shown answer)) :
    Corresponds naming (Fault.Renamed naming.rename) naming.Pairs
      (do return shown (← perform provider label operation))
      (do return shown (← perform provider label operation)) :=
  Corresponds.bind_same (Corresponds.perform provider label hasks)
    fun answer _ => Corresponds.pure (hshown answer)

/-! ## Resolving -/

theorem corresponds_handle_resolve (reference : Handle) :
    Corresponds naming (Fault.Renamed naming.rename) (Same Value.Plain)
      (reference.resolve provider) (reference.resolve provider) := by
  cases reference with
  | counter name =>
    apply Corresponds.bind_same (Corresponds.perform provider _ (.inl rfl))
    exact fun value _ => Corresponds.pure ⟨rfl, trivial⟩
  | point sample => exact Corresponds.pure ⟨rfl, trivial⟩
  | aggregate points => exact Corresponds.pure ⟨rfl, plain_pointValues points⟩
  | global | storage | series | method => exact Corresponds.throw (.same _)

namespace Value

mutual

theorem corresponds_resolve : (value : Value) →
    Corresponds naming (Fault.Renamed naming.rename) (Same Plain) (value.resolve provider)
      (value.resolve provider)
  | array items => by
    apply Corresponds.bind_same (corresponds_resolveItems items)
    exact fun resolved hresolved => Corresponds.pure ⟨rfl, hresolved⟩
  | map entries => by
    apply Corresponds.bind_same (corresponds_resolveEntries entries)
    exact fun resolved hresolved => Corresponds.pure ⟨rfl, hresolved⟩
  | handle reference => corresponds_handle_resolve reference
  | null | boolean _ | number _ | string _ => Corresponds.pure ⟨rfl, trivial⟩

theorem corresponds_resolveItems : (items : List Value) →
    Corresponds naming (Fault.Renamed naming.rename) (Same PlainItems)
      (resolveItems provider items) (resolveItems provider items)
  | [] => Corresponds.pure ⟨rfl, trivial⟩
  | item :: rest => by
    apply Corresponds.bind_same (corresponds_resolve item)
    intro first hfirst
    apply Corresponds.bind_same (corresponds_resolveItems rest)
    exact fun others hothers => Corresponds.pure ⟨rfl, hfirst, hothers⟩

theorem corresponds_resolveEntries : (entries : List (String × Value)) →
    Corresponds naming (Fault.Renamed naming.rename) (Same PlainEntries)
      (resolveEntries provider entries) (resolveEntries provider entries)
  | [] => Corresponds.pure ⟨rfl, trivial⟩
  | (key, value) :: rest => by
    apply Corresponds.bind_same (corresponds_resolve value)
    intro first hfirst
    apply Corresponds.bind_same (corresponds_resolveEntries rest)
    exact fun others hothers => Corresponds.pure ⟨rfl, hfirst, hothers⟩

end

end Value

/-- Values that belong together stand for the same data. -/
theorem Naming.Pairs.resolve {left right : Value} (hpairs : naming.Pairs left right) :
    Corresponds naming (Fault.Renamed naming.rename) (Same Value.Plain) (left.resolve provider)
      (right.resolve provider) := by
  rw [hpairs.renamed, Value.resolve_renamed]
  exact left.corresponds_resolve

/-! ## Calls -/

section Calls

variable {given : Arguments}

theorem corresponds_http (method : HttpMethod)
    (hasks : ∀ request, (Operation.http request).Allowed naming.toVocabulary) :
    Corresponds naming (Fault.Renamed naming.rename) naming.Pairs
      (callHttp provider method given) (callHttp provider method given) := by
  apply Corresponds.bind_same (Corresponds.settle _)
  exact fun request _ => corresponds_answer _ (hasks request) fun response =>
    pairs_of_plain (plain_response response)

/-- Loading does the same in both runs, where the vocabulary has it. -/
theorem corresponds_load (hname : naming.propertyNames "load") :
    Corresponds naming (Fault.Renamed naming.rename) naming.Pairs (callLoad provider given)
      (callLoad provider given) := by
  apply Corresponds.bind_same (Corresponds.settle _)
  intro format _
  dsimp only
  split
  · exact Corresponds.throw (.same _)
  · apply Corresponds.bind_same (Corresponds.settle _)
    intro path _
    apply Corresponds.bind_same (Corresponds.perform provider _
      (.inr ⟨"load", List.mem_cons_self, hname⟩))
    intro text _
    cases Json.read? text with
    | some document => exact Corresponds.pure (pairs_of_plain (Value.plain_ofJson document))
    | none => exact Corresponds.throw (.same _)

/-- A global method does the same in both runs. -/
theorem corresponds_global {method : GlobalMethod} (hname : naming.propertyNames method.name) :
    Corresponds naming (Fault.Renamed naming.rename) naming.Pairs (method.call provider given)
      (method.call provider given) := by
  cases method with
  | now =>
    apply Corresponds.bind_same (Corresponds.clock provider)
    exact fun time _ => Corresponds.pure (pairs_of_plain trivial)
  | counter | series =>
    apply Corresponds.bind_same (Corresponds.settle _)
    exact fun name _ => Corresponds.pure ⟨rfl, Value.within_of_methods rfl⟩
  | get =>
    exact corresponds_http .get fun _ => .inr ⟨"get", List.mem_cons_self, hname⟩
  | post =>
    exact corresponds_http .post fun _ =>
      .inr ⟨"post", List.mem_cons_of_mem _ List.mem_cons_self, hname⟩
  | arg =>
    apply Corresponds.bind_same (Corresponds.settle _)
    intro name _
    apply Corresponds.bind Corresponds.current
    intro run other hpaired
    rw [hpaired.argument name]
    cases hget : Table.get? name run.arguments with
    | none => exact Corresponds.throw (.same _)
    | some value =>
      exact Corresponds.pure ⟨rfl, hpaired.argumentsWithin _ (Table.mem_of_get? hget)⟩
  | log =>
    apply Corresponds.bind_same (Corresponds.settle _)
    intro message _
    apply Corresponds.bind_same (Corresponds.log message)
    exact fun _ _ => Corresponds.pure (pairs_of_plain trivial)
  | error =>
    apply Corresponds.bind_same (Corresponds.settle _)
    exact fun message _ => Corresponds.throw (.same _)
  | anomaly =>
    apply Corresponds.bind_same (Corresponds.settle _)
    intro data _
    apply Corresponds.bind_same (Corresponds.settle _)
    exact fun value _ => Corresponds.pure (pairs_of_plain trivial)
  | load => exact corresponds_load hname

theorem corresponds_counter (counter : String) {method : CounterMethod}
    (hname : naming.propertyNames method.name) :
    Corresponds naming (Fault.Renamed naming.rename) naming.Pairs
      (method.call provider counter given) (method.call provider counter given) := by
  have hanswer : ∀ operation : Operation, method.name ∈ operation.methodNames →
      Corresponds naming (Fault.Renamed naming.rename) naming.Pairs
        (do
          let _ ← perform provider
            (quotedCall "counter" counter ++ "." ++ method.name ++ "()") operation
          return Value.null)
        (do
          let _ ← perform provider
            (quotedCall "counter" counter ++ "." ++ method.name ++ "()") operation
          return Value.null) := fun operation hmethod =>
    corresponds_answer _ (.inr ⟨_, hmethod, hname⟩) fun _ => pairs_of_plain trivial
  unfold CounterMethod.call
  cases method with
  | set =>
    apply Corresponds.bind_same (Corresponds.settle _)
    intro value _
    simp only [pure_bind]
    exact hanswer _ List.mem_cons_self
  | increment =>
    apply Corresponds.bind_same (Corresponds.settle _)
    intro delta _
    simp only [pure_bind]
    exact hanswer _ List.mem_cons_self
  | reset =>
    simp only [pure_bind]
    exact hanswer _ (List.mem_cons_of_mem _ List.mem_cons_self)

/-- Working out what to trim does the same in both runs. -/
theorem corresponds_trim :
    Corresponds naming (Fault.Renamed naming.rename) (Same fun _ => True)
      (trimOf provider given) (trimOf provider given) := by
  unfold trimOf
  cases given.string? "since" with
  | none =>
    cases given.get? "count" with
    | none => exact Corresponds.throw (.same _)
    | some count =>
      apply Corresponds.bind_same (Corresponds.settle _)
      exact fun samples _ => Corresponds.pure ⟨rfl, trivial⟩
  | some since =>
    cases given.get? "count" with
    | some count => exact Corresponds.throw (.same _)
    | none =>
      apply Corresponds.bind_same (Corresponds.settle _)
      intro seconds _
      by_cases hlarge : Int64.maxValue.toInt < seconds
      · simp only [if_pos hlarge]
        exact Corresponds.throw (.same _)
      · simp only [if_neg hlarge]
        apply Corresponds.bind_same (Corresponds.clock provider)
        intro now _
        cases timeBefore? now seconds with
        | none => exact Corresponds.throw (.same _)
        | some time => exact Corresponds.pure ⟨rfl, trivial⟩

/-- A series method does the same in both runs. -/
theorem corresponds_series (series : String) {method : SeriesMethod}
    (hname : naming.propertyNames method.name) :
    Corresponds naming (Fault.Renamed naming.rename) naming.Pairs
      (method.call provider series given) (method.call provider series given) := by
  have hallowed : ∀ operation : Operation, operation.methodNames = [method.name] →
      operation.Allowed naming.toVocabulary := fun operation hnames =>
    .inr ⟨method.name, hnames ▸ List.mem_cons_self, hname⟩
  have hhandle : ∀ points, naming.Pairs (.handle (.aggregate points))
      (.handle (.aggregate points)) := fun _ => ⟨rfl, Value.within_of_methods rfl⟩
  cases method with
  | last => exact corresponds_answer _ (hallowed _ rfl) fun _ => ⟨rfl, Value.within_of_methods rfl⟩
  | pop => exact corresponds_answer _ (hallowed _ rfl) fun _ => ⟨rfl, Value.within_of_methods rfl⟩
  | aggregate =>
    apply Corresponds.bind_same (Corresponds.settle _)
    intro name _
    cases AggregateFunction.read? name with
    | none => exact Corresponds.throw (.same _)
    | some function =>
      apply Corresponds.bind_same (Corresponds.settle _)
      intro interval _
      apply Corresponds.bind_same (Corresponds.settle _)
      exact fun count _ => corresponds_answer _ (hallowed _ rfl) hhandle
  | compute function =>
    apply Corresponds.bind_same (Corresponds.settle _)
    exact fun window _ => corresponds_answer _ (hallowed _ rfl) fun _ => pairs_of_plain trivial
  | push =>
    apply Corresponds.bind_same (Corresponds.settle _)
    intro value _
    cases given.number? "timestamp" with
    | some time =>
      simp only [pure_bind]
      exact corresponds_answer _ (hallowed _ rfl) fun _ => pairs_of_plain trivial
    | none =>
      apply Corresponds.bind_same (Corresponds.clock provider)
      exact fun timestamp _ => corresponds_answer _ (hallowed _ rfl) fun _ => pairs_of_plain trivial
  | trim =>
    apply Corresponds.bind_same corresponds_trim
    exact fun trim _ => corresponds_answer _ (hallowed _ rfl) fun _ => pairs_of_plain trivial
  | items =>
    apply Corresponds.bind_same (Corresponds.settle _)
    exact fun count _ => corresponds_answer _ (hallowed _ rfl) hhandle

theorem corresponds_storage {method : StorageMethod} (hname : naming.propertyNames method.name) :
    Corresponds naming (Fault.Renamed naming.rename) naming.Pairs (method.call provider given)
      (method.call provider given) := by
  apply Corresponds.bind_same (Corresponds.settle _)
  intro key _
  cases method with
  | get =>
    exact corresponds_answer _ (.inr ⟨"get", List.mem_cons_self, hname⟩) fun _ =>
      pairs_of_plain (Value.plain_ofJson _)
  | set =>
    apply Corresponds.bind_same (Corresponds.settle _)
    intro entries _
    apply Corresponds.bind_same (Corresponds.settle _)
    exact fun document _ => corresponds_answer _ (.inr ⟨"set", List.mem_cons_self, hname⟩) fun _ =>
      pairs_of_plain trivial

/-- Setting an entry writes the map back to the variable that it came from, under its own name
on each side. -/
theorem corresponds_map {entries : Table Value}
    (hentries : (Value.map entries).Within naming.toVocabulary) {origin : Option String}
    (horigin : ∀ name, origin = some name → naming.variableNames name)
    (hgiven : Table.Plain given.values) (method : MapMethod) :
    Corresponds naming (Fault.Renamed naming.rename) naming.Pairs
      (method.call entries origin given : RunM m Fault Value)
      (method.call (Table.mapValues (Value.renamed naming.rename) entries)
        (origin.map naming.rename) given) := by
  have hentry := Value.within_map.1 hentries
  cases method with
  | item =>
    apply Corresponds.bind_same (Corresponds.settle _)
    intro index _
    rw [Table.get?_mapValues]
    cases hget : Table.get? index entries with
    | none => exact Corresponds.throw (.same _)
    | some value => exact Corresponds.pure ⟨rfl, hentry _ (Table.mem_of_get? hget)⟩
  | count =>
    have hcount : countOf (Table.mapValues (Value.renamed naming.rename) entries) =
        countOf entries := congrArg Float.ofNat (List.length_map _)
    unfold MapMethod.call
    rw [hcount]
    exact Corresponds.pure (pairs_of_plain trivial)
  | set =>
    apply Corresponds.bind_same (Corresponds.settle _)
    intro index _
    apply Corresponds.bind_same (Corresponds.settle _)
    intro value hvalue
    have hplain : value.Plain := givesPlain_argument hgiven "value" value hvalue
    cases origin with
    | none => exact Corresponds.pure (pairs_of_plain trivial)
    | some name =>
      have hchanged : naming.Pairs (.map (Table.insert index value entries))
          (.map (Table.insert index value
            (Table.mapValues (Value.renamed naming.rename) entries))) := by
        refine ⟨?_, Value.within_map.2 (Table.forall_insert hentry index hplain.within)⟩
        rw [Value.renamed, Value.renamedEntries_eq, ← Table.insert_mapValues, hplain.renamed]
      apply Corresponds.bind_same (Corresponds.assign (horigin name rfl) hchanged)
      exact fun _ _ => Corresponds.pure (pairs_of_plain trivial)

/-- A bound method and its renamed counterpart do the same in both runs. -/
theorem corresponds_apply {bound : BoundMethod}
    (hbound : (Value.handle (.method bound)).Within naming.toVocabulary)
    (hgiven : Table.Plain given.values) :
    Corresponds naming (Fault.Renamed naming.rename) naming.Pairs (bound.apply provider given)
      ((Value.renamedMethod naming.rename bound).apply provider given) := by
  cases bound with
  | ofGlobal method => exact corresponds_global (hbound _ List.mem_cons_self)
  | ofCounter counter method => exact corresponds_counter counter (hbound _ List.mem_cons_self)
  | ofSeries series method => exact corresponds_series series (hbound _ List.mem_cons_self)
  | ofStorage method => exact corresponds_storage (hbound _ List.mem_cons_self)
  | ofString text method =>
    apply (Corresponds.settle (method.apply text given)).mono
    rintro value _ ⟨rfl, hvalue⟩
    exact pairs_of_plain (givesPlain_string method text given value hvalue)
  | ofArray items method =>
    change Corresponds naming _ _ _ (settle (method.apply (Value.renamedItems _ items) given))
    rw [Value.renamedItems_eq, apply_renamed]
    exact Corresponds.settle_renamed fun value =>
      within_of_arrayMethod (Value.within_ofArray.1 hbound) method
  | ofMap entries origin method =>
    obtain ⟨horigin, hentries⟩ := Value.within_ofMap.1 hbound
    change Corresponds naming _ _ _
      (method.call (Value.renamedEntries _ entries) (origin.map naming.rename) given)
    rw [Value.renamedEntries_eq]
    exact corresponds_map hentries horigin hgiven method

/-- Calls of paired values with the same plain arguments do the same in both runs. -/
theorem corresponds_call {left right : Value} (hpairs : naming.Pairs left right) (target : Expr)
    {values : List (Option String × Value)} (hvalues : ∀ argument ∈ values, argument.2.Plain) :
    Corresponds naming (Fault.Renamed naming.rename) naming.Pairs
      (left.call provider target.text values)
      (right.call provider (target.renamed naming.rename).text values) := by
  rw [hpairs.renamed]
  cases left with
  | handle reference =>
    cases reference with
    | method bound =>
      change Corresponds naming _ _ (bound.call provider values)
        ((Value.renamedMethod naming.rename bound).call provider values)
      unfold BoundMethod.call
      rw [Value.name_renamedMethod, Value.params_renamedMethod]
      apply Corresponds.bind_same (Corresponds.settle _)
      exact fun given hgiven =>
        corresponds_apply hpairs.within (plain_bindArguments hvalues hgiven)
    | global | storage | counter | series | point | aggregate =>
      exact Corresponds.throw (.notCallable target)
  | null | boolean | number | string | array | map => exact Corresponds.throw (.notCallable target)

end Calls

/-! ## Expressions -/

theorem corresponds_reported {α : Type} {gives : α → α → Prop} {left right : RunM m Fault α}
    (haction : Corresponds naming (Fault.Renamed naming.rename) gives left right)
    (place : Position) :
    Corresponds naming (RuntimeError.Renamed naming.rename) gives (reported place left)
      (reported place right) :=
  haction.mapError fun _ _ hfault => ⟨hfault, rfl⟩

theorem corresponds_valueOf {name : String} :
    Corresponds naming (Fault.Renamed naming.rename) naming.Pairs
      (valueOf name : RunM m Fault Value) (valueOf (naming.rename name)) := by
  apply Corresponds.bind Corresponds.current
  intro run other hpaired
  rw [hpaired.bindings name]
  cases hget : Table.get? name run.bindings with
  | none => exact Corresponds.throw (.unknownVariable name)
  | some value => exact Corresponds.pure ⟨rfl, hpaired.bindingsWithin _ (Table.mem_of_get? hget)⟩

namespace Expr

/-- An item is evaluated, and something is done with its data. -/
theorem corresponds_resolved {α : Type} {gives : α → α → Prop} {item : Expr}
    {next other : Value → RunM m RuntimeError α}
    (hitem : Corresponds naming (RuntimeError.Renamed naming.rename) naming.Pairs
      (item.evaluate provider) ((item.renamed naming.rename).evaluate provider))
    (hnext : ∀ data : Value, data.Plain →
      Corresponds naming (RuntimeError.Renamed naming.rename) gives (next data) (other data)) :
    Corresponds naming (RuntimeError.Renamed naming.rename) gives
      (item.evaluate provider >>= fun value =>
        reported item.position (value.resolve provider) >>= next)
      ((item.renamed naming.rename).evaluate provider >>= fun value =>
        reported (item.renamed naming.rename).position (value.resolve provider) >>= other) := by
  rw [position_renamed]
  apply Corresponds.bind hitem
  intro value counterpart hpairs
  exact Corresponds.bind_same (corresponds_reported hpairs.resolve item.position) hnext

mutual

/-- An expression and its renamed counterpart do the same in both runs. -/
theorem corresponds_evaluate : (expression : Expr) → expression.Within naming.toVocabulary →
    Corresponds naming (RuntimeError.Renamed naming.rename) naming.Pairs
      (expression.evaluate provider) ((expression.renamed naming.rename).evaluate provider)
  | literal _ value, _ => by
    apply Corresponds.pure
    cases value with
    | null | boolean | number | string => exact pairs_of_plain trivial
  | array _ items, hwithin => by
    have hitems := (List.forall_mem_cons.1 hwithin).2
    apply Corresponds.bind_same (corresponds_evaluateItems items hitems)
    exact fun values hvalues => Corresponds.pure (pairs_of_plain (Value.plain_array hvalues))
  | map _ entries, hwithin => by
    have hentries := (List.forall_mem_cons.1 hwithin).2
    apply Corresponds.bind_same (corresponds_evaluateEntries entries hentries)
    exact fun values hvalues =>
      Corresponds.pure (pairs_of_plain (Value.plain_map (Table.forall_ofList hvalues)))
  | var place name, _ => corresponds_reported corresponds_valueOf place
  | binary place operator left right, hwithin => by
    obtain ⟨hleft, hright⟩ := List.forall_mem_append.1 (List.forall_mem_cons.1 hwithin).2
    apply Corresponds.bind (corresponds_evaluate left hleft)
    intro leftValue leftOther hleftPairs
    apply Corresponds.bind (corresponds_evaluate right hright)
    intro rightValue rightOther hrightPairs
    apply corresponds_reported
    apply Corresponds.bind_same hleftPairs.resolve
    intro leftData _
    apply Corresponds.bind_same hrightPairs.resolve
    intro rightData _
    apply (Corresponds.settle (operator.apply leftData rightData)).mono
    rintro value _ ⟨rfl, hvalue⟩
    exact pairs_of_plain (givesPlain_operator operator leftData rightData value hvalue)
  | unary place operator operand, hwithin => by
    have hoperand := (List.forall_mem_cons.1 hwithin).2
    apply Corresponds.bind (corresponds_evaluate operand hoperand)
    intro value other hpairs
    apply corresponds_reported
    apply Corresponds.bind_same hpairs.resolve
    intro data _
    apply (Corresponds.settle (operator.apply data)).mono
    rintro result _ ⟨rfl, hresult⟩
    exact pairs_of_plain (givesPlain_unary operator data result hresult)
  | property _ target name, hwithin => by
    obtain ⟨hname, htarget⟩ := List.forall_mem_cons.1 hwithin
    apply Corresponds.bind (corresponds_evaluate target htarget)
    intro value other hpairs
    rw [hpairs.renamed, position_renamed, variableName?_renamed, property_renamed]
    refine corresponds_reported (Corresponds.settle_renamed fun result hresult => ?_) _
    exact within_of_property hpairs.within hname (fun _ => Within.variableName htarget) hresult
  | call _ target arguments, hwithin => by
    obtain ⟨htarget, harguments⟩ := List.forall_mem_append.1 (List.forall_mem_cons.1 hwithin).2
    apply Corresponds.bind_same (corresponds_evaluateArguments arguments harguments)
    intro values hvalues
    apply Corresponds.bind (corresponds_evaluate target htarget)
    intro value other hpairs
    rw [position_renamed]
    exact corresponds_reported (corresponds_call hpairs target hvalues) _
  | global _, _ => Corresponds.pure ⟨rfl, Value.within_of_methods rfl⟩
  | storage _, _ => Corresponds.pure ⟨rfl, Value.within_of_methods rfl⟩

theorem corresponds_evaluateItems : (items : List Expr) →
    (∀ node ∈ itemNodes items, node.Named naming.toVocabulary) →
    Corresponds naming (RuntimeError.Renamed naming.rename)
      (Same fun values => ∀ value ∈ values, value.Plain) (evaluateItems provider items)
      (evaluateItems provider (renamedItems naming.rename items))
  | [], _ => Corresponds.pure ⟨rfl, List.forall_mem_nil _⟩
  | item :: rest, hwithin => by
    obtain ⟨hitem, hrest⟩ := List.forall_mem_append.1 hwithin
    apply corresponds_resolved (corresponds_evaluate item hitem)
    intro first hfirst
    apply Corresponds.bind_same (corresponds_evaluateItems rest hrest)
    exact fun others hothers =>
      Corresponds.pure ⟨rfl, List.forall_mem_cons.2 ⟨hfirst, hothers⟩⟩

theorem corresponds_evaluateEntries : (entries : List (String × Expr)) →
    (∀ node ∈ entryNodes entries, node.Named naming.toVocabulary) →
    Corresponds naming (RuntimeError.Renamed naming.rename)
      (Same fun values => ∀ entry ∈ values, entry.2.Plain) (evaluateEntries provider entries)
      (evaluateEntries provider (renamedEntries naming.rename entries))
  | [], _ => Corresponds.pure ⟨rfl, List.forall_mem_nil _⟩
  | (key, item) :: rest, hwithin => by
    obtain ⟨hitem, hrest⟩ := List.forall_mem_append.1 hwithin
    apply corresponds_resolved (corresponds_evaluate item hitem)
    intro first hfirst
    apply Corresponds.bind_same (corresponds_evaluateEntries rest hrest)
    exact fun others hothers =>
      Corresponds.pure ⟨rfl, List.forall_mem_cons.2 ⟨hfirst, hothers⟩⟩

theorem corresponds_evaluateArguments : (arguments : List (Option String × Expr)) →
    (∀ node ∈ argumentNodes arguments, node.Named naming.toVocabulary) →
    Corresponds naming (RuntimeError.Renamed naming.rename)
      (Same fun values => ∀ argument ∈ values, argument.2.Plain)
      (evaluateArguments provider arguments)
      (evaluateArguments provider (renamedArguments naming.rename arguments))
  | [], _ => Corresponds.pure ⟨rfl, List.forall_mem_nil _⟩
  | (name, item) :: rest, hwithin => by
    obtain ⟨hitem, hrest⟩ := List.forall_mem_append.1 hwithin
    apply corresponds_resolved (corresponds_evaluate item hitem)
    intro first hfirst
    apply Corresponds.bind_same (corresponds_evaluateArguments rest hrest)
    exact fun others hothers =>
      Corresponds.pure ⟨rfl, List.forall_mem_cons.2 ⟨hfirst, hothers⟩⟩

end

theorem corresponds_data {expression : Expr} (hwithin : expression.Within naming.toVocabulary) :
    Corresponds naming (RuntimeError.Renamed naming.rename) (Same Value.Plain)
      (expression.data provider) ((expression.renamed naming.rename).data provider) := by
  unfold data
  rw [position_renamed]
  apply Corresponds.bind (corresponds_evaluate expression hwithin)
  exact fun value other hpairs => corresponds_reported hpairs.resolve _

theorem corresponds_holds {condition : Expr} (hwithin : condition.Within naming.toVocabulary) :
    Corresponds naming (RuntimeError.Renamed naming.rename) (Same fun _ => True)
      (condition.holds provider) ((condition.renamed naming.rename).holds provider) := by
  unfold holds
  rw [position_renamed]
  apply Corresponds.bind_same (corresponds_data hwithin)
  intro value _
  apply corresponds_reported
  apply (Corresponds.settle value.toBoolean).mono
  rintro truth _ ⟨rfl, _⟩
  exact ⟨rfl, trivial⟩

end Expr

/-! ## Commands -/

theorem corresponds_failed {α : Type} {gives : α → α → Prop} {left right : RunM m RuntimeError α}
    (haction : Corresponds naming (RuntimeError.Renamed naming.rename) gives left right) :
    Corresponds naming (Stop.Renamed naming.rename) gives (mapError .failed left)
      (mapError .failed right) :=
  haction.mapError fun _ _ herror => .failed herror

/-- Loops correspond if their passes do. -/
theorem corresponds_repeatWhile {test otherTest : RunM m RuntimeError Bool}
    {body otherBody : RunM m Stop Unit}
    (htest : Corresponds naming (RuntimeError.Renamed naming.rename) (Same fun _ => True) test
      otherTest)
    (hbody : Corresponds naming (Stop.Renamed naming.rename) (Same fun _ => True) body otherBody)
    (passes : Nat) :
    Corresponds naming (Stop.Renamed naming.rename) (Same fun _ => True)
      (repeatWhile test body passes) (repeatWhile otherTest otherBody passes) := by
  induction passes with
  | zero => exact Corresponds.throw .exhausted
  | succ passes ih =>
    apply Corresponds.bind_same (corresponds_failed htest)
    intro holds _
    cases holds with
    | true => exact Corresponds.bind_same hbody fun _ _ => ih
    | false => exact Corresponds.pure ⟨rfl, trivial⟩

namespace Command

variable {passes : Nat}

mutual

/-- A command and its renamed counterpart do the same in both runs. -/
theorem corresponds_execute : (command : Command) → command.Within naming.toVocabulary →
    Corresponds naming (Stop.Renamed naming.rename) (Same fun _ => True)
      (command.execute provider passes)
      ((command.renamed naming.rename).execute provider passes)
  | setVariable name value, hwithin => by
    apply Corresponds.bind (corresponds_failed (Expr.corresponds_evaluate value hwithin.2))
    exact fun result other hpairs => Corresponds.assign hwithin.1 hpairs
  | setOutput name value, hwithin => by
    apply Corresponds.bind_same (corresponds_failed (Expr.corresponds_data hwithin.2))
    exact fun result _ => Corresponds.write hwithin.1 result
  | evaluate value, hwithin => by
    apply Corresponds.bind_same (corresponds_failed (Expr.corresponds_data hwithin))
    exact fun _ _ => Corresponds.pure ⟨rfl, trivial⟩
  | ifElse condition thenBranch elseBranch, hwithin => by
    apply Corresponds.bind_same (corresponds_failed (Expr.corresponds_holds hwithin.1))
    intro holds _
    cases holds with
    | true => exact corresponds_executeAll thenBranch hwithin.2.1
    | false => exact corresponds_executeAll elseBranch hwithin.2.2
  | whileLoop condition body, hwithin =>
    corresponds_repeatWhile (Expr.corresponds_holds hwithin.1)
      (corresponds_executeAll body hwithin.2) passes

/-- A list of commands and its renamed counterpart do the same in both runs. -/
theorem corresponds_executeAll : (commands : List Command) →
    AllWithin naming.toVocabulary commands →
    Corresponds naming (Stop.Renamed naming.rename) (Same fun _ => True)
      (executeAll provider passes commands)
      (executeAll provider passes (allRenamed naming.rename commands))
  | [], _ => Corresponds.pure ⟨rfl, trivial⟩
  | command :: rest, hwithin => by
    apply Corresponds.bind_same (corresponds_execute command hwithin.1)
    exact fun _ _ => corresponds_executeAll rest hwithin.2

end

end Command

/-! ## Scripts -/

/-- A script within a vocabulary never uses another name, also not by way of a method that was
kept in a variable. -/
theorem Script.always_within {vocabulary : Vocabulary} {script : Script}
    (hscript : Command.AllWithin vocabulary script) {arguments : Table Value}
    (harguments : ∀ entry ∈ arguments, entry.2.Within vocabulary) (provider : Provider m)
    (passes : Nat) :
    Always (script.run provider passes arguments) fun ended =>
      ∃ events, ended.2 = ({ arguments } : Run).afterAll events ∧
        ∀ event ∈ events, event.Within vocabulary := by
  have hcorresponds : Corresponds (kept vocabulary) (Stop.Renamed id) (Same fun _ => True)
      (Command.executeAll provider passes script)
      (Command.executeAll provider passes (Command.allRenamed id script)) :=
    Command.corresponds_executeAll script hscript
  rw [run_eq]
  apply always_bind (hcorresponds _ _ (paired_start harguments)).always
  rintro ended ⟨other, events, hends⟩
  exact always_pure ⟨events, hends.told, hends.within⟩

end MetricScript
