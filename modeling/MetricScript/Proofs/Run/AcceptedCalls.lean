import Mathlib
import MetricScript.Run.Calls
import MetricScript.Provider.Memory
import MetricScript.Proofs.Method.Accessors
import MetricScript.Proofs.Run.Faithful

/-!
# Calls with accepted arguments

What a method needs is declared in its parameters and used in its body.  If the arguments of a
call could be bound to the parameters, then the body never finds that one is missing: whatever
it asks for is there and of the right kind.  A body may still fail for other reasons, because
of what the arguments say or because of the provider.
-/

namespace MetricScript

open RunM

variable {m : Type → Type} [Monad m] {α β ε : Type}

/-! ## Why an action stops -/

/-- If the action stops then with an allowed error. -/
def FailsWithin (allowed : ε → Prop) (action : RunM m ε α) : Prop :=
  ∀ run, Always (outcome action run) fun ending => ErrsWithin allowed ending.1

namespace FailsWithin

variable [LawfulMonad m] {allowed : ε → Prop}

theorem pure (value : α) : FailsWithin allowed (Pure.pure value : RunM m ε α) :=
  fun _ => always_pure (.ok value)

theorem throw {error : ε} (herror : allowed error) :
    FailsWithin allowed (MonadExcept.throw error : RunM m ε α) :=
  fun _ => always_pure (.error herror)

theorem bind {action : RunM m ε α} {next : α → RunM m ε β} (haction : FailsWithin allowed action)
    (hnext : ∀ value, FailsWithin allowed (next value)) :
    FailsWithin allowed (action >>= next) := by
  intro run
  rw [outcome_bind]
  apply always_bind (haction run)
  rintro ⟨result, left⟩ hresult
  cases result with
  | ok value => exact hnext value left
  | error error => exact always_pure (.error (hresult error rfl))

theorem settle {result : Except ε α} (hresult : ErrsWithin allowed result) :
    FailsWithin allowed (RunM.settle result : RunM m ε α) := by
  cases result with
  | ok value => exact pure value
  | error error => exact throw (hresult error rfl)

theorem current : FailsWithin allowed (RunM.current : RunM m ε Run) := by
  intro run
  rw [outcome_current]
  exact always_pure (.ok run)

theorem note (event : Event) : FailsWithin allowed (RunM.note event : RunM m ε Unit) := by
  intro run
  unfold RunM.note
  rw [outcome_modify]
  exact always_pure (.ok ())

theorem assign (name : String) (value : Value) :
    FailsWithin allowed (RunM.assign name value : RunM m ε Unit) := by
  intro run
  rw [outcome_assign]
  exact always_pure (.ok ())

variable (provider : Provider m)

theorem clock : FailsWithin allowed (RunM.clock provider : RunM m ε Int64) := by
  intro run
  rw [outcome_clock]
  exact always_bind (always_true provider.now) fun time _ => always_pure (.ok time)

/-- An operation stops a run with the failure of the provider only. -/
theorem perform {allowed : Fault → Prop} (label : String) (operation : Operation)
    (hallowed : ∀ error, allowed (.provider label error)) :
    FailsWithin allowed (RunM.perform provider label operation) := by
  intro run
  rw [outcome_perform]
  apply always_bind (always_true (provider.perform operation))
  rintro (error | answer) _
  · exact always_pure (.error (hallowed error))
  · exact always_pure (.ok answer)

end FailsWithin

/-! ## What faults are about -/

/-- The fault is about a value, whatever it is an argument of. -/
def Fault.OfValue : Fault → Prop
  | .invalidNumber _ | .nonNumericElement _ _ | .typeMismatch _ _ | .notEvaluable _
  | .indexOutOfRange _ => True
  | _ => False

/-- The fault is not that an argument is missing. -/
def Fault.NotMissing : Fault → Prop
  | .missingArgument _ _ => False
  | _ => True

theorem Fault.OfValue.notMissing {fault : Fault} (hfault : fault.OfValue) :
    fault.NotMissing := by
  cases fault with
  | missingArgument => exact hfault
  | _ => exact trivial

namespace Value

theorem toNumber_errs (value : Value) : ErrsWithin Fault.OfValue value.toNumber := by
  cases value with
  | number x => exact .ok x
  | string text =>
    simp only [toNumber]
    split
    · exact .ok _
    · exact .error trivial
  | null | boolean | array | map | handle => exact .error trivial

theorem numbersFrom_errs (index : Nat) (items : List Value) :
    ErrsWithin Fault.OfValue (numbersFrom index items) := by
  induction items generalizing index with
  | nil => exact .ok []
  | cons item rest ih =>
    unfold numbersFrom
    split
    · exact .error trivial
    · exact (ih (index + 1)).map _

mutual

/-- A value that has no document fails with a fault about a value. -/
theorem toJson_errs : (value : Value) → ErrsWithin Fault.OfValue value.toJson
  | .null => .ok _
  | .boolean _ => .ok _
  | .number x => by
      unfold toJson
      split
      · exact .ok _
      · exact .error trivial
  | .string _ => .ok _
  | .array items => (itemsToJson_errs items).map _
  | .map entries => (entriesToJson_errs entries).map _
  | .handle _ => .error trivial

theorem itemsToJson_errs : (items : List Value) → ErrsWithin Fault.OfValue (itemsToJson items)
  | [] => .ok []
  | item :: rest =>
      .bind (toJson_errs item) fun _ _ => .bind (itemsToJson_errs rest) fun _ _ => .ok _

theorem entriesToJson_errs :
    (entries : List (String × Value)) → ErrsWithin Fault.OfValue (entriesToJson entries)
  | [] => .ok []
  | (_, value) :: rest =>
      .bind (toJson_errs value) fun _ _ => .bind (entriesToJson_errs rest) fun _ _ => .ok _

end

end Value

/-! ## Parts of methods -/

section Parts

variable {arguments : Arguments} {params : List Param} {name : String}

theorem count_errs (hnumber : ∃ x, arguments.number name = .ok x) :
    ErrsWithin Fault.NotMissing (arguments.count name) := by
  refine .bind (.of_exists hnumber) fun x _ => ?_
  split
  · exact .error trivial
  · exact .ok _

theorem intervalSeconds_errs (hstring : ∃ text, arguments.string name = .ok text) :
    ErrsWithin Fault.NotMissing (intervalSeconds arguments name) := by
  refine .bind (.of_exists hstring) fun text _ => ?_
  split
  · exact .error trivial
  · split
    · exact .error trivial
    · exact .ok _

theorem credentialsOf_errs (entries : Table Value) :
    ErrsWithin Fault.NotMissing (credentialsOf arguments entries) := by
  unfold credentialsOf
  dsimp only
  refine .bind ?_ fun user _ => .bind ?_ fun password _ => .ok _
  · split
    · exact .ok _
    · exact .error trivial
  · split
    · exact .ok _
    · exact .error trivial

theorem bodyOf_errs : ErrsWithin Fault.NotMissing (bodyOf arguments) := by
  unfold bodyOf
  split
  · exact .ok none
  · exact .ok none
  · split
    · exact ((Value.toJson_errs _).mono fun _ => Fault.OfValue.notMissing).map _
    · exact .ok _

theorem requestOf_errs (method : HttpMethod) (hurl : ∃ url, arguments.string "url" = .ok url) :
    ErrsWithin Fault.NotMissing (requestOf method arguments) := by
  have hcredentials : ErrsWithin Fault.NotMissing
      ((arguments.map? "auth").mapM (credentialsOf arguments)) := by
    cases arguments.map? "auth" with
    | none => exact .ok none
    | some entries => exact .bind (credentialsOf_errs entries) fun _ _ => .ok _
  exact .bind (.of_exists hurl) fun _ _ => .bind hcredentials fun _ _ =>
    .bind bodyOf_errs fun _ _ => .ok _

variable [LawfulMonad m] (provider : Provider m)

theorem callHttp_failsWithin (method : HttpMethod)
    (hurl : ∃ url, arguments.string "url" = .ok url) :
    FailsWithin Fault.NotMissing (callHttp provider method arguments) :=
  .bind (.settle (requestOf_errs method hurl)) fun _ =>
    .bind (.perform provider _ _ fun _ => trivial) fun _ => .pure _

theorem callLoad_failsWithin (hmeets : arguments.Meets GlobalMethod.load.params) :
    FailsWithin Fault.NotMissing (callLoad provider arguments) := by
  refine .bind (.settle (.of_exists (hmeets.string (by decide)))) fun format => ?_
  dsimp only
  split
  · exact .throw trivial
  · refine .bind (.settle (.of_exists (hmeets.string (by decide)))) fun path => ?_
    refine .bind (.perform provider _ _ fun _ => trivial) fun text => ?_
    split
    · exact .pure _
    · exact .throw trivial

/-- Working out what to trim never misses an argument that was bound. -/
theorem trimOf_failsWithin (hmeets : arguments.Meets SeriesMethod.trim.params) :
    FailsWithin Fault.NotMissing (trimOf provider arguments) := by
  unfold trimOf
  split
  · exact .throw trivial
  · next since hsince _ =>
    have hstring : arguments.string "since" = .ok since := by
      simp only [Arguments.string, hsince]
    refine .bind (.settle (intervalSeconds_errs ⟨since, hstring⟩)) fun seconds => ?_
    split
    · exact .throw trivial
    · refine .bind (.clock provider) fun now => ?_
      split
      · exact .pure _
      · exact .throw trivial
  · next value _ hcount =>
    obtain ⟨x, rfl⟩ : ArgKind.numeric.Fits value :=
      hmeets.fits (.optional "count" .numeric) (by decide) value hcount
    have hnumber : ∃ x, arguments.number "count" = .ok x :=
      ⟨x, Arguments.number_of_get? hcount⟩
    exact .bind (.settle (count_errs hnumber)) fun _ => .pure _
  · exact .throw trivial

end Parts

/-! ## Methods -/

section Methods

variable {arguments : Arguments} [LawfulMonad m] (provider : Provider m)

/-- No global method misses an argument that was bound. -/
theorem GlobalMethod.call_failsWithin (method : GlobalMethod)
    (hmeets : arguments.Meets method.params) :
    FailsWithin Fault.NotMissing (method.call provider arguments) := by
  cases method with
  | now => exact .bind (.clock provider) fun _ => .pure _
  | counter | series =>
    exact .bind (.settle (.of_exists (hmeets.string (by decide)))) fun _ => .pure _
  | get | post => exact callHttp_failsWithin provider _ (hmeets.string (by decide))
  | arg =>
    refine .bind (.settle (.of_exists (hmeets.string (by decide)))) fun name => ?_
    refine .bind .current fun run => ?_
    split
    · exact .pure _
    · exact .throw trivial
  | log =>
    exact .bind (.settle (.of_exists (hmeets.string (by decide)))) fun _ =>
      .bind (.note _) fun _ => .pure _
  | error =>
    exact .bind (.settle (.of_exists (hmeets.string (by decide)))) fun _ => .throw trivial
  | anomaly =>
    exact .bind (.settle (.of_exists (hmeets.numbers (by decide)))) fun _ =>
      .bind (.settle (.of_exists (hmeets.number (by decide)))) fun _ => .pure _
  | load => exact callLoad_failsWithin provider hmeets

theorem CounterMethod.call_failsWithin (counter : String) (method : CounterMethod)
    (hmeets : arguments.Meets method.params) :
    FailsWithin Fault.NotMissing (method.call provider counter arguments) := by
  have hanswered (label : String) (operation : Operation) : FailsWithin Fault.NotMissing
      (perform provider label operation >>= fun _ => Pure.pure Value.null) :=
    .bind (.perform provider label operation fun _ => trivial) fun _ => .pure _
  cases method with
  | set | increment =>
    exact .bind (.settle (.of_exists (hmeets.number (by decide)))) fun _ =>
      .bind (.pure _) fun _ => hanswered _ _
  | reset => exact .bind (.pure _) fun _ => hanswered _ _

/-- No series method misses an argument that was bound. -/
theorem SeriesMethod.call_failsWithin (series : String) (method : SeriesMethod)
    (hmeets : arguments.Meets method.params) :
    FailsWithin Fault.NotMissing (method.call provider series arguments) := by
  have hanswered (label : String) (operation : Operation) (result : operation.Answer → Value) :
      FailsWithin Fault.NotMissing
        (perform provider label operation >>= fun answer => Pure.pure (result answer)) :=
    .bind (.perform provider label operation fun _ => trivial) fun _ => .pure _
  cases method with
  | last | pop => exact hanswered _ _ _
  | aggregate =>
    refine .bind (.settle (.of_exists (hmeets.string (by decide)))) fun name => ?_
    split
    · exact .throw trivial
    · refine .bind (.settle (intervalSeconds_errs (hmeets.string (by decide)))) fun _ => ?_
      refine .bind (.settle (count_errs (hmeets.number (by decide)))) fun _ => ?_
      exact hanswered _ _ _
  | compute function =>
    refine .bind (.settle (intervalSeconds_errs (hmeets.string ?_))) fun _ => hanswered _ _ _
    exact List.mem_cons_self
  | push =>
    refine .bind (.settle (.of_exists (hmeets.number (by decide)))) fun value => ?_
    dsimp only
    split
    · exact .bind (.pure _) fun _ => hanswered _ _ _
    · exact .bind (.clock provider) fun _ => hanswered _ _ _
  | trim => exact .bind (trimOf_failsWithin provider hmeets) fun _ => hanswered _ _ _
  | items =>
    exact .bind (.settle (count_errs (hmeets.number (by decide)))) fun _ => hanswered _ _ _

/-- To store a map fails because of what is in the map or because of the provider. -/
theorem StorageMethod.set_failsWithin {allowed : Fault → Prop}
    (hvalue : ∀ fault, Fault.OfValue fault → allowed fault)
    (hprovider : ∀ label error, allowed (.provider label error))
    (hmeets : arguments.Meets StorageMethod.set.params) :
    FailsWithin allowed (StorageMethod.set.call provider arguments) := by
  refine .bind (.settle (.of_exists (hmeets.string (by decide)))) fun key => ?_
  refine .bind (.settle (.of_exists (hmeets.map (by decide)))) fun entries => ?_
  have hdocument : ErrsWithin allowed (objectOf arguments entries) := by
    rw [objectOf_eq]
    exact (Value.entriesToJson_errs entries).mono hvalue
  exact .bind (.settle hdocument) fun _ =>
    .bind (.perform provider _ _ (hprovider _)) fun _ => .pure _

theorem StorageMethod.call_failsWithin (method : StorageMethod)
    (hmeets : arguments.Meets method.params) :
    FailsWithin Fault.NotMissing (method.call provider arguments) := by
  cases method with
  | get =>
    exact .bind (.settle (.of_exists (hmeets.string (by decide)))) fun _ =>
      .bind (.perform provider _ _ fun _ => trivial) fun _ => .pure _
  | set =>
    exact set_failsWithin provider (fun _ => Fault.OfValue.notMissing) (fun _ _ => trivial) hmeets

theorem StringMethod.apply_errs (text : String) (method : StringMethod)
    (hmeets : arguments.Meets method.params) :
    ErrsWithin Fault.NotMissing (method.apply text arguments) := by
  cases method with
  | split => exact .bind (.of_exists (hmeets.string (by decide))) fun _ _ => .ok _
  | toNumber =>
    exact ((Value.toNumber_errs (.string text)).mono fun _ => Fault.OfValue.notMissing).map _

theorem summarize_errs (summary : List Float → Float) (items : List Value) :
    ErrsWithin Fault.OfValue (summarize summary items) :=
  .bind (Value.numbersFrom_errs 0 items) fun _ _ => .ok _

theorem itemAt_errs (items : List Value) (index : Float) :
    ErrsWithin Fault.OfValue (itemAt items index) := by
  unfold itemAt
  dsimp only
  split
  · exact .ok _
  · exact .error trivial

theorem ArrayMethod.apply_errs (items : List Value) (method : ArrayMethod)
    (hmeets : arguments.Meets method.params) :
    ErrsWithin Fault.NotMissing (method.apply items arguments) := by
  cases method with
  | item =>
    exact .bind (.of_exists (hmeets.number (by decide))) fun index _ =>
      (itemAt_errs items index).mono fun _ => Fault.OfValue.notMissing
  | count => exact .ok _
  | sum | min | max | avg | stddev =>
    exact (summarize_errs _ items).mono fun _ => Fault.OfValue.notMissing

/-- No map method misses an argument that was bound. -/
theorem MapMethod.call_failsWithin (entries : Table Value) (origin : Option String)
    (method : MapMethod) (hmeets : arguments.Meets method.params) :
    FailsWithin Fault.NotMissing
      (method.call entries origin arguments : RunM m Fault Value) := by
  cases method with
  | item =>
    refine .bind (.settle (.of_exists (hmeets.string (by decide)))) fun index => ?_
    split
    · exact .pure _
    · exact .throw trivial
  | count => exact .pure _
  | set =>
    refine .bind (.settle (.of_exists (hmeets.string (by decide)))) fun index => ?_
    refine .bind (.settle (.of_exists (hmeets.value (.tail _ (.head _))))) fun value => ?_
    dsimp only
    split
    · exact .bind (.assign _ _) fun _ => .pure _
    · exact .pure _

theorem BoundMethod.apply_failsWithin (bound : BoundMethod)
    (hmeets : arguments.Meets bound.params) :
    FailsWithin Fault.NotMissing (bound.apply provider arguments) := by
  cases bound with
  | ofGlobal method => exact method.call_failsWithin provider hmeets
  | ofCounter counter method => exact method.call_failsWithin provider counter hmeets
  | ofSeries series method => exact method.call_failsWithin provider series hmeets
  | ofStorage method => exact method.call_failsWithin provider hmeets
  | ofString text method => exact .settle (method.apply_errs text hmeets)
  | ofArray items method => exact .settle (method.apply_errs items hmeets)
  | ofMap entries origin method => exact method.call_failsWithin entries origin hmeets

/-- There is always a judgment on a number. -/
theorem GlobalMethod.outcome_anomaly (hmeets : arguments.Meets GlobalMethod.anomaly.params)
    (run : Run) : ∃ truth,
      outcome (GlobalMethod.anomaly.call provider arguments) run =
        Pure.pure (.ok (.boolean truth), run) := by
  obtain ⟨data, hdata⟩ : ∃ data, arguments.numbers "data" = .ok data := hmeets.numbers (by decide)
  obtain ⟨value, hvalue⟩ : ∃ value, arguments.number "value" = .ok value :=
    hmeets.number (by decide)
  have hcall : GlobalMethod.anomaly.call provider arguments =
      Pure.pure (Value.boolean (isAnomaly data value)) := by
    unfold GlobalMethod.call
    rw [hdata, hvalue]
    exact (pure_bind data _).trans (pure_bind value _)
  exact ⟨isAnomaly data value, congrArg (outcome · run) hcall⟩

end Methods

/-- If arguments can be bound to the parameters of a method then none of them is missing in the
body of the method.  There is always a judgment on a number, and no argument is at fault when a
map is stored. -/
theorem accepted_call_never_missing [LawfulMonad m] (provider : Provider m) (bound : BoundMethod)
    {given : List (Option String × Value)} {arguments : Arguments}
    (hbound : bindArguments bound.name bound.params given = .ok arguments) (run : Run) :
    (Always (outcome (bound.apply provider arguments) run) fun ending =>
      ∀ function argument, ending.1 ≠ .error (.missingArgument function argument)) ∧
    (bound = .ofGlobal .anomaly → ∃ truth,
      outcome (bound.apply provider arguments) run = pure (.ok (.boolean truth), run)) ∧
    (bound = .ofStorage .set →
      Always (outcome (bound.apply provider arguments) run) fun ending =>
        ∀ function argument reason,
          ending.1 ≠ .error (.invalidArgument function argument reason)) := by
  have hmeets : arguments.Meets bound.params :=
    meets_of_bindArguments bound.nodup_params hbound
  refine ⟨?_, ?_, ?_⟩
  · apply always_mono (bound.apply_failsWithin provider hmeets run)
    exact fun ending herrs function argument heq => herrs _ heq
  · rintro rfl
    exact GlobalMethod.outcome_anomaly provider hmeets run
  · rintro rfl
    have hset : FailsWithin (fun fault : Fault => ∀ function argument reason,
        fault ≠ .invalidArgument function argument reason)
        (StorageMethod.set.call provider arguments) := by
      apply StorageMethod.set_failsWithin provider _ _ hmeets
      · rintro fault hvalue function argument reason rfl
        exact hvalue
      · exact fun label error function argument reason heq => nomatch heq
    apply always_mono (hset run)
    exact fun ending herrs function argument reason heq => herrs _ heq function argument reason rfl

/-- The number comes before the data. -/
theorem accepted_call_never_missing_anomaly :
    let provider := Store.provider Scene.surroundings
    let bound : BoundMethod := .ofGlobal .anomaly
    let given : List (Option String × Value) :=
      [(some "value", .number 9.0), (some "data", .array [.number 1.0, .number 2.0])]
    ∃ arguments, bindArguments bound.name bound.params given = .ok arguments ∧
      (Always (outcome (bound.apply provider arguments) {}) fun ending =>
        ∀ function argument, ending.1 ≠ .error (.missingArgument function argument)) ∧
      ∃ truth, outcome (bound.apply provider arguments) {} = pure (.ok (.boolean truth), {}) := by
  intro provider bound given
  have hbound : bindArguments bound.name bound.params given = .ok ⟨"anomaly",
    [("data", .array [.number 1.0, .number 2.0]), ("value", .number 9.0)]⟩ := rfl
  obtain ⟨hpresent, hjudged, _⟩ := accepted_call_never_missing provider bound hbound {}
  exact ⟨_, hbound, hpresent, hjudged rfl⟩

end MetricScript
