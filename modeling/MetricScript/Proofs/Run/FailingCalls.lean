import Mathlib
import MetricScript.Run.Calls
import MetricScript.Provider.Memory
import MetricScript.Proofs.Results
import MetricScript.Proofs.Run.Faithful

/-!
# Calls that fail

A method binds and checks its arguments first, asks the provider once, and makes a value of the
answer.  So a call that fails leaves no trace: the variables, the output and the store are what
they were before.  The exception is a request to another host, which is gone when it turns out
that it failed, and then the call fails for this reason.

What comes before the operation of a method is quiet: it changes nothing, however it ends.  An
action is careful if it changes nothing in case it fails.
-/

namespace MetricScript

open RunM

variable {σ α β ε : Type}

/-! ## Requests that were sent -/

/-- The same surroundings with a record of the requests that were sent, the latest first. -/
def Surroundings.recording (outside : Surroundings (StateM σ)) :
    Surroundings (StateM (List HttpRequest × σ)) where
  now world := ((outside.now world.2).1, world.1, (outside.now world.2).2)
  send request world :=
    ((outside.send request world.2).1, request :: world.1, (outside.send request world.2).2)
  readFile path world :=
    ((outside.readFile path world.2).1, world.1, (outside.readFile path world.2).2)

/-- The record makes no difference to what an operation does, and it holds every request. -/
theorem Store.perform_recording (outside : Surroundings (StateM σ)) (operation : Operation)
    (store : Store) (sent : List HttpRequest) (around : σ) :
    let recorded := Store.perform outside.recording operation store (sent, around)
    recorded.1 = (Store.perform outside operation store around).1 ∧
      recorded.2.2 = (Store.perform outside operation store around).2 ∧
      recorded.2.1 = match operation with
        | .http request => request :: sent
        | _ => sent := by
  cases operation with
  | _ => exact ⟨rfl, rfl, rfl⟩

/-- The operation does not reach other hosts. -/
def Operation.StaysHere : Operation → Prop
  | .http _ => False
  | _ => True

/-- The effects of a store whose surroundings keep a record of the requests. -/
abbrev Recorded (σ : Type) := StateT Store (StateM (List HttpRequest × σ))

/-- How an action ends on a store: its result, the run and the store that it leaves, and the
world around them with the requests that were sent. -/
abbrev Finish (σ ε α : Type) := ((Except ε α × Run) × Store) × List HttpRequest × σ

/-- What an action leaves: the run, the store and the requests that were sent. -/
abbrev Left := Run × Store × List HttpRequest

def Finish.left (ending : Finish σ ε α) : Left := (ending.1.1.2, ending.1.2, ending.2.1)

/-- The arguments, the variables and the output of the run, the store and the requests that were
sent are the same before and after. -/
structure Unchanged (before after : Left) : Prop where
  arguments : after.1.arguments = before.1.arguments
  bindings : after.1.bindings = before.1.bindings
  output : after.1.output = before.1.output
  store : after.2.1 = before.2.1
  sent : after.2.2 = before.2.2

theorem Unchanged.trans {before between after : Left} (hfirst : Unchanged before between)
    (hsecond : Unchanged between after) : Unchanged before after where
  arguments := hsecond.arguments.trans hfirst.arguments
  bindings := hsecond.bindings.trans hfirst.bindings
  output := hsecond.output.trans hfirst.output
  store := hsecond.store.trans hfirst.store
  sent := hsecond.sent.trans hfirst.sent

/-- The action changes nothing, however it ends. -/
def Quiet (action : RunM (Recorded σ) ε α) : Prop :=
  ∀ run store sent around,
    Unchanged (run, store, sent) (Finish.left (outcome action run store (sent, around)))

/-- The action changes nothing if it fails. -/
def Careful (action : RunM (Recorded σ) ε α) : Prop :=
  ∀ run store sent around error,
    (outcome action run store (sent, around)).1.1.1 = .error error →
      Unchanged (run, store, sent) (Finish.left (outcome action run store (sent, around)))

theorem bind_on (effect : Recorded σ α) (next : α → Recorded σ β) (store : Store)
    (world : List HttpRequest × σ) :
    (effect >>= next) store world =
      next (effect store world).1.1 (effect store world).1.2 (effect store world).2 := rfl

/-- An action that starts where another one ended. -/
theorem outcome_bind_on (action : RunM (Recorded σ) ε α) (next : α → RunM (Recorded σ) ε β)
    (run : Run) (store : Store) (world : List HttpRequest × σ) :
    outcome (action >>= next) run store world =
      match outcome action run store world with
      | (((.ok value, left), kept), further) => outcome (next value) left kept further
      | (((.error error, left), kept), further) => (((.error error, left), kept), further) := by
  rw [outcome_bind, bind_on]
  generalize outcome action run store world = ending
  obtain ⟨⟨⟨result, left⟩, kept⟩, further⟩ := ending
  cases result with
  | ok value => rfl
  | error error => rfl

namespace Quiet

theorem pure (value : α) : Quiet (Pure.pure value : RunM (Recorded σ) ε α) :=
  fun _ _ _ _ => ⟨rfl, rfl, rfl, rfl, rfl⟩

theorem throw (error : ε) : Quiet (MonadExcept.throw error : RunM (Recorded σ) ε α) :=
  fun _ _ _ _ => ⟨rfl, rfl, rfl, rfl, rfl⟩

theorem settle (result : Except ε α) : Quiet (RunM.settle result : RunM (Recorded σ) ε α) := by
  cases result with
  | ok value => exact pure value
  | error error => exact throw error

theorem current : Quiet (RunM.current : RunM (Recorded σ) ε Run) :=
  fun _ _ _ _ => ⟨rfl, rfl, rfl, rfl, rfl⟩

theorem note (event : Event) : Quiet (RunM.note event : RunM (Recorded σ) ε Unit) :=
  fun _ _ _ _ => ⟨rfl, rfl, rfl, rfl, rfl⟩

theorem bind {action : RunM (Recorded σ) ε α} {next : α → RunM (Recorded σ) ε β}
    (haction : Quiet action) (hnext : ∀ value, Quiet (next value)) : Quiet (action >>= next) := by
  intro run store sent around
  have hfirst := haction run store sent around
  rw [outcome_bind_on]
  generalize outcome action run store (sent, around) = ending at hfirst
  obtain ⟨⟨⟨result, left⟩, kept⟩, further⟩ := ending
  cases result with
  | ok value => exact hfirst.trans (hnext value left kept further.1 further.2)
  | error error => exact hfirst

variable (outside : Surroundings (StateM σ))

theorem clock : Quiet (RunM.clock (Store.provider outside.recording) : RunM _ ε Int64) :=
  fun _ _ _ _ => ⟨rfl, rfl, rfl, rfl, rfl⟩

theorem perform_fileText (label path : String) :
    Quiet (perform (Store.provider outside.recording) label (.fileText path)) := by
  intro run store sent around
  rw [outcome_perform]
  exact ⟨rfl, rfl, rfl, rfl, rfl⟩

end Quiet

namespace Careful

theorem of_quiet {action : RunM (Recorded σ) ε α} (haction : Quiet action) : Careful action :=
  fun run store sent around _ _ => haction run store sent around

theorem assign (name : String) (value : Value) :
    Careful (RunM.assign name value : RunM (Recorded σ) ε Unit) := by
  intro run store sent around error herror
  rw [outcome_assign] at herror
  exact nomatch herror

theorem after_pure {value : α} {next : α → RunM (Recorded σ) ε β}
    (hnext : Careful (next value)) : Careful (pure value >>= next) := hnext

/-- What is done before the action may be quiet only. -/
theorem after {action : RunM (Recorded σ) ε α} {next : α → RunM (Recorded σ) ε β}
    (haction : Quiet action) (hnext : ∀ value, Careful (next value)) :
    Careful (action >>= next) := by
  intro run store sent around error herror
  have hfirst := haction run store sent around
  rw [outcome_bind_on] at herror ⊢
  generalize outcome action run store (sent, around) = ending at hfirst herror
  obtain ⟨⟨⟨result, left⟩, kept⟩, further⟩ := ending
  cases result with
  | ok value => exact hfirst.trans (hnext value left kept further.1 further.2 error herror)
  | error error => exact hfirst

/-- A value can be made of what the action gives. -/
theorem giving {action : RunM (Recorded σ) ε α} (haction : Careful action) (give : α → β) :
    Careful (action >>= fun value => pure (give value)) := by
  intro run store sent around error herror
  have hfirst := haction run store sent around
  rw [outcome_bind_on] at herror ⊢
  generalize outcome action run store (sent, around) = ending at hfirst herror
  obtain ⟨⟨⟨result, left⟩, kept⟩, further⟩ := ending
  cases result with
  | ok value => exact nomatch herror
  | error error => exact hfirst error rfl

/-- A store that cannot do what it is asked stays as it is. -/
theorem perform (outside : Surroundings (StateM σ)) (label : String) {operation : Operation}
    (hstays : operation.StaysHere) :
    Careful (perform (Store.provider outside.recording) label operation) := by
  intro run store sent around error herror
  rw [outcome_perform] at herror ⊢
  cases operation with
  | http request => exact hstays.elim
  | counterValue | seriesLast | seriesAggregate | seriesCompute | seriesItems | readStorage
  | fileText => exact ⟨rfl, rfl, rfl, rfl, rfl⟩
  | setCounter | incrementCounter | seriesPush | seriesPop | seriesTrim | writeStorage =>
    exact nomatch herror

/-- A value is made of the answer to an operation. -/
theorem answered (outside : Surroundings (StateM σ)) (label : String) {operation : Operation}
    (give : operation.Answer → α) (hstays : operation.StaysHere) :
    Careful (RunM.perform (Store.provider outside.recording) label operation >>=
      fun answer => pure (give answer)) :=
  (perform outside label hstays).giving give

end Careful

/-! ## Methods -/

section Methods

variable (outside : Surroundings (StateM σ)) (arguments : Arguments)

theorem callLoad_quiet : Quiet (callLoad (Store.provider outside.recording) arguments) := by
  refine .bind (.settle _) fun format => ?_
  dsimp only
  split
  · exact .throw _
  · refine .bind (.settle _) fun path => ?_
    refine .bind (.perform_fileText outside _ path) fun text => ?_
    split
    · exact .pure _
    · exact .throw _

/-- Working out what to trim changes nothing. -/
theorem trimOf_quiet : Quiet (trimOf (Store.provider outside.recording) arguments) := by
  unfold trimOf
  split
  · exact .throw _
  · refine .bind (.settle _) fun seconds => ?_
    split
    · exact .throw _
    · refine .bind (.clock outside) fun now => ?_
      split
      · exact .pure _
      · exact .throw _
  · exact .bind (.settle _) fun _ => .pure _
  · exact .throw _

theorem CounterMethod.call_careful (counter : String) (method : CounterMethod) :
    Careful (method.call (Store.provider outside.recording) counter arguments) := by
  cases method with
  | set | increment =>
    exact .after (.settle _) fun _ =>
      .after_pure (.answered outside _ _ trivial)
  | reset => exact .after_pure (.answered outside _ _ trivial)

/-- A series method that fails has changed nothing. -/
theorem SeriesMethod.call_careful (series : String) (method : SeriesMethod) :
    Careful (method.call (Store.provider outside.recording) series arguments) := by
  cases method with
  | last | pop => exact .answered outside _ _ trivial
  | aggregate =>
    refine .after (.settle _) fun name => ?_
    split
    · exact .of_quiet (.throw _)
    · exact .after (.settle _) fun _ => .after (.settle _) fun _ =>
        .answered outside _ _ trivial
  | compute function =>
    exact .after (.settle _) fun _ => .answered outside _ _ trivial
  | push =>
    refine .after (.settle _) fun value => ?_
    dsimp only
    split
    · exact .after (.pure _) fun _ => .answered outside _ _ trivial
    · exact .after (.clock outside) fun _ => .answered outside _ _ trivial
  | trim =>
    exact .after (trimOf_quiet outside arguments) fun _ => .answered outside _ _ trivial
  | items =>
    exact .after (.settle _) fun _ => .answered outside _ _ trivial

theorem StorageMethod.call_careful (method : StorageMethod) :
    Careful (method.call (Store.provider outside.recording) arguments) := by
  refine .after (.settle _) fun key => ?_
  cases method with
  | get => exact .answered outside _ _ trivial
  | set =>
    exact .after (.settle _) fun _ => .after (.settle _) fun _ =>
      .answered outside _ _ trivial

theorem MapMethod.call_careful (entries : Table Value) (origin : Option String)
    (method : MapMethod) :
    Careful (method.call entries origin arguments : RunM (Recorded σ) Fault Value) := by
  cases method with
  | item =>
    refine .after (.settle _) fun index => ?_
    split
    · exact .of_quiet (.pure _)
    · exact .of_quiet (.throw _)
  | count => exact .of_quiet (.pure _)
  | set =>
    refine .after (.settle _) fun index => .after (.settle _) fun value => ?_
    dsimp only
    split
    · exact (Careful.assign _ _).giving _
    · exact .of_quiet (.pure _)

end Methods

/-! ## Requests -/

/-- The action leaves no trace if it fails, but the request that it failed for. -/
def FailsCleanly (outside : Surroundings (StateM σ)) (action : RunM (Recorded σ) Fault α) : Prop :=
  ∀ run store sent around fault,
    (outcome action run store (sent, around)).1.1.1 = .error fault →
      ∃ request? : Option HttpRequest,
        Unchanged (run, store, request?.toList ++ sent)
          (Finish.left (outcome action run store (sent, around))) ∧
        ∀ request ∈ request?, ∃ error,
          fault = .provider (request.method.name ++ " " ++ request.url) error ∧
            (outside.send request around).1 = .error error

theorem Careful.failsCleanly {action : RunM (Recorded σ) Fault α} (hcareful : Careful action)
    (outside : Surroundings (StateM σ)) : FailsCleanly outside action :=
  fun run store sent around fault herror =>
    ⟨none, hcareful run store sent around fault herror, fun _ hrequest => nomatch hrequest⟩

theorem outcome_perform_http (outside : Surroundings (StateM σ)) (label : String)
    (request : HttpRequest) (run : Run) (store : Store) (sent : List HttpRequest) (around : σ) :
    outcome (perform (Store.provider outside.recording) label (.http request)) run store
        (sent, around) =
      ((((outside.send request around).1.mapError (.provider label),
        run.after (.performed (.http request) (outside.send request around).1)), store),
        request :: sent, (outside.send request around).2) := by
  rw [outcome_perform]
  rfl

/-- A request that can be made is sent once. -/
theorem outcome_callHttp (outside : Surroundings (StateM σ)) {arguments : Arguments}
    {method : HttpMethod} {request : HttpRequest}
    (hrequest : requestOf method arguments = .ok request) (run : Run) (store : Store)
    (sent : List HttpRequest) (around : σ) :
    outcome (callHttp (Store.provider outside.recording) method arguments) run store
        (sent, around) =
      (((((outside.send request around).1.mapError
          (.provider (method.name ++ " " ++ request.url))).map responseValue,
        run.after (.performed (.http request) (outside.send request around).1)), store),
        request :: sent, (outside.send request around).2) := by
  unfold callHttp
  rw [hrequest]
  let label := method.name ++ " " ++ request.url
  change outcome (perform (Store.provider outside.recording) label (.http request) >>=
    fun response => pure (responseValue response)) run store (sent, around) = _
  rw [outcome_bind_on, outcome_perform_http]
  cases (outside.send request around).1 with
  | ok response => rfl
  | error error => rfl

theorem requestOf_method {method : HttpMethod} {arguments : Arguments} {request : HttpRequest}
    (hrequest : requestOf method arguments = .ok request) : request.method = method := by
  obtain ⟨url, _, hrequest⟩ := exists_of_bind_eq_ok hrequest
  obtain ⟨credentials, _, hrequest⟩ := exists_of_bind_eq_ok hrequest
  obtain ⟨body, _, hrequest⟩ := exists_of_bind_eq_ok hrequest
  obtain rfl := Except.ok.inj hrequest
  rfl

/-- A request that fails leaves no trace but itself. -/
theorem callHttp_failsCleanly (outside : Surroundings (StateM σ)) (arguments : Arguments)
    (method : HttpMethod) :
    FailsCleanly outside (callHttp (Store.provider outside.recording) method arguments) := by
  intro run store sent around fault herror
  cases hrequest : requestOf method arguments with
  | error stop =>
    unfold callHttp
    rw [hrequest]
    exact ⟨none, ⟨rfl, rfl, rfl, rfl, rfl⟩, fun _ hnone => nomatch hnone⟩
  | ok request =>
    rw [outcome_callHttp outside hrequest] at herror ⊢
    refine ⟨some request, ⟨rfl, rfl, rfl, rfl, rfl⟩, fun other hother => ?_⟩
    obtain rfl := Option.some.inj hother
    cases hreply : (outside.send request around).1 with
    | ok response =>
      rw [hreply] at herror
      exact nomatch herror
    | error error =>
      rw [hreply] at herror
      obtain rfl := Except.error.inj herror
      rw [requestOf_method hrequest]
      exact ⟨error, rfl, rfl⟩

theorem Quiet.failsCleanly {action : RunM (Recorded σ) Fault α} (hquiet : Quiet action)
    (outside : Surroundings (StateM σ)) : FailsCleanly outside action :=
  (Careful.of_quiet hquiet).failsCleanly outside

/-- A global method that fails leaves no trace but the request it failed for. -/
theorem GlobalMethod.call_failsCleanly (outside : Surroundings (StateM σ))
    (arguments : Arguments) (method : GlobalMethod) :
    FailsCleanly outside (method.call (Store.provider outside.recording) arguments) := by
  cases method with
  | get | post => exact callHttp_failsCleanly outside arguments _
  | now => exact Quiet.failsCleanly (.bind (.clock outside) fun _ => .pure _) outside
  | counter | series => exact Quiet.failsCleanly (.bind (.settle _) fun _ => .pure _) outside
  | arg =>
    refine Quiet.failsCleanly (.bind (.settle _) fun name => .bind .current fun run => ?_) outside
    split
    · exact .pure _
    · exact .throw _
  | log =>
    exact Quiet.failsCleanly (.bind (.settle _) fun _ => .bind (.note _) fun _ => .pure _) outside
  | error => exact Quiet.failsCleanly (.bind (.settle _) fun _ => .throw _) outside
  | anomaly =>
    exact Quiet.failsCleanly (.bind (.settle _) fun _ => .bind (.settle _) fun _ => .pure _) outside
  | load => exact (callLoad_quiet outside arguments).failsCleanly outside

/-- A bound method that fails leaves no trace but the request it failed for. -/
theorem BoundMethod.apply_failsCleanly (outside : Surroundings (StateM σ)) (arguments : Arguments)
    (bound : BoundMethod) :
    FailsCleanly outside (bound.apply (Store.provider outside.recording) arguments) := by
  cases bound with
  | ofGlobal method => exact method.call_failsCleanly outside arguments
  | ofCounter counter method =>
    exact (method.call_careful outside arguments counter).failsCleanly outside
  | ofSeries series method =>
    exact (method.call_careful outside arguments series).failsCleanly outside
  | ofStorage method => exact (method.call_careful outside arguments).failsCleanly outside
  | ofString text method => exact Quiet.failsCleanly (.settle _) outside
  | ofArray items method => exact Quiet.failsCleanly (.settle _) outside
  | ofMap entries origin method =>
    exact (method.call_careful arguments entries origin).failsCleanly outside

/-- A call that fails leaves the arguments, the variables and the output of the run and the
store as they are.  It has sent no request, unless it is the request that it failed for. -/
theorem failing_call_changes_nothing (outside : Surroundings (StateM σ)) (bound : BoundMethod)
    (given : List (Option String × Value)) (run : Run) (store : Store)
    (sent : List HttpRequest) (around : σ) {fault : Fault} :
    let ended := outcome (bound.call (Store.provider outside.recording) given) run store
      (sent, around)
    let left := ended.1.1.2
    ended.1.1.1 = .error fault →
      left.arguments = run.arguments ∧ left.bindings = run.bindings ∧ left.output = run.output ∧
      ended.1.2 = store ∧
      ∃ request? : Option HttpRequest, ended.2.1 = request?.toList ++ sent ∧
        ∀ request ∈ request?, ∃ error,
          fault = .provider (request.method.name ++ " " ++ request.url) error ∧
            (outside.send request around).1 = .error error := by
  intro ended left herror
  have hclean : FailsCleanly outside (bound.call (Store.provider outside.recording) given) := by
    unfold BoundMethod.call
    cases bindArguments bound.name bound.params given with
    | error stop => exact Quiet.failsCleanly (.throw stop) outside
    | ok arguments => exact bound.apply_failsCleanly outside arguments
  obtain ⟨request?, hleft, hrequest⟩ := hclean run store sent around fault herror
  exact ⟨hleft.arguments, hleft.bindings, hleft.output, hleft.store, request?, hleft.sent,
    hrequest⟩

/-- Without a network a request fails when it is sent. -/
theorem failing_call_changes_nothing_offline :
    let outside := Scene.surroundings
    let scene : Scene := { clock := 40 }
    let bound : BoundMethod := .ofGlobal .get
    let given : List (Option String × Value) := [(some "url", .string "http://host/")]
    let run : Run := { bindings := [("$total", .number 2.0)] }
    let store : Store := { counters := [("hits", 7)] }
    let ended := outcome (bound.call (Store.provider outside.recording) given) run store ([], scene)
    let left := ended.1.1.2
    ∃ fault, ended.1.1.1 = .error fault ∧
      left.arguments = run.arguments ∧ left.bindings = run.bindings ∧ left.output = run.output ∧
      ended.1.2 = store ∧
      ∃ request? : Option HttpRequest, ended.2.1 = request?.toList ++ [] ∧
        ∀ request ∈ request?, ∃ error,
          fault = .provider (request.method.name ++ " " ++ request.url) error ∧
            (outside.send request scene).1 = .error error := by
  intro outside scene bound given run store ended left
  have herror : ended.1.1.1 = .error (.provider (HttpMethod.get.name ++ " " ++ "http://host/")
    (.http "no HTTP transport configured")) := rfl
  exact ⟨_, herror, failing_call_changes_nothing outside bound given run store [] scene herror⟩

end MetricScript
