import Mathlib
import MetricScript.Proofs.Run.Dialogue
import MetricScript.Proofs.Run.Keyed

/-!
# Actions that are faithful to their provider

An action is faithful if it is the dialogue that it holds with its provider and nothing else,
and if it ends as soon as the provider fails.  What it leaves is told by the events on the way:
a failure of the provider can only be the last of them, and the action stops with an error
that has the failure as its source.  On the way the maps of the run keep to a rule for their
keys.

Faithfulness is closed under the ways in which actions are put together, so it is enough to
look at the primitive ones.
-/

namespace MetricScript

open RunM

variable {m : Type → Type} [Monad m] {α β ε δ : Type} {rule : KeyRule}

/-! ## Terms that keep to a rule -/

/-- The run only asks to store documents of maps that keep to the rule. -/
def Operation.Asked (rule : KeyRule) : Operation → Prop
  | .writeStorage _ document => ∃ entries : Table Value,
      (Value.map entries).Keyed rule ∧ Value.entriesToJson entries = .ok document
  | _ => True

/-- The maps in the answer keep to the rule. -/
def Operation.Answered (rule : KeyRule) : (operation : Operation) → operation.Answer → Prop
  | .readStorage _, document => (Json.object document).Keyed rule
  | .http _, response =>
      response.body.Keyed rule ∧ rule.allows (response.headers.map Prod.fst)
  | .counterValue _, _ | .setCounter _ _, _ | .incrementCounter _ _, _ | .seriesLast _, _
  | .seriesAggregate _ _ _ _, _ | .seriesCompute _ _ _, _ | .seriesPush _ _, _
  | .seriesPop _, _ | .seriesTrim _ _, _ | .seriesItems _ _, _ | .writeStorage _ _, _
  | .fileText _, _ => True

/-- Questions and answers in which the maps keep to the rule. -/
def KeyRule.terms (rule : KeyRule) : Terms := ⟨Operation.Asked rule, Operation.Answered rule⟩

structure Run.Keyed (rule : KeyRule) (run : Run) : Prop where
  arguments : Table.Keyed rule run.arguments
  bindings : Table.Keyed rule run.bindings

def Event.Keyed (rule : KeyRule) : Event → Prop
  | .assigned _ value | .wrote _ value => value.Keyed rule
  | .readClock _ | .performed _ _ | .logged _ => True

theorem Run.Keyed.after {run : Run} (hrun : run.Keyed rule) {event : Event}
    (hevent : event.Keyed rule) : (run.after event).Keyed rule := by
  cases event with
  | readClock | performed | logged | wrote => exact ⟨hrun.arguments, hrun.bindings⟩
  | assigned name value =>
    exact ⟨hrun.arguments, Table.forall_insert hrun.bindings name hevent⟩

/-! ## The end of an action -/

/-- The run after some events, the earliest of which comes first. -/
def Run.afterAll (run : Run) (events : List Event) : Run := events.foldl Run.after run

theorem Run.afterAll_append (run : Run) (first second : List Event) :
    run.afterAll (first ++ second) = (run.afterAll first).afterAll second :=
  List.foldl_append

/-- If the provider failed then in the last event, and the result is an error with that failure
as its source. -/
def FailsLast (source : ε → Option ProviderError) (events : List Event) (result : Except ε α) :
    Prop :=
  ∀ earlier operation error later,
    events = earlier ++ .performed operation (.error error) :: later →
      later = [] ∧ ∃ stop, result = .error stop ∧ source stop = some error

/-- A conversation without a failure may be continued by one that fails last. -/
theorem failsLast_append {source : ε → Option ProviderError} {first second : List Event}
    {value : α} {result : Except ε β} (hfirst : FailsLast source first (.ok value))
    (hsecond : FailsLast source second result) :
    FailsLast source (first ++ second) result := by
  intro earlier operation error later hevents
  rcases List.append_eq_append_iff.1 hevents with ⟨between, _, hlater⟩ | ⟨between, hearlier, hlater⟩
  · exact hsecond between operation error later hlater
  · cases between with
    | nil =>
      rw [List.nil_append] at hlater
      exact hsecond [] operation error later hlater.symm
    | cons failure between =>
      -- A failure in the first part would have stopped it.
      obtain ⟨rfl, _⟩ := List.cons.inj hlater
      obtain ⟨_, stop, hstop, _⟩ := hfirst earlier operation error between hearlier
      exact nomatch hstop

theorem failsLast_of_forall {source : ε → Option ProviderError} {events : List Event}
    (hevents : ∀ operation error, .performed operation (.error error) ∉ events)
    (result : Except ε α) : FailsLast source events result := by
  rintro earlier operation error later rfl
  exact absurd (List.mem_append_right _ List.mem_cons_self) (hevents operation error)

/-- What an action that started from `start` leaves after some events. -/
structure Ends (rule : KeyRule) (source : ε → Option ProviderError) (gives : α → Prop)
    (start : Run) (events : List Event) (ending : Except ε α × Run) : Prop where
  told : ending.2 = start.afterAll events
  keyed : ending.2.Keyed rule
  failsLast : FailsLast source events ending.1
  gives : ∀ value, ending.1 = .ok value → gives value

/-- The dialogue has an end as in `Ends` on every way, and the calls on the way are those among
the events. -/
def Closes (rule : KeyRule) (source : ε → Option ProviderError) (gives : α → Prop)
    (start : Run) (dialogue : Dialogue (Except ε α × Run)) : Prop :=
  dialogue.Heeds rule.terms fun calls ending =>
    ∃ events, events.filterMap Event.call? = calls ∧ Ends rule source gives start events ending

/-! ## Faithful actions -/

namespace RunM

variable [LawfulMonad m] (provider : Provider m) (run : Run)

/-- Reading the clock is written down in the journal. -/
theorem outcome_clock :
    outcome (clock provider : RunM m ε Int64) run =
      provider.now >>= fun time => pure (.ok time, run.after (.readClock time)) := by
  unfold clock
  rw [outcome_bind, outcome_outside, bind_assoc]
  simp only [pure_bind, outcome_bind, note, outcome_modify]
  rfl

/-- An operation and its reply are written down in the journal, also when it failed. -/
theorem outcome_perform (label : String) (operation : Operation) :
    outcome (perform provider label operation) run =
      provider.perform operation >>= fun reply =>
        pure (reply.mapError (.provider label), run.after (.performed operation reply)) := by
  unfold perform
  rw [outcome_bind, outcome_outside, bind_assoc]
  simp only [pure_bind, outcome_bind, note, outcome_modify]
  congr 1
  funext reply
  cases reply with
  | ok answer => rfl
  | error error => rfl

end RunM

def Fault.source? : Fault → Option ProviderError
  | .provider _ source => some source
  | _ => none

/-- The action is the dialogue `asked` with the answers of the provider, and the dialogue ends
when the provider fails.  The answers of the provider must keep to the rule. -/
structure Faithful (rule : KeyRule) (provider : Provider m) (source : ε → Option ProviderError)
    (action : RunM m ε α) (asked : RunM Dialogue ε α) (gives : α → Prop) : Prop where
  answered : provider.Respects rule.terms → ∀ run : Run, run.Keyed rule →
    outcome action run = (outcome asked run).answer provider
  closes : ∀ run : Run, run.Keyed rule → Closes rule source gives run (outcome asked run)

namespace Faithful

variable {provider : Provider m} {source : ε → Option ProviderError} {gives : α → Prop}

/-- An action that does without the provider. -/
theorem of_pure {action : RunM m ε α} {asked : RunM Dialogue ε α}
    (ending : Run → Except ε α × Run) (events : List Event)
    (haction : ∀ run, outcome action run = Pure.pure (ending run))
    (hasked : ∀ run, outcome asked run = Pure.pure (ending run))
    (hcalls : events.filterMap Event.call? = [])
    (hends : ∀ run, run.Keyed rule → Ends rule source gives run events (ending run)) :
    Faithful rule provider source action asked gives where
  answered _ run _ := by
    rw [haction, hasked]
    rfl
  closes run hrun := by
    rw [hasked]
    exact ⟨events, hcalls, hends run hrun⟩

theorem pure {value : α} (hvalue : gives value) :
    Faithful rule provider source (Pure.pure value) (Pure.pure value) gives := by
  refine of_pure (fun run => (.ok value, run)) [] (fun _ => rfl) (fun _ => rfl) rfl ?_
  intro run hrun
  refine ⟨rfl, hrun, failsLast_of_forall (fun _ _ => List.not_mem_nil) _, ?_⟩
  intro other hother
  obtain rfl := Except.ok.inj hother
  exact hvalue

theorem throw (error : ε) :
    Faithful rule provider source (MonadExcept.throw error) (MonadExcept.throw error) gives := by
  refine of_pure (fun run => (.error error, run)) [] (fun _ => rfl) (fun _ => rfl) rfl ?_
  intro run hrun
  exact ⟨rfl, hrun, failsLast_of_forall (fun _ _ => List.not_mem_nil) _, fun _ hother => nomatch hother⟩

theorem settle {result : Except ε α} (hvalue : ∀ value, result = .ok value → gives value) :
    Faithful rule provider source (RunM.settle result) (RunM.settle result) gives := by
  cases result with
  | ok value => exact pure (hvalue value rfl)
  | error error => exact throw error

/-- An event in which the provider has no part. -/
theorem of_after {action : RunM m ε Unit} {asked : RunM Dialogue ε Unit} (event : Event)
    (haction : ∀ run, outcome action run = Pure.pure (.ok (), run.after event))
    (hasked : ∀ run, outcome asked run = Pure.pure (.ok (), run.after event))
    (hcall : event.call? = none) (hevent : event.Keyed rule) :
    Faithful rule provider source action asked fun _ => True := by
  refine of_pure (fun run => (.ok (), run.after event)) [event] haction hasked ?_ ?_
  · rw [List.filterMap_cons_none hcall, List.filterMap_nil]
  · intro run hrun
    refine ⟨rfl, hrun.after hevent, failsLast_of_forall ?_ _, fun _ _ => trivial⟩
    intro operation error hmem
    rw [← List.mem_singleton.1 hmem] at hcall
    exact nomatch hcall

variable [LawfulMonad m]

/-- Two faithful actions, one after the other, are faithful. -/
theorem bind {between : α → Prop} {action : RunM m ε α} {asked : RunM Dialogue ε α}
    {next : α → RunM m ε β} {askedNext : α → RunM Dialogue ε β} {gives : β → Prop}
    (haction : Faithful rule provider source action asked between)
    (hnext : ∀ value, between value →
      Faithful rule provider source (next value) (askedNext value) gives) :
    Faithful rule provider source (action >>= next) (asked >>= askedNext) gives where
  answered hprovider run hrun := by
    rw [outcome_bind, outcome_bind, haction.answered hprovider run hrun]
    have hends : (outcome asked run).Heeds rule.terms fun _ ending =>
        ending.2.Keyed rule ∧ ∀ value, ending.1 = .ok value → between value :=
      (haction.closes run hrun).mono fun _ _ ⟨_, _, hends⟩ => ⟨hends.keyed, hends.gives⟩
    refine hends.answer_bind hprovider ?_
    rintro ⟨result, left⟩ ⟨hleft, hresult⟩
    cases result with
    | error error => rfl
    | ok value => exact (hnext value (hresult value rfl)).answered hprovider left hleft
  closes run hrun := by
    rw [outcome_bind]
    apply Dialogue.Heeds.bind
    apply (haction.closes run hrun).mono
    rintro calls ⟨result, left⟩ ⟨events, rfl, hends⟩
    cases result with
    | error error =>
      refine ⟨events, (List.append_nil _).symm, hends.told, hends.keyed, ?_,
        fun _ hother => nomatch hother⟩
      intro earlier operation failure later hevents
      obtain ⟨hlater, stop, hstop, hsource⟩ :=
        hends.failsLast earlier operation failure later hevents
      exact ⟨hlater, stop, congrArg _ (Except.error.inj hstop), hsource⟩
    | ok value =>
      apply ((hnext value (hends.gives value rfl)).closes left hends.keyed).mono
      rintro further ending ⟨later, rfl, hlater⟩
      refine ⟨events ++ later, List.filterMap_append, ?_, hlater.keyed,
        failsLast_append hends.failsLast hlater.failsLast, hlater.gives⟩
      have hleft : left = run.afterAll events := hends.told
      rw [hlater.told, hleft, Run.afterAll_append]

/-- Wrapping the error keeps an action faithful if the wrapped error has the same source. -/
theorem mapError {change : ε → δ} {source : δ → Option ProviderError} {action : RunM m ε α}
    {asked : RunM Dialogue ε α}
    (haction : Faithful rule provider (fun error => source (change error)) action asked gives) :
    Faithful rule provider source (RunM.mapError change action) (RunM.mapError change asked)
      gives where
  answered hprovider run hrun := by
    rw [outcome_mapError, outcome_mapError, haction.answered hprovider run hrun]
    have hends : (outcome asked run).Heeds rule.terms fun _ _ => True :=
      (haction.closes run hrun).mono fun _ _ _ => trivial
    exact hends.answer_bind hprovider fun _ _ => rfl
  closes run hrun := by
    rw [outcome_mapError]
    apply Dialogue.Heeds.bind
    apply (haction.closes run hrun).mono
    rintro calls ⟨result, left⟩ ⟨events, rfl, hends⟩
    refine ⟨events, (List.append_nil _).symm, hends.told, hends.keyed, ?_, ?_⟩
    · intro earlier operation failure later hevents
      obtain ⟨hlater, stop, hstop, hsource⟩ :=
        hends.failsLast earlier operation failure later hevents
      obtain rfl : result = .error stop := hstop
      exact ⟨hlater, change stop, rfl, hsource⟩
    · intro value hvalue
      cases result with
      | error error => exact nomatch hvalue
      | ok other =>
        obtain rfl := Except.ok.inj hvalue
        exact hends.gives other rfl

theorem current :
    Faithful rule provider source (RunM.current : RunM m ε Run) RunM.current
      fun run => run.Keyed rule := by
  refine of_pure (fun run => (.ok run, run)) [] (fun run => outcome_current run)
    (fun run => outcome_current run) rfl ?_
  intro run hrun
  refine ⟨rfl, hrun, failsLast_of_forall (fun _ _ => List.not_mem_nil) _, ?_⟩
  intro other hother
  obtain rfl := Except.ok.inj hother
  exact hrun

theorem assign (name : String) {value : Value} (hvalue : value.Keyed rule) :
    Faithful rule provider source (RunM.assign name value) (RunM.assign name value)
      fun _ => True :=
  of_after (.assigned name value) (fun run => outcome_assign run name value)
    (fun run => outcome_assign run name value) rfl hvalue

theorem write (name : String) {value : Value} (hvalue : value.Keyed rule) :
    Faithful rule provider source (RunM.write name value) (RunM.write name value)
      fun _ => True :=
  of_after (.wrote name value) (fun run => outcome_write run name value)
    (fun run => outcome_write run name value) rfl hvalue

theorem log (message : String) :
    Faithful rule provider source (RunM.note (.logged message)) (RunM.note (.logged message))
      fun _ => True :=
  of_after (.logged message) (fun run => outcome_modify run _) (fun run => outcome_modify run _)
    rfl trivial

theorem clock :
    Faithful rule provider source (RunM.clock provider) (RunM.clock .asking)
      fun _ => True where
  answered _ run _ := by
    rw [outcome_clock, outcome_clock]
    rfl
  closes run hrun := by
    rw [outcome_clock]
    intro time
    have hafter : (run.after (.readClock time)).Keyed rule := hrun.after trivial
    refine ⟨[.readClock time], rfl, rfl, hafter, failsLast_of_forall ?_ _, fun _ _ => trivial⟩
    intro operation error hmem
    exact nomatch List.mem_singleton.1 hmem

/-- Performing an operation is faithful to asking for it. -/
theorem perform (label : String) (operation : Operation) (hasks : operation.Asked rule) :
    Faithful rule provider Fault.source? (RunM.perform provider label operation)
      (RunM.perform .asking label operation) (operation.Answered rule) where
  answered _ run _ := by
    rw [outcome_perform, outcome_perform]
    rfl
  closes run hrun := by
    rw [outcome_perform]
    refine ⟨hasks, fun reply hreply => ?_⟩
    have hafter : (run.after (.performed operation reply)).Keyed rule := hrun.after trivial
    refine ⟨[.performed operation reply], rfl, rfl, hafter, ?_, ?_⟩
    · intro earlier other error later hevents
      cases earlier with
      | cons => simp at hevents
      | nil =>
        obtain ⟨hevent, rfl⟩ := List.cons.inj hevents
        cases hevent
        exact ⟨rfl, _, rfl, rfl⟩
    · intro answer hanswer
      cases reply with
      | error error => exact nomatch hanswer
      | ok given =>
        obtain rfl := Except.ok.inj hanswer
        exact hreply given rfl

end Faithful

end MetricScript
