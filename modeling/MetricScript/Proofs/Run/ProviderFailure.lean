import Mathlib
import MetricScript.Proofs.Run.Conversation

/-!
# Failures of the provider end a run

A run with any provider is the dialogue of its script, answered by that provider.  On every way
through the dialogue a failure of the provider is the last call and the last event, and the run
ends with an error that has it as its source.  So a run that ends otherwise had an answer to
each of its calls, and any provider that gives the same answers brings about the same run.
-/

namespace MetricScript

open RunM

/-! ## The journal and the events of a run -/

namespace Run

theorem journal_afterAll (run : Run) (events : List Event) :
    (run.afterAll events).journal = events.reverse ++ run.journal := by
  induction events generalizing run with
  | nil => rfl
  | cons event events ih =>
    change ((run.after event).afterAll events).journal = _
    rw [ih, after_journal, List.reverse_cons, List.append_assoc, List.singleton_append]

theorem afterAll_start (arguments : Table Value) (events : List Event) :
    ({ arguments } : Run).afterAll events = replay arguments events.reverse := by
  induction events using List.reverseRecOn with
  | nil => rfl
  | append_singleton events event ih =>
    rw [afterAll_append, ih, List.reverse_append]
    rfl

theorem calls_afterAll_start (arguments : Table Value) (events : List Event) :
    (({ arguments } : Run).afterAll events).calls = events.filterMap Event.call? := by
  rw [calls, journal_afterAll, List.reverse_append, List.reverse_reverse]
  rfl

end Run

/-- A failed call of a run is one of its events. -/
theorem failed_event_of_call {events : List Event} {earlier later : List Call}
    {operation : Operation} {error : ProviderError} (hcalls : events.filterMap Event.call? =
      earlier ++ .performed operation (.error error) :: later) :
    ∃ past rest, events = past ++ .performed operation (.error error) :: rest ∧
      rest.filterMap Event.call? = later := by
  obtain ⟨past, behind, rfl, _, hbehind⟩ := List.filterMap_eq_append_iff.1 hcalls
  obtain ⟨quiet, event, rest, rfl, _, hevent, hrest⟩ := List.filterMap_eq_cons_iff.1 hbehind
  have hfailed : event = .performed operation (.error error) := by
    cases event with
    | performed other reply =>
      cases Option.some.inj hevent
      rfl
    | readClock time => cases Option.some.inj hevent
    | logged | assigned | wrote => exact nomatch hevent
  exact ⟨past ++ quiet, rest, by rw [hfailed, List.append_assoc], hrest⟩

/-! ## The dialogue of a script -/

/-- How a script ended whose commands came to this. -/
def Ending.of : Except Stop Unit × Run → Ending
  | (.ok (), final) => .finished final.output
  | (.error (.failed error), _) => .failed error
  | (.error .exhausted, _) => .exhausted

/-- A run stopped by the provider ends in the error that names it. -/
theorem ending_of_source {stop : Stop} {error : ProviderError}
    (hsource : stop.source? = some error) (final : Run) :
    ∃ label place, Ending.of (.error stop, final) = .failed ⟨.provider label error, place⟩ := by
  cases stop with
  | exhausted => exact nomatch hsource
  | failed failure =>
    obtain ⟨fault, place⟩ := failure
    cases fault with
    | provider label source =>
      obtain rfl := Option.some.inj hsource
      exact ⟨label, place, rfl⟩
    | _ => exact nomatch hsource

namespace Script

variable {m : Type → Type} [Monad m]

/-- A run is the outcome of its commands from the empty start. -/
theorem run_eq (script : Script) (provider : Provider m) (passes : Nat)
    (arguments : Table Value) :
    script.run provider passes arguments =
      outcome (Command.executeAll provider passes script) { arguments } >>= fun ended =>
        pure (.of ended, ended.2) := by
  unfold run
  congr 1
  funext ended
  obtain ⟨result, final⟩ := ended
  cases result with
  | ok done => rfl
  | error stop =>
    cases stop with
    | failed error => rfl
    | exhausted => rfl

/-- The rule that allows everything asks nothing of an answer. -/
theorem answered_any (operation : Operation) (answer : operation.Answer) :
    operation.Answered .any answer := by
  cases operation with
  | readStorage key => exact (Json.object answer).keyed_any
  | http request => exact ⟨answer.body.keyed_any, trivial⟩
  | counterValue | setCounter | incrementCounter | seriesLast | seriesAggregate | seriesCompute
  | seriesPush | seriesPop | seriesTrim | seriesItems | writeStorage | fileText => exact trivial

theorem respects_any [LawfulMonad m] (provider : Provider m) :
    provider.Respects KeyRule.any.terms := by
  intro operation _
  apply always_mono (always_true _)
  exact fun reply _ answer _ => answered_any operation answer

theorem keyed_start (arguments : Table Value) : ({ arguments } : Run).Keyed .any :=
  ⟨fun entry _ => entry.2.keyed_any, List.forall_mem_nil _⟩

/-- A run with a provider is the dialogue of the script, answered by the provider. -/
theorem run_eq_answer [LawfulMonad m] (script : Script) (provider : Provider m) (passes : Nat)
    (arguments : Table Value) :
    script.run provider passes arguments =
      (script.run .asking passes arguments).answer provider := by
  have hfaithful : Faithful .any provider Stop.source?
      (Command.executeAll provider passes script) (Command.executeAll .asking passes script)
      fun _ => True := Command.faithful_executeAll script
  have hprovider := respects_any provider
  have hstart := keyed_start arguments
  have hends : (outcome (Command.executeAll .asking passes script) { arguments }).Heeds
      KeyRule.any.terms fun _ _ => True :=
    (hfaithful.closes _ hstart).mono fun _ _ _ => trivial
  rw [run_eq, run_eq, hfaithful.answered hprovider _ hstart]
  exact hends.answer_bind hprovider fun _ _ => rfl

/-- On every way through the dialogue of a script on which maps keep to a rule, the events tell
the run and its end. -/
theorem heeds_run {rule : KeyRule} (script : Script) (passes : Nat) {arguments : Table Value}
    (hstart : ({ arguments } : Run).Keyed rule) :
    (script.run .asking passes arguments).Heeds rule.terms fun calls ended =>
      ∃ events result, events.filterMap Event.call? = calls ∧
        ended.2 = ({ arguments } : Run).afterAll events ∧ FailsLast Stop.source? events result ∧
          ended.1 = .of (result, ended.2) := by
  have hfaithful : Faithful rule Provider.asking Stop.source?
      (Command.executeAll .asking passes script) (Command.executeAll .asking passes script)
      fun _ => True := Command.faithful_executeAll script
  rw [run_eq]
  apply Dialogue.Heeds.bind
  apply (hfaithful.closes _ hstart).mono
  rintro calls ⟨result, left⟩ ⟨events, rfl, hends⟩
  exact ⟨events, result, (List.append_nil _).symm, hends.told, hends.failsLast, rfl⟩

/-- The events on a way through the dialogue of a script. -/
theorem exists_events {script : Script} {passes : Nat} {arguments : Table Value}
    {calls : List Call} {ending : Ending} {final : Run}
    (hleads : (script.run .asking passes arguments).Leads calls (ending, final)) :
    ∃ events result, events.filterMap Event.call? = calls ∧
      final = ({ arguments } : Run).afterAll events ∧ FailsLast Stop.source? events result ∧
        ending = .of (result, final) := by
  have hheeds := heeds_run script passes (keyed_start arguments)
  exact hheeds.of_leads (fun operation reply answer _ => answered_any operation answer) hleads

end Script

/-- **No failure of the provider is swallowed.**  A run is its dialogue with the provider, and
with a deterministic provider it goes one way through the dialogue.  On every way the journal
tells the run and its calls.  A call that failed is the last one, nothing else happens after
it, and the run ends with an error that has this failure as its source.  If the run ends in any
other way, each operation was answered.  Any provider that answers in the same way brings
about the same run. -/
theorem provider_failure_ends_run (script : Script) (passes : Nat) (arguments : Table Value) :
    let dialogue := script.run .asking passes arguments
    (∀ {m : Type → Type} [Monad m] [LawfulMonad m] (provider : Provider m),
      script.run provider passes arguments = dialogue.answer provider) ∧
    (∀ {σ : Type} (provider : Provider (StateM σ)) (before : σ), ∃ calls,
      let ran := (script.run provider passes arguments).run before
      dialogue.Leads calls ran.1 ∧ provider.Answers before calls ran.2) ∧
    ∀ calls ending final, dialogue.Leads calls (ending, final) →
      final = Run.replay arguments final.journal ∧ final.calls = calls ∧
      (∀ earlier operation error later,
        calls = earlier ++ .performed operation (.error error) :: later →
          later = [] ∧ (∃ past, final.journal = .performed operation (.error error) :: past) ∧
            ∃ label place, ending = .failed ⟨.provider label error, place⟩) ∧
      ((∀ label error place, ending ≠ .failed ⟨.provider label error, place⟩) →
        ∀ operation reply, .performed operation reply ∈ calls → ∃ answer, reply = .ok answer) ∧
      ∀ {σ : Type} (other : Provider (StateM σ)) (before after : σ),
        other.Answers before calls after →
          (script.run other passes arguments).run before = ((ending, final), after) := by
  refine ⟨fun provider => script.run_eq_answer provider passes arguments, ?_, ?_⟩
  · intro σ provider before
    rw [Script.run_eq_answer]
    exact Dialogue.exists_leads _ before
  intro calls ending final hleads
  obtain ⟨events, result, rfl, rfl, hfails, rfl⟩ := Script.exists_events hleads
  have hjournal : (({ arguments } : Run).afterAll events).journal = events.reverse := by
    rw [Run.journal_afterAll]
    exact List.append_nil _
  have hlast : ∀ earlier operation error later, events.filterMap Event.call? =
      earlier ++ .performed operation (.error error) :: later →
        later = [] ∧ (∃ past, events.reverse = .performed operation (.error error) :: past) ∧
          ∃ label place, Ending.of (result, ({ arguments } : Run).afterAll events) =
            .failed ⟨.provider label error, place⟩ := by
    intro earlier operation error later hcalls
    obtain ⟨past, rest, hevents, rfl⟩ := failed_event_of_call hcalls
    obtain ⟨rfl, stop, rfl, hsource⟩ := hfails past operation error rest hevents
    refine ⟨rfl, ⟨past.reverse, ?_⟩, ending_of_source hsource _⟩
    rw [hevents, List.reverse_append]
    rfl
  refine ⟨?_, Run.calls_afterAll_start arguments events, ?_, ?_, ?_⟩
  · rw [hjournal]
    exact Run.afterAll_start arguments events
  · rw [hjournal]
    exact hlast
  · intro hother operation reply hmem
    obtain ⟨earlier, later, hcalls⟩ := List.append_of_mem hmem
    cases reply with
    | ok answer => exact ⟨answer, rfl⟩
    | error error =>
      obtain ⟨_, _, label, place, hending⟩ := hlast earlier operation error later hcalls
      exact absurd hending (hother label error place)
  · intro σ other before after hanswers
    rw [Script.run_eq_answer]
    exact hleads.run_answer hanswers

end MetricScript
