import Mathlib
import MetricScript.Proofs.Run.Plain

/-!
# What a run keeps up

The journal of a run tells its whole state: variables and output are what the events in it
made of them.  A run is sound if its state is told by its journal and every event of the
journal is tidy.  The states that the run went through are then told by the earlier parts of
the journal, and they are tidy as well.

`Keeps` says of an action that it leads from sound runs to sound runs, whatever the provider
does.  Nothing is assumed of the effects of the provider but the laws of a monad, so what
holds of all outcomes is said by `Always`.
-/

namespace MetricScript

variable {m : Type → Type} [Monad m] {α β ε δ : Type}

/-! ## All outcomes of an effect -/

/-- Every outcome of an effect has a property: the effect can be had with outcomes that
bring the proof along. -/
def Always (effect : m α) (holds : α → Prop) : Prop :=
  ∃ checked : m { outcome : α // holds outcome }, Subtype.val <$> checked = effect

section Always

variable [LawfulMonad m]

/-- A pure effect ends in its one outcome. -/
theorem always_pure {outcome : α} {holds : α → Prop} (houtcome : holds outcome) :
    Always (pure outcome : m α) holds :=
  ⟨pure ⟨outcome, houtcome⟩, map_pure _ _⟩

theorem always_true (effect : m α) : Always effect fun _ => True := by
  refine ⟨(fun outcome => ⟨outcome, trivial⟩) <$> effect, ?_⟩
  rw [← comp_map]
  exact id_map effect

/-- What always holds may be weakened. -/
theorem always_mono {effect : m α} {holds weaker : α → Prop} (halways : Always effect holds)
    (himp : ∀ outcome, holds outcome → weaker outcome) : Always effect weaker := by
  obtain ⟨checked, rfl⟩ := halways
  refine ⟨(fun outcome => ⟨outcome.1, himp outcome.1 outcome.2⟩) <$> checked, ?_⟩
  rw [← comp_map]
  rfl

/-- Of two effects in a row, the second starts from what the first always gives. -/
theorem always_bind {effect : m α} {next : α → m β} {between : α → Prop} {holds : β → Prop}
    (heffect : Always effect between)
    (hnext : ∀ outcome, between outcome → Always (next outcome) holds) :
    Always (effect >>= next) holds := by
  obtain ⟨checked, rfl⟩ := heffect
  choose continued hcontinued using hnext
  refine ⟨checked >>= fun outcome => continued outcome.1 outcome.2, ?_⟩
  rw [map_bind, bind_map_left]
  congr 1
  funext outcome
  exact hcontinued outcome.1 outcome.2

/-- The outcomes of an effect on a state are those that it has for each state. -/
theorem always_stateT {σ : Type} {effect : StateT σ m α} {holds : α → Prop}
    (halways : Always effect holds) (state : σ) :
    Always (effect.run state) fun ending => holds ending.1 := by
  obtain ⟨checked, rfl⟩ := halways
  refine ⟨(fun ending => ⟨(ending.1.1, ending.2), ending.1.2⟩) <$> checked.run state, ?_⟩
  rw [← comp_map, StateT.run_map]
  rfl

/-- Without other effects there is one outcome for each state. -/
theorem always_state {σ : Type} {effect : StateM σ α} {holds : α → Prop}
    (halways : Always effect holds) (state : σ) : holds (effect.run state).1 := by
  obtain ⟨checked, rfl⟩ := halways
  exact (checked state).1.2

end Always

/-! ## The state that a journal tells -/

/-- What an event is allowed to put into the state. -/
def Event.Tidy : Event → Prop
  | .assigned _ value => value.Tidy
  | .wrote _ value => value.Plain
  | .readClock _ | .performed _ _ | .logged _ => True

namespace Run

def after (run : Run) (event : Event) : Run :=
  match event with
  | .assigned name value =>
      { run with
        bindings := Table.insert name value run.bindings
        journal := event :: run.journal }
  | .wrote name value =>
      { run with
        output := Table.insert name value run.output
        journal := event :: run.journal }
  | .readClock _ | .performed _ _ | .logged _ => { run with journal := event :: run.journal }

/-- The run that a journal tells of, the latest event of which comes first. -/
def replay (arguments : Table Value) : List Event → Run
  | [] => { arguments }
  | event :: past => (replay arguments past).after event

theorem after_journal (run : Run) (event : Event) :
    (run.after event).journal = event :: run.journal := by
  cases event with
  | readClock | performed | logged | assigned | wrote => rfl

theorem journal_suffix_after (run : Run) (event : Event) :
    run.journal <:+ (run.after event).journal := by
  rw [after_journal]
  exact List.suffix_cons event run.journal

theorem replay_arguments (arguments : Table Value) (past : List Event) :
    (replay arguments past).arguments = arguments := by
  induction past with
  | nil => rfl
  | cons event past ih =>
    cases event with
    | readClock | performed | logged | assigned | wrote => exact ih

/-- The variables are tidy and the output is plain data. -/
structure Clean (run : Run) : Prop where
  bindings : Table.Tidy run.bindings
  output : Table.Plain run.output

theorem Clean.after {run : Run} (hclean : run.Clean) (event : Event) (hevent : event.Tidy) :
    (run.after event).Clean := by
  cases event with
  | readClock | performed | logged => exact ⟨hclean.bindings, hclean.output⟩
  | assigned name value =>
    exact ⟨Table.forall_insert hclean.bindings name hevent, hclean.output⟩
  | wrote name value => exact ⟨hclean.bindings, Table.forall_insert hclean.output name hevent⟩

/-- Tidy events lead to clean states. -/
theorem clean_replay (arguments : Table Value) {past : List Event}
    (hpast : ∀ event ∈ past, event.Tidy) : (replay arguments past).Clean := by
  induction past with
  | nil => exact ⟨List.forall_mem_nil _, List.forall_mem_nil _⟩
  | cons event past ih =>
    obtain ⟨hevent, hbefore⟩ := List.forall_mem_cons.1 hpast
    exact (ih hbefore).after event hevent

/-- The journal tells the state of the run, and all of its events are tidy. -/
structure Sound (arguments : Table Value) (run : Run) : Prop where
  told : run = replay arguments run.journal
  events : ∀ event ∈ run.journal, event.Tidy

/-- A sound run still has the arguments it was started with. -/
theorem Sound.arguments_eq {arguments : Table Value} {run : Run} (hsound : run.Sound arguments) :
    run.arguments = arguments := by
  rw [hsound.told]
  exact replay_arguments arguments run.journal

theorem Sound.clean {arguments : Table Value} {run : Run} (hsound : run.Sound arguments) :
    run.Clean := by
  rw [hsound.told]
  exact clean_replay arguments hsound.events

theorem Sound.after {arguments : Table Value} {run : Run} (hsound : run.Sound arguments)
    (event : Event) (hevent : event.Tidy) : (run.after event).Sound arguments where
  told := by
    rw [after_journal]
    exact congrArg (Run.after · event) hsound.told
  events := by
    rw [after_journal]
    exact List.forall_mem_cons.2 ⟨hevent, hsound.events⟩

/-- Every earlier part of the journal tells a sound run. -/
theorem sound_replay (arguments : Table Value) {past : List Event}
    (hpast : ∀ event ∈ past, event.Tidy) : (replay arguments past).Sound arguments := by
  induction past with
  | nil => exact ⟨rfl, List.forall_mem_nil _⟩
  | cons event past ih =>
    obtain ⟨hevent, hbefore⟩ := List.forall_mem_cons.1 hpast
    exact (ih hbefore).after event hevent

end Run

/-! ## Actions -/

namespace RunM

/-- How an action ends when it starts from a run, and the run that it leaves. -/
def outcome (action : RunM m ε α) (run : Run) : m (Except ε α × Run) := (action.run).run run

section Outcomes

variable (run : Run)

/-- The outcome of two actions in a row, the second only if the first went well. -/
theorem outcome_bind (action : RunM m ε α) (next : α → RunM m ε β) :
    outcome (action >>= next) run = outcome action run >>= fun ending =>
      match ending.1 with
      | .ok value => outcome (next value) ending.2
      | .error error => pure (.error error, ending.2) := by
  change outcome action run >>= _ = _
  congr 1
  funext ending
  obtain ⟨result, left⟩ := ending
  cases result with
  | ok value => rfl
  | error error => rfl

/-- Changing the error leaves the final run alone. -/
theorem outcome_mapError (change : ε → δ) (action : RunM m ε α) :
    outcome (mapError change action) run =
      outcome action run >>= fun ending => pure (ending.1.mapError change, ending.2) := rfl

/-- Where the provider has a state, an action goes on from the end of the one before it. -/
theorem run_outcome_bind {σ : Type} (action : RunM (StateM σ) ε α) (next : α → RunM (StateM σ) ε β)
    (before : σ) :
    (outcome (action >>= next) run).run before =
      match (outcome action run).run before with
      | ((.ok value, reached), between) => (outcome (next value) reached).run between
      | ((.error error, reached), between) => ((.error error, reached), between) := by
  rw [outcome_bind]
  change StateT.run (_ >>= _) before = _
  rw [StateT.run_bind]
  rcases (outcome action run).run before with ⟨⟨error | value, reached⟩, between⟩
  · rfl
  · rfl

variable [LawfulMonad m]

theorem outcome_current : outcome (current : RunM m ε Run) run = pure (.ok run, run) := by
  change (pure (run, run) >>= fun ending : Run × Run => pure (Except.ok ending.1, ending.2)) = _
  rw [pure_bind]

theorem outcome_outside (question : m α) :
    outcome (outside question : RunM m ε α) run =
      question >>= fun answer => pure (.ok answer, run) := by
  change ((question >>= fun answer => pure (answer, run)) >>=
    fun ending : α × Run => pure (Except.ok ending.1, ending.2)) = _
  rw [bind_assoc]
  simp only [pure_bind]

theorem outcome_modify (change : Run → Run) :
    outcome (modify change : RunM m ε Unit) run = pure (.ok (), change run) := by
  change (pure ((), change run) >>=
    fun ending : Unit × Run => pure (Except.ok ending.1, ending.2)) = _
  rw [pure_bind]

theorem outcome_assign (name : String) (value : Value) :
    outcome (assign name value : RunM m ε Unit) run =
      pure (.ok (), run.after (.assigned name value)) := by
  unfold assign note
  rw [outcome_bind, outcome_modify, pure_bind]
  exact outcome_modify _ _

theorem outcome_write (name : String) (value : Value) :
    outcome (write name value : RunM m ε Unit) run =
      pure (.ok (), run.after (.wrote name value)) := by
  unfold write note
  rw [outcome_bind, outcome_modify, pure_bind]
  exact outcome_modify _ _

end Outcomes

end RunM

open RunM

/-- The action leads from sound runs to sound runs and only adds to the journal; if it
succeeds then with a value as in `gives`, and if it stops then with an error as in `fails`. -/
def Keeps (arguments : Table Value) (action : RunM m ε α) (gives : α → Prop)
    (fails : ε → Prop) : Prop :=
  ∀ run : Run, run.Sound arguments → Always (outcome action run) fun ending =>
    ending.2.Sound arguments ∧ run.journal <:+ ending.2.journal ∧
      match ending.1 with
      | .ok value => gives value
      | .error error => fails error

namespace Keeps

variable [LawfulMonad m] {arguments : Table Value} {gives weaker : α → Prop}
variable {fails weakerFails : ε → Prop}

theorem pure {value : α} (hvalue : gives value) :
    Keeps arguments (Pure.pure value : RunM m ε α) gives fails :=
  fun _ hsound => always_pure ⟨hsound, List.suffix_rfl, hvalue⟩

theorem throw {error : ε} (herror : fails error) :
    Keeps arguments (MonadExcept.throw error : RunM m ε α) gives fails :=
  fun _ hsound => always_pure ⟨hsound, List.suffix_rfl, herror⟩

theorem mono {action : RunM m ε α} (hkeeps : Keeps arguments action gives fails)
    (hgives : ∀ value, gives value → weaker value)
    (hfails : ∀ error, fails error → weakerFails error) :
    Keeps arguments action weaker weakerFails := by
  intro run hsound
  apply always_mono (hkeeps run hsound)
  rintro ⟨result, left⟩ ⟨hleft, hgrown, hresult⟩
  cases result with
  | ok value => exact ⟨hleft, hgrown, hgives value hresult⟩
  | error error => exact ⟨hleft, hgrown, hfails error hresult⟩

/-- Two actions that keep the run sound keep it sound one after the other. -/
theorem bind {between : α → Prop} {action : RunM m ε α} {next : α → RunM m ε β}
    {gives : β → Prop} (haction : Keeps arguments action between fails)
    (hnext : ∀ value, between value → Keeps arguments (next value) gives fails) :
    Keeps arguments (action >>= next) gives fails := by
  intro run hsound
  rw [outcome_bind]
  apply always_bind (haction run hsound)
  rintro ⟨result, left⟩ ⟨hleft, hgrown, hresult⟩
  cases result with
  | ok value =>
    apply always_mono (hnext value hresult left hleft)
    rintro ending ⟨hending, hfurther, hgives⟩
    exact ⟨hending, hgrown.trans hfurther, hgives⟩
  | error error => exact always_pure ⟨hleft, hgrown, hresult⟩

theorem mapError {change : ε → δ} {action : RunM m ε α} {fails : δ → Prop}
    (haction : Keeps arguments action gives fun error => fails (change error)) :
    Keeps arguments (RunM.mapError change action) gives fails := by
  intro run hsound
  rw [outcome_mapError]
  apply always_bind (haction run hsound)
  rintro ⟨result, left⟩ ⟨hleft, hgrown, hresult⟩
  cases result with
  | ok value => exact always_pure ⟨hleft, hgrown, hresult⟩
  | error error => exact always_pure ⟨hleft, hgrown, hresult⟩

theorem settle {result : Except ε α} (hvalue : ∀ value, result = .ok value → gives value)
    (herror : ∀ error, result = .error error → fails error) :
    Keeps arguments (RunM.settle result : RunM m ε α) gives fails := by
  cases result with
  | ok value => exact pure (hvalue value rfl)
  | error error => exact throw (herror error rfl)

theorem outside (question : m α) :
    Keeps arguments (RunM.outside question : RunM m ε α) (fun _ => True) fails := by
  intro run hsound
  rw [outcome_outside]
  apply always_bind (always_true question)
  exact fun _ _ => always_pure ⟨hsound, List.suffix_rfl, trivial⟩

theorem current :
    Keeps arguments (RunM.current : RunM m ε Run)
      (fun run => run.arguments = arguments ∧ run.Clean) fails := by
  intro run hsound
  rw [outcome_current]
  exact always_pure ⟨hsound, List.suffix_rfl, hsound.arguments_eq, hsound.clean⟩

/-- A tidy event can happen at any time. -/
theorem of_after {action : RunM m ε Unit} {event : Event}
    (haction : ∀ run, outcome action run = Pure.pure (.ok (), run.after event))
    (hevent : event.Tidy) : Keeps arguments action (fun _ => True) fails := by
  intro run hsound
  rw [haction run]
  exact always_pure ⟨hsound.after event hevent, run.journal_suffix_after event, trivial⟩

theorem assign (name : String) {value : Value} (hvalue : value.Tidy) :
    Keeps arguments (RunM.assign name value : RunM m ε Unit) (fun _ => True) fails :=
  of_after (fun run => outcome_assign run name value) hvalue

theorem write (name : String) {value : Value} (hvalue : value.Plain) :
    Keeps arguments (RunM.write name value : RunM m ε Unit) (fun _ => True) fails :=
  of_after (fun run => outcome_write run name value) hvalue

/-- An event that is not about the state is noted. -/
theorem note (event : Event)
    (hevent : ∀ run : Run, { run with journal := event :: run.journal } = run.after event)
    (htidy : event.Tidy) :
    Keeps arguments (RunM.note event : RunM m ε Unit) (fun _ => True) fails := by
  apply of_after _ htidy
  intro run
  rw [RunM.note, outcome_modify, hevent run]

theorem clock (provider : Provider m) :
    Keeps arguments (RunM.clock provider : RunM m ε Int64) (fun _ => True) fails := by
  apply bind (outside provider.now)
  intro time _
  apply bind (note (.readClock time) (fun _ => rfl) trivial)
  exact fun _ _ => pure trivial

/-- An operation keeps the run sound, whatever the provider replies. -/
theorem perform (provider : Provider m) {label : String} {operation : Operation}
    {fails : Fault → Prop} (hfails : ∀ error, fails (.provider label error)) :
    Keeps arguments (RunM.perform provider label operation) (fun _ => True) fails := by
  apply bind (outside (provider.perform operation))
  intro reply _
  apply bind (note (.performed operation reply) (fun _ => rfl) trivial)
  intro _ _
  refine settle (fun _ _ => trivial) ?_
  intro fault hfault
  cases reply with
  | ok answer => exact nomatch hfault
  | error error =>
    obtain rfl := Except.error.inj hfault
    exact hfails error

end Keeps

end MetricScript
