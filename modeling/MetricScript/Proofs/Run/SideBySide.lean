import Mathlib
import MetricScript.Proofs.Run.Faithful
import MetricScript.Proofs.Run.Renaming

/-!
# Runs side by side

Two effects can be shown to be one effect that is looked at from two sides: then they ask the
same of the world outside, and each outcome of one belongs to an outcome of the other.  In this
way an action is compared with the action in which the variables have other names.  On both
sides the same happens, event for event, up to the names of the variables, and on the way no
name is used that is not in the vocabulary.

Output tables and journals do not enter the comparison: the runs that two actions start from
need only agree on arguments and variables.
-/

namespace MetricScript

open RunM

variable {m : Type → Type} [Monad m] {α β γ δ ε : Type}

/-! ## One effect from two sides -/

/-- The two effects are the two sides of one effect, the outcomes of which are related. -/
def Together (left : m α) (right : m β) (related : α → β → Prop) : Prop :=
  ∃ both : m { pair : α × β // related pair.1 pair.2 },
    (fun pair => pair.1.1) <$> both = left ∧ (fun pair => pair.1.2) <$> both = right

section Together

variable [LawfulMonad m]

/-- Two pure effects end in their related outcomes. -/
theorem together_pure {left : α} {right : β} {related : α → β → Prop}
    (hrelated : related left right) : Together (pure left : m α) (pure right) related :=
  ⟨pure ⟨(left, right), hrelated⟩, map_pure _ _, map_pure _ _⟩

theorem together_self (effect : m α) : Together effect effect (· = ·) := by
  refine ⟨(fun outcome => ⟨(outcome, outcome), rfl⟩) <$> effect, ?_, ?_⟩
  · rw [← comp_map]
    exact id_map effect
  · rw [← comp_map]
    exact id_map effect

/-- The relation of two effects may be weakened. -/
theorem together_mono {left : m α} {right : m β} {related weaker : α → β → Prop}
    (htogether : Together left right related)
    (himp : ∀ outcome other, related outcome other → weaker outcome other) :
    Together left right weaker := by
  obtain ⟨both, rfl, rfl⟩ := htogether
  refine ⟨(fun pair => ⟨pair.1, himp pair.1.1 pair.1.2 pair.2⟩) <$> both, ?_, ?_⟩
  · rw [← comp_map]
    rfl
  · rw [← comp_map]
    rfl

/-- Effects that go together go together when continued alike. -/
theorem together_bind {left : m α} {right : m β} {between : α → β → Prop} {next : α → m γ}
    {other : β → m δ} {related : γ → δ → Prop} (htogether : Together left right between)
    (hnext : ∀ outcome counterpart, between outcome counterpart →
      Together (next outcome) (other counterpart) related) :
    Together (left >>= next) (right >>= other) related := by
  obtain ⟨both, rfl, rfl⟩ := htogether
  choose continued hleft hright using hnext
  refine ⟨both >>= fun pair => continued pair.1.1 pair.1.2 pair.2, ?_, ?_⟩
  · rw [map_bind, bind_map_left]
    exact congrArg _ (funext fun pair => hleft _ _ pair.2)
  · rw [map_bind, bind_map_left]
    exact congrArg _ (funext fun pair => hright _ _ pair.2)

/-- What is seen on one side. -/
theorem Together.always {left : m α} {right : m β} {related : α → β → Prop}
    (htogether : Together left right related) :
    Always left fun outcome => ∃ other, related outcome other := by
  obtain ⟨both, rfl, -⟩ := htogether
  refine ⟨(fun pair => ⟨pair.1.1, pair.1.2, pair.2⟩) <$> both, ?_⟩
  rw [← comp_map]
  rfl

/-- The two sides of an effect on a state leave the same state behind. -/
theorem Together.run_state {σ : Type} {left : StateM σ α} {right : StateM σ β}
    {related : α → β → Prop} (htogether : Together left right related) (state : σ) :
    related (left.run state).1 (right.run state).1 ∧
      (left.run state).2 = (right.run state).2 := by
  obtain ⟨both, rfl, rfl⟩ := htogether
  exact ⟨(both state).1.2, rfl⟩

end Together

/-! ## What events make of a run -/

/-- The variable that an event binds, with its value. -/
def Event.assignment? : Event → Option (String × Value)
  | .assigned name value => some (name, value)
  | .wrote _ _ | .performed _ _ | .readClock _ | .logged _ => none

/-- The entry of the output table that an event writes. -/
def Event.write? : Event → Option (String × Value)
  | .wrote name value => some (name, value)
  | .assigned _ _ | .performed _ _ | .readClock _ | .logged _ => none

/-- The table after some entries were put into it, the later of which come last. -/
def Table.insertAll (entries : Table α) (pairs : List (String × α)) : Table α :=
  pairs.foldl (fun entries pair => Table.insert pair.1 pair.2 entries) entries

namespace Run

theorem bindings_afterAll (run : Run) (events : List Event) :
    (run.afterAll events).bindings =
      Table.insertAll run.bindings (events.filterMap Event.assignment?) := by
  induction events generalizing run with
  | nil => rfl
  | cons event events ih =>
    refine (ih (run.after event)).trans ?_
    cases event with
    | readClock | performed | logged | assigned | wrote => rfl

theorem output_afterAll (run : Run) (events : List Event) :
    (run.afterAll events).output =
      Table.insertAll run.output (events.filterMap Event.write?) := by
  induction events generalizing run with
  | nil => rfl
  | cons event events ih =>
    refine (ih (run.after event)).trans ?_
    cases event with
    | readClock | performed | logged | assigned | wrote => rfl

end Run

/-! ## Names on two sides -/

/-- A vocabulary, and other names for its variables. -/
structure Naming extends Vocabulary where
  rename : String → String
  injective : Function.Injective rename

def Event.renamed (rename : String → String) : Event → Event
  | .assigned name value => .assigned (rename name) (value.renamed rename)
  | .wrote name value => .wrote name value
  | .performed operation reply => .performed operation reply
  | .readClock time => .readClock time
  | .logged message => .logged message

/-- The fault is the same, except for the names of variables in the text of an expression. -/
inductive Fault.Renamed (rename : String → String) : Fault → Fault → Prop where
  | same (fault : Fault) : Renamed rename fault fault
  | unknownVariable (name : String) :
      Renamed rename (.unknownVariable name) (.unknownVariable (rename name))
  | notCallable (target : Expr) :
      Renamed rename (.notCallable target.text) (.notCallable (target.renamed rename).text)

/-- The errors have the same place and faults that are the same up to the names of variables. -/
structure RuntimeError.Renamed (rename : String → String) (left right : RuntimeError) : Prop where
  fault : left.fault.Renamed rename right.fault
  position : left.position = right.position

inductive Stop.Renamed (rename : String → String) : Stop → Stop → Prop where
  | failed {left right : RuntimeError} (herror : left.Renamed rename right) :
      Renamed rename (.failed left) (.failed right)
  | exhausted : Renamed rename .exhausted .exhausted

namespace Naming

/-- A value within the vocabulary and its counterpart. -/
structure Pairs (naming : Naming) (left right : Value) : Prop where
  renamed : right = left.renamed naming.rename
  within : left.Within naming.toVocabulary

/-- The runs have the same arguments and variables up to renaming, and the values of both keep
to the vocabulary. -/
structure Paired (naming : Naming) (left right : Run) : Prop where
  arguments : right.arguments = Table.mapValues (Value.renamed naming.rename) left.arguments
  argumentsWithin : ∀ entry ∈ left.arguments, entry.2.Within naming.toVocabulary
  bindings : ∀ name, Table.get? (naming.rename name) right.bindings =
    (Table.get? name left.bindings).map (Value.renamed naming.rename)
  bindingsWithin : ∀ entry ∈ left.bindings, entry.2.Within naming.toVocabulary

/-- The naming in which everything may be used. -/
def free {rename : String → String} (hinjective : Function.Injective rename) : Naming where
  rename := rename
  injective := hinjective

/-- The naming that leaves the names of a vocabulary as they are. -/
def kept (vocabulary : Vocabulary) : Naming where
  toVocabulary := vocabulary
  rename := id
  injective := Function.injective_id

/-- Under a free naming every value is within the vocabulary. -/
theorem within_free {rename : String → String} {hinjective : Function.Injective rename}
    (value : Value) : value.Within (free hinjective).toVocabulary :=
  Value.within_of_captured (fun _ => trivial) fun _ _ => trivial

theorem allWithin_free {rename : String → String} {hinjective : Function.Injective rename}
    (commands : List Command) : Command.AllWithin (free hinjective).toVocabulary commands := by
  apply Command.allWithin_of_parts
  · intro part _
    cases part <;> exact trivial
  · intro node _
    cases node <;> exact trivial

variable {naming : Naming}

theorem pairs_of_plain {value : Value} (hplain : value.Plain) : naming.Pairs value value :=
  ⟨hplain.renamed.symm, hplain.within⟩

theorem Paired.argument {left right : Run} (hpaired : naming.Paired left right) (name : String) :
    Table.get? name right.arguments =
      (Table.get? name left.arguments).map (Value.renamed naming.rename) := by
  rw [hpaired.arguments, Table.get?_mapValues]

/-- A run and its renamed counterpart are paired at the start. -/
theorem paired_start {arguments : Table Value}
    (harguments : ∀ entry ∈ arguments, entry.2.Within naming.toVocabulary) :
    naming.Paired { arguments }
      { arguments := Table.mapValues (Value.renamed naming.rename) arguments } where
  arguments := rfl
  argumentsWithin := harguments
  bindings _ := rfl
  bindingsWithin := List.forall_mem_nil _

/-- The same event, up to renaming, leads to runs that belong together. -/
theorem Paired.after {left right : Run} (hpaired : naming.Paired left right) (event : Event)
    (hevent : ∀ name value, event = .assigned name value → value.Within naming.toVocabulary) :
    naming.Paired (left.after event) (right.after (event.renamed naming.rename)) := by
  cases event with
  | readClock | performed | logged | wrote =>
    exact ⟨hpaired.arguments, hpaired.argumentsWithin, hpaired.bindings, hpaired.bindingsWithin⟩
  | assigned key value =>
    refine ⟨hpaired.arguments, hpaired.argumentsWithin, ?_,
      Table.forall_insert hpaired.bindingsWithin key (hevent key value rfl)⟩
    intro name
    change Table.get? (naming.rename name) (Table.insert (naming.rename key) _ _) =
      (Table.get? name (Table.insert key value _)).map _
    by_cases hname : name = key
    · rw [hname, Table.get?_insert_self, Table.get?_insert_self]
      rfl
    · rw [Table.get?_insert_of_ne hname, Table.get?_insert_of_ne (naming.injective.ne hname)]
      exact hpaired.bindings name

/-- Results belong together if both are there or both are missing. -/
inductive Results (fails : ε → ε → Prop) (gives : α → α → Prop) :
    Except ε α → Except ε α → Prop where
  | ok {left right : α} (hgives : gives left right) : Results fails gives (.ok left) (.ok right)
  | error {left right : ε} (hfails : fails left right) :
      Results fails gives (.error left) (.error right)

/-- What two actions leave when they started from `start` and `other` and the same events, up to
renaming, happened to both. -/
structure Ends (naming : Naming) (fails : ε → ε → Prop) (gives : α → α → Prop)
    (start other : Run) (events : List Event) (left right : Except ε α × Run) : Prop where
  told : left.2 = start.afterAll events
  toldOther : right.2 = other.afterAll (events.map (Event.renamed naming.rename))
  within : ∀ event ∈ events, event.Within naming.toVocabulary
  paired : naming.Paired left.2 right.2
  results : Results fails gives left.1 right.1

end Naming

open Naming

/-- The actions are the two sides of one action: from runs that belong together they lead to
runs that belong together, and their results are as in `gives` and `fails`. -/
def Corresponds (naming : Naming) (fails : ε → ε → Prop) (gives : α → α → Prop)
    (left right : RunM m ε α) : Prop :=
  ∀ start other, naming.Paired start other → Together (outcome left start) (outcome right other)
    fun ending counterpart =>
      ∃ events, naming.Ends fails gives start other events ending counterpart

/-- The same on both sides, with a property. -/
def Same (holds : α → Prop) (left right : α) : Prop := left = right ∧ holds left

namespace Corresponds

variable [LawfulMonad m] {naming : Naming} {fails : ε → ε → Prop} {gives weaker : α → α → Prop}

theorem pure {left right : α} (hgives : gives left right) :
    Corresponds naming fails gives (Pure.pure left : RunM m ε α) (Pure.pure right) :=
  fun _ _ hpaired =>
    together_pure ⟨[], rfl, rfl, List.forall_mem_nil _, hpaired, .ok hgives⟩

theorem throw {left right : ε} (hfails : fails left right) :
    Corresponds naming fails gives (MonadExcept.throw left : RunM m ε α)
      (MonadExcept.throw right) :=
  fun _ _ hpaired =>
    together_pure ⟨[], rfl, rfl, List.forall_mem_nil _, hpaired, .error hfails⟩

theorem mono {left right : RunM m ε α} (haction : Corresponds naming fails gives left right)
    (hgives : ∀ value counterpart, gives value counterpart → weaker value counterpart) :
    Corresponds naming fails weaker left right := by
  intro start other hpaired
  apply together_mono (haction start other hpaired)
  rintro ⟨result, run⟩ ⟨counterResult, counterRun⟩ ⟨events, hends⟩
  refine ⟨events, hends.told, hends.toldOther, hends.within, hends.paired, ?_⟩
  cases hends.results with
  | ok hvalues => exact .ok (hgives _ _ hvalues)
  | error hfails => exact .error hfails

/-- Two pairs of corresponding actions correspond one after the other. -/
theorem bind {between : α → α → Prop} {left right : RunM m ε α} {next other : α → RunM m ε β}
    {gives : β → β → Prop} (haction : Corresponds naming fails between left right)
    (hnext : ∀ value counterpart, between value counterpart →
      Corresponds naming fails gives (next value) (other counterpart)) :
    Corresponds naming fails gives (left >>= next) (right >>= other) := by
  intro start counterStart hpaired
  rw [outcome_bind, outcome_bind]
  apply together_bind (haction start counterStart hpaired)
  rintro ⟨result, run⟩ ⟨counterResult, counterRun⟩ ⟨events, hends⟩
  have htold : run = start.afterAll events := hends.told
  have htoldOther : counterRun = _ := hends.toldOther
  cases hends.results with
  | error hfails =>
    exact together_pure ⟨events, htold, htoldOther, hends.within, hends.paired, .error hfails⟩
  | ok hvalues =>
    apply together_mono (hnext _ _ hvalues run counterRun hends.paired)
    rintro ending counterpart ⟨later, hlater⟩
    refine ⟨events ++ later, ?_, ?_, ?_, hlater.paired, hlater.results⟩
    · rw [hlater.told, htold, Run.afterAll_append]
    · rw [hlater.toldOther, htoldOther, List.map_append, Run.afterAll_append]
    · exact List.forall_mem_append.2 ⟨hends.within, hlater.within⟩

theorem bind_same {holds : α → Prop} {left right : RunM m ε α} {next other : α → RunM m ε β}
    {gives : β → β → Prop} (haction : Corresponds naming fails (Same holds) left right)
    (hnext : ∀ value, holds value →
      Corresponds naming fails gives (next value) (other value)) :
    Corresponds naming fails gives (left >>= next) (right >>= other) := by
  apply bind haction
  rintro value _ ⟨rfl, hvalue⟩
  exact hnext value hvalue

/-- Wrapping both errors keeps two actions in correspondence. -/
theorem mapError {change : ε → δ} {changedFails : δ → δ → Prop} {left right : RunM m ε α}
    (haction : Corresponds naming fails gives left right)
    (hchange : ∀ error counterpart, fails error counterpart →
      changedFails (change error) (change counterpart)) :
    Corresponds naming changedFails gives (RunM.mapError change left)
      (RunM.mapError change right) := by
  intro start other hpaired
  rw [outcome_mapError, outcome_mapError]
  apply together_bind (haction start other hpaired)
  rintro ⟨result, run⟩ ⟨counterResult, counterRun⟩ ⟨events, hends⟩
  refine together_pure ⟨events, hends.told, hends.toldOther, hends.within, hends.paired, ?_⟩
  cases hends.results with
  | ok hvalues => exact .ok hvalues
  | error hfails => exact .error (hchange _ _ hfails)

theorem current :
    Corresponds naming fails naming.Paired (RunM.current : RunM m ε Run) RunM.current := by
  intro start other hpaired
  rw [outcome_current, outcome_current]
  exact together_pure ⟨[], rfl, rfl, List.forall_mem_nil _, hpaired, .ok hpaired⟩

/-- An event in which the provider has no part. -/
theorem of_after {left right : RunM m ε Unit} (event : Event)
    (hleft : ∀ run, outcome left run = Pure.pure (.ok (), run.after event))
    (hright : ∀ run, outcome right run =
      Pure.pure (.ok (), run.after (event.renamed naming.rename)))
    (hwithin : event.Within naming.toVocabulary)
    (hvalue : ∀ name value, event = .assigned name value → value.Within naming.toVocabulary) :
    Corresponds naming fails (Same fun _ => True) left right := by
  intro start other hpaired
  rw [hleft, hright]
  exact together_pure ⟨[event], rfl, rfl, List.forall_mem_singleton.2 hwithin,
    hpaired.after event hvalue, .ok ⟨rfl, trivial⟩⟩

theorem assign {name : String} (hname : naming.variableNames name) {value counterpart : Value}
    (hvalue : naming.Pairs value counterpart) :
    Corresponds naming fails (Same fun _ => True) (RunM.assign name value : RunM m ε Unit)
      (RunM.assign (naming.rename name) counterpart) := by
  rw [hvalue.renamed]
  refine of_after (.assigned name value) (fun run => outcome_assign run name value)
    (fun run => outcome_assign run _ _) hname ?_
  rintro _ _ ⟨⟩
  exact hvalue.within

theorem write {name : String} (hname : naming.outputNames name) (value : Value) :
    Corresponds naming fails (Same fun _ => True) (RunM.write name value : RunM m ε Unit)
      (RunM.write name value) := by
  refine of_after (.wrote name value) (fun run => outcome_write run name value)
    (fun run => outcome_write run name value) hname ?_
  rintro _ _ ⟨⟩

theorem log (message : String) :
    Corresponds naming fails (Same fun _ => True) (RunM.note (.logged message) : RunM m ε Unit)
      (RunM.note (.logged message)) := by
  refine of_after (.logged message) (fun run => outcome_modify run _)
    (fun run => outcome_modify run _) trivial ?_
  rintro _ _ ⟨⟩

theorem clock (provider : Provider m) :
    Corresponds naming fails (Same fun _ => True) (RunM.clock provider : RunM m ε Int64)
      (RunM.clock provider) := by
  intro start other hpaired
  rw [outcome_clock, outcome_clock]
  apply together_bind (together_self provider.now)
  rintro time _ rfl
  refine together_pure ⟨[.readClock time], rfl, rfl, List.forall_mem_singleton.2 trivial,
    hpaired.after (.readClock time) ?_, .ok ⟨rfl, trivial⟩⟩
  rintro _ _ ⟨⟩

/-- An operation does the same in both runs, where the vocabulary allows it. -/
theorem perform (provider : Provider m) (label : String) {operation : Operation}
    (hasks : operation.Allowed naming.toVocabulary) :
    Corresponds naming (Fault.Renamed naming.rename) (Same fun _ => True)
      (RunM.perform provider label operation) (RunM.perform provider label operation) := by
  intro start other hpaired
  rw [outcome_perform, outcome_perform]
  apply together_bind (together_self (provider.perform operation))
  rintro reply _ rfl
  have hafter : naming.Paired (start.after (.performed operation reply))
      (other.after (.performed operation reply)) := by
    refine hpaired.after (.performed operation reply) ?_
    rintro _ _ ⟨⟩
  refine together_pure ⟨[.performed operation reply], rfl, rfl,
    List.forall_mem_singleton.2 hasks, hafter, ?_⟩
  cases reply with
  | ok answer => exact .ok ⟨rfl, trivial⟩
  | error error => exact .error (.same _)

/-- What is the same on both sides. -/
theorem settle (result : Except Fault α) :
    Corresponds naming (Fault.Renamed naming.rename) (Same fun value => result = .ok value)
      (RunM.settle result : RunM m Fault α) (RunM.settle result) := by
  cases result with
  | ok value => exact pure ⟨rfl, rfl⟩
  | error fault => exact throw (.same fault)

/-- What is the same on both sides up to renaming. -/
theorem settle_renamed {result : Except Fault Value}
    (hwithin : ∀ value, result = .ok value → value.Within naming.toVocabulary) :
    Corresponds naming (Fault.Renamed naming.rename) naming.Pairs
      (RunM.settle result : RunM m Fault Value)
      (RunM.settle (result.map (Value.renamed naming.rename))) := by
  cases result with
  | ok value => exact pure ⟨rfl, hwithin value rfl⟩
  | error fault => exact throw (.same fault)

end Corresponds

end MetricScript
