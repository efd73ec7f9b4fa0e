import Mathlib
import MetricScript.Proofs.Run.Calls
import MetricScript.Run.Exec
import MetricScript.Provider.Memory

/-!
# Nested data is plain

Handles live in variables and between the steps of an expression, but never inside of
arrays and maps: every place that stores a value in a collection, in the output or in an
argument takes the data of the value.  Along every run the output is plain data and the
variables are tidy, and so is every value that an expression has on the way.
-/

namespace MetricScript

open RunM

variable {m : Type → Type} [Monad m] [LawfulMonad m] {provider : Provider m}
variable {arguments : Table Value}

/-! ## Expressions -/

theorem tidy_literal (literal : Literal) : literal.value.Tidy := by
  cases literal with
  | null | boolean | number | string => exact trivial

theorem keeps_valueOf (name : String) :
    Keeps arguments (valueOf name : RunM m Fault Value) Value.Tidy fun _ => True := by
  apply Keeps.bind Keeps.current
  rintro run ⟨_, hclean⟩
  split
  · next value hget => exact Keeps.pure (hclean.bindings _ (Table.mem_of_get? hget))
  · exact Keeps.throw trivial

theorem keeps_reported {α : Type} {action : RunM m Fault α} {gives : α → Prop}
    (haction : Keeps arguments action gives fun _ => True) (place : Position) :
    Keeps arguments (reported place action) gives fun _ => True :=
  Keeps.mapError haction

namespace Expr

/-- What is evaluated before a call is made: the arguments and then the target. -/
def prepare (provider : Provider m) (target : Expr) (given : List (Option String × Expr)) :
    RunM m RuntimeError (List (Option String × Value) × Value) := do
  let values ← evaluateArguments provider given
  let value ← target.evaluate provider
  return (values, value)

theorem evaluate_call (place : Position) (target : Expr) (given : List (Option String × Expr)) :
    (call place target given).evaluate provider = (do
      let (values, value) ← prepare provider target given
      reported target.position (value.call provider target.text values)) := by
  unfold prepare
  simp only [bind_assoc, pure_bind]
  rfl

theorem keeps_prepare {target : Expr} {given : List (Option String × Expr)}
    (htarget : Keeps arguments (target.evaluate provider) Value.Tidy fun _ => True)
    (hgiven : Keeps arguments (evaluateArguments provider given)
      (fun values => ∀ argument ∈ values, argument.2.Plain) fun _ => True) :
    Keeps arguments (prepare provider target given)
      (fun prepared => (∀ argument ∈ prepared.1, argument.2.Plain) ∧ prepared.2.Tidy)
      fun _ => True := by
  apply Keeps.bind hgiven
  intro values hvalues
  apply Keeps.bind htarget
  exact fun value hvalue => Keeps.pure ⟨hvalues, hvalue⟩

mutual

/-- Evaluating keeps the run sound and gives a tidy value. -/
theorem keeps_evaluate (harguments : Table.Tidy arguments) : (expression : Expr) →
    Keeps arguments (expression.evaluate provider) Value.Tidy fun _ => True
  | literal _ value => Keeps.pure (tidy_literal value)
  | array _ items => by
    apply Keeps.bind (keeps_evaluateItems harguments items)
    intro values hvalues
    exact Keeps.pure (Value.plain_array hvalues).tidy
  | map _ entries => by
    apply Keeps.bind (keeps_evaluateEntries harguments entries)
    intro values hvalues
    exact Keeps.pure (Value.plain_map (Table.forall_ofList hvalues)).tidy
  | var place name => keeps_reported (keeps_valueOf name) place
  | binary place operator left right => by
    apply Keeps.bind (keeps_evaluate harguments left)
    intro leftValue hleft
    apply Keeps.bind (keeps_evaluate harguments right)
    intro rightValue hright
    refine keeps_reported ?_ place
    apply Keeps.bind (keeps_resolve hleft)
    intro leftData _
    apply Keeps.bind (keeps_resolve hright)
    intro rightData _
    refine Keeps.settle (fun value hvalue => ?_) fun _ _ => trivial
    exact (givesPlain_operator operator leftData rightData value hvalue).tidy
  | unary place operator operand => by
    apply Keeps.bind (keeps_evaluate harguments operand)
    intro operandValue hoperand
    refine keeps_reported ?_ place
    apply Keeps.bind (keeps_resolve hoperand)
    intro data _
    refine Keeps.settle (fun value hvalue => ?_) fun _ _ => trivial
    exact (givesPlain_unary operator data value hvalue).tidy
  | property _ target name => by
    apply Keeps.bind (keeps_evaluate harguments target)
    intro value hvalue
    refine keeps_reported (Keeps.settle ?_ fun _ _ => trivial) target.position
    exact fun result hresult => tidy_of_property hvalue hresult
  | call place target given => by
    rw [evaluate_call]
    apply Keeps.bind (keeps_prepare (keeps_evaluate harguments target)
      (keeps_evaluateArguments harguments given))
    rintro ⟨values, value⟩ ⟨hvalues, hvalue⟩
    exact keeps_reported (keeps_value_call harguments hvalue target.text hvalues) target.position
  | global _ => Keeps.pure trivial
  | storage _ => Keeps.pure trivial

theorem keeps_evaluateItems (harguments : Table.Tidy arguments) : (items : List Expr) →
    Keeps arguments (evaluateItems provider items) (fun values => ∀ value ∈ values, value.Plain)
      fun _ => True
  | [] => Keeps.pure (List.forall_mem_nil _)
  | item :: rest => by
    apply Keeps.bind (keeps_evaluate harguments item)
    intro value hvalue
    apply Keeps.bind (keeps_reported (keeps_resolve hvalue) item.position)
    intro first hfirst
    apply Keeps.bind (keeps_evaluateItems harguments rest)
    exact fun others hothers => Keeps.pure (List.forall_mem_cons.2 ⟨hfirst, hothers⟩)

theorem keeps_evaluateEntries (harguments : Table.Tidy arguments) :
    (entries : List (String × Expr)) →
    Keeps arguments (evaluateEntries provider entries)
      (fun values => ∀ entry ∈ values, entry.2.Plain) fun _ => True
  | [] => Keeps.pure (List.forall_mem_nil _)
  | (key, item) :: rest => by
    apply Keeps.bind (keeps_evaluate harguments item)
    intro value hvalue
    apply Keeps.bind (keeps_reported (keeps_resolve hvalue) item.position)
    intro first hfirst
    apply Keeps.bind (keeps_evaluateEntries harguments rest)
    exact fun others hothers => Keeps.pure (List.forall_mem_cons.2 ⟨hfirst, hothers⟩)

/-- Evaluated arguments are plain data. -/
theorem keeps_evaluateArguments (harguments : Table.Tidy arguments) :
    (given : List (Option String × Expr)) →
    Keeps arguments (evaluateArguments provider given)
      (fun values => ∀ argument ∈ values, argument.2.Plain) fun _ => True
  | [] => Keeps.pure (List.forall_mem_nil _)
  | (name, item) :: rest => by
    apply Keeps.bind (keeps_evaluate harguments item)
    intro value hvalue
    apply Keeps.bind (keeps_reported (keeps_resolve hvalue) item.position)
    intro first hfirst
    apply Keeps.bind (keeps_evaluateArguments harguments rest)
    exact fun others hothers => Keeps.pure (List.forall_mem_cons.2 ⟨hfirst, hothers⟩)

end

theorem keeps_data (harguments : Table.Tidy arguments) (expression : Expr) :
    Keeps arguments (expression.data provider) Value.Plain fun _ => True := by
  apply Keeps.bind (keeps_evaluate harguments expression)
  exact fun value hvalue => keeps_reported (keeps_resolve hvalue) expression.position

theorem keeps_holds (harguments : Table.Tidy arguments) (condition : Expr) :
    Keeps arguments (condition.holds provider) (fun _ => True) fun _ => True := by
  apply Keeps.bind (keeps_data harguments condition)
  exact fun value _ => keeps_reported (keeps_settle _) condition.position

end Expr

/-! ## Commands -/

/-- A loop keeps up what one pass does. -/
theorem keeps_repeatWhile {test : RunM m RuntimeError Bool} {body : RunM m Stop Unit}
    (htest : Keeps arguments test (fun _ => True) fun _ => True)
    (hbody : Keeps arguments body (fun _ => True) fun _ => True) (passes : Nat) :
    Keeps arguments (repeatWhile test body passes) (fun _ => True) fun _ => True := by
  induction passes with
  | zero => exact Keeps.throw trivial
  | succ passes ih =>
    apply Keeps.bind (Keeps.mapError htest)
    intro holds _
    split
    · exact Keeps.bind hbody fun _ _ => ih
    · exact Keeps.pure trivial

namespace Command

variable {passes : Nat}

mutual

/-- A command keeps the run sound. -/
theorem keeps_execute (harguments : Table.Tidy arguments) : (command : Command) →
    Keeps arguments (command.execute provider passes) (fun _ => True) fun _ => True
  | setVariable name value => by
    apply Keeps.bind (Keeps.mapError (Expr.keeps_evaluate harguments value))
    exact fun result hresult => Keeps.assign name hresult
  | setOutput name value => by
    apply Keeps.bind (Keeps.mapError (Expr.keeps_data harguments value))
    exact fun result hresult => Keeps.write name hresult
  | evaluate value => by
    apply Keeps.bind (Keeps.mapError (Expr.keeps_data harguments value))
    exact fun _ _ => Keeps.pure trivial
  | ifElse condition thenBranch elseBranch => by
    apply Keeps.bind (Keeps.mapError (Expr.keeps_holds harguments condition))
    intro holds _
    split
    · exact keeps_executeAll harguments thenBranch
    · exact keeps_executeAll harguments elseBranch
  | whileLoop condition body =>
    keeps_repeatWhile (Expr.keeps_holds harguments condition)
      (keeps_executeAll harguments body) passes

theorem keeps_executeAll (harguments : Table.Tidy arguments) : (commands : List Command) →
    Keeps arguments (executeAll provider passes commands) (fun _ => True) fun _ => True
  | [] => Keeps.pure trivial
  | command :: rest => by
    apply Keeps.bind (keeps_execute harguments command)
    exact fun _ _ => keeps_executeAll harguments rest

end

end Command

/-! ## Runs -/

/-- A value that a script may be given as an argument: plain data, or a handle by itself that
is no method. -/
def Value.Given : Value → Prop
  | .handle (.method _) => False
  | .handle _ => True
  | value => value.Plain

theorem Value.Given.tidy {value : Value} (hgiven : value.Given) : value.Tidy := by
  unfold Value.Given at hgiven
  split at hgiven
  · exact hgiven.elim
  · next reference _ =>
    cases reference with
    | method bound => simp_all
    | global | storage | counter | series | point | aggregate => exact trivial
  · exact hgiven.tidy

def Value.IsCollection : Value → Prop
  | .array _ | .map _ => True
  | _ => False

/-- The later run is told by a journal that goes on from the journal of the earlier one. -/
def Run.LeadsTo (earlier later : Run) : Prop :=
  earlier.journal <:+ later.journal ∧ later = Run.replay earlier.arguments later.journal

/-- What holds at a point of a run: of its variables and its output, of all expressions and
commands that are carried out there, and of all calls that are made there. -/
structure Run.Orderly (provider : Provider m) (point : Run) : Prop where
  output : ∀ entry ∈ point.output, entry.2.Plain
  bindings : ∀ entry ∈ point.bindings, entry.2.Tidy
  /-- A variable that holds a collection is its own data, and nobody is asked. -/
  collections : ∀ entry ∈ point.bindings, entry.2.IsCollection →
    entry.2.resolve provider = pure entry.2
  /-- An expression leads to a later point of a run.  Receivers that are kept on the way are
  plain data. -/
  values : ∀ expression : Expr, Always (outcome (expression.evaluate provider) point)
    fun ending => point.LeadsTo ending.2 ∧ ∀ value, ending.1 = .ok value → value.Tidy
  /-- A command leads to a later point of a run, also when it stops. -/
  commands : ∀ (command : Command) (passes : Nat),
    Always (outcome (command.execute provider passes) point) fun ending => point.LeadsTo ending.2
  items : ∀ target given, Always (outcome (Expr.prepare provider target given) point)
    fun prepared => ∀ values bound, prepared.1 = .ok (values, .handle (.method bound)) →
      bound.name = "item" → Always (outcome (bound.call provider values) prepared.2)
        fun ending => ∀ value, ending.1 = .ok value → value.Plain
  documents : ∀ target given, Always (outcome (Expr.prepare provider target given) point)
    fun prepared => ∀ values bound, prepared.1 = .ok (values, .handle (.method bound)) →
      bound = .ofStorage .set ∨ bound = .ofGlobal .post →
        Always (outcome (bound.call provider values) prepared.2)
          fun ending => ∀ text, ending.1 ≠ .error (.notEvaluable text)

/-- A tidy collection is plain data. -/
theorem Value.Tidy.plain {value : Value} (hvalue : value.Tidy) (hcollection : value.IsCollection) :
    value.Plain := by
  cases value with
  | array items => exact hvalue
  | map entries => exact hvalue
  | null | boolean | number | string | handle => exact hcollection.elim

/-- What an action that keeps runs sound comes to at a point. -/
theorem always_keeps {α ε : Type} {action : RunM m ε α} {gives : α → Prop} {fails : ε → Prop}
    (haction : Keeps arguments action gives fails) {point : Run}
    (hsound : point.Sound arguments) :
    Always (outcome action point) fun ending => point.LeadsTo ending.2 ∧
      (∀ value, ending.1 = .ok value → gives value) ∧
        ∀ error, ending.1 = .error error → fails error := by
  apply always_mono (haction point hsound)
  rintro ⟨result, left⟩ ⟨hleft, hgrown, hresult⟩
  have htold : left = Run.replay point.arguments left.journal := by
    rw [hsound.arguments_eq]
    exact hleft.told
  refine ⟨⟨hgrown, htold⟩, ?_, ?_⟩
  · rintro value rfl
    exact hresult
  · rintro error rfl
    exact hresult

/-- What holds of all calls with a tidy receiver and plain arguments holds of the calls that
are made from a sound run. -/
theorem always_prepared (harguments : Table.Tidy arguments) {point : Run}
    (hsound : point.Sound arguments) (target : Expr) (given : List (Option String × Expr)) :
    Always (outcome (Expr.prepare provider target given) point) fun prepared =>
      ∀ values bound, prepared.1 = .ok (values, .handle (.method bound)) →
        prepared.2.Sound arguments ∧
          Keeps arguments (bound.call provider values) bound.Gives bound.FailsWith := by
  have htarget : Keeps arguments (target.evaluate provider) Value.Tidy fun _ => True :=
    Expr.keeps_evaluate harguments target
  have hprepare := Expr.keeps_prepare htarget (Expr.keeps_evaluateArguments harguments given)
  apply always_mono (hprepare point hsound)
  rintro ⟨result, left⟩ ⟨hleft, _, hresult⟩ values bound hprepared
  obtain rfl : result = .ok (values, .handle (.method bound)) := hprepared
  exact ⟨hleft, keeps_call harguments hresult.2 hresult.1⟩

/-- A sound run is orderly. -/
theorem Run.Sound.orderly (harguments : Table.Tidy arguments) {point : Run}
    (hsound : point.Sound arguments) : point.Orderly provider where
  output := hsound.clean.output
  bindings := hsound.clean.bindings
  collections entry hmem hcollection :=
    Value.resolve_of_plain entry.2 ((hsound.clean.bindings entry hmem).plain hcollection)
  values expression := by
    apply always_mono (always_keeps (Expr.keeps_evaluate harguments expression) hsound)
    exact fun ending hending => ⟨hending.1, hending.2.1⟩
  commands command passes := by
    apply always_mono (always_keeps (Command.keeps_execute harguments command) hsound)
    exact fun ending hending => hending.1
  items target given := by
    apply always_mono (always_prepared harguments hsound target given)
    intro prepared hprepared values bound hcall hname
    obtain ⟨hleft, hkeeps⟩ := hprepared values bound hcall
    apply always_mono (always_keeps hkeeps hleft)
    exact fun ending hending value hvalue => (hending.2.1 value hvalue).2 hname
  documents target given := by
    apply always_mono (always_prepared harguments hsound target given)
    intro prepared hprepared values bound hcall hmethod
    obtain ⟨hleft, hkeeps⟩ := hprepared values bound hcall
    apply always_mono (always_keeps hkeeps hleft)
    exact fun ending hending text herror => hending.2.2 _ herror hmethod text rfl

/-- A script leaves a sound run behind, however it ends. -/
theorem always_sound_run (harguments : Table.Tidy arguments) (script : Script) (passes : Nat) :
    Always (script.run provider passes arguments) fun ending => ending.2.Sound arguments := by
  have hstart : Run.Sound arguments { arguments } := ⟨rfl, List.forall_mem_nil _⟩
  apply always_bind (Command.keeps_executeAll harguments script { arguments } hstart)
  rintro ⟨result, final⟩ ⟨hfinal, _⟩
  dsimp only
  split <;> exact always_pure hfinal

/-- **Nested data is plain.**  Whatever the provider does and however the run ends, its journal
tells its state, and every earlier part of the journal tells a state at which the output is
plain data and variables are tidy.  Evaluating and executing lead from there to later states
of the same kind. -/
theorem nested_data_plain (provider : Provider m) (script : Script) (passes : Nat)
    {arguments : Table Value} (hgiven : ∀ entry ∈ arguments, entry.2.Given) :
    Always (script.run provider passes arguments) fun ending =>
      ending.2 = Run.replay arguments ending.2.journal ∧
        ∀ past, past <:+ ending.2.journal → (Run.replay arguments past).Orderly provider := by
  have harguments : Table.Tidy arguments := fun entry hmem => (hgiven entry hmem).tidy
  apply always_mono (always_sound_run harguments script passes)
  intro ending hsound
  refine ⟨hsound.told, fun past hpast => ?_⟩
  have hevents : ∀ event ∈ past, event.Tidy :=
    fun event hmem => hsound.events event (hpast.subset hmem)
  exact (Run.sound_replay arguments hevents).orderly harguments

/-- Counters, one of them an argument, are gathered in a map, and the map is changed and
written to the output. -/
def gatheredCounters : Script :=
  let named (target : Expr) (method : String) (given : List (Option String × Expr)) : Expr :=
    .call .start (.property .start target method) given
  let text (value : String) : Expr := .literal .start (.string value)
  [.setVariable "$hits" (named (.global .start) "counter" [(none, text "hits")]),
    .setVariable "$stats" (.map .start [("counts", .array .start [.var .start "$hits",
      named (.global .start) "arg" [(none, text "base")]])]),
    .evaluate (named (.var .start "$stats") "set"
      [(some "index", text "more"), (some "value", .var .start "$hits")]),
    .setOutput "counts" (named (.var .start "$stats") "item" [(none, text "counts")])]

def counterAndLimits : Table Value :=
  [("base", .handle (.counter "base")), ("limits", .map [("high", .array [.number 1.0])])]

theorem counterAndLimits_given : ∀ entry ∈ counterAndLimits, entry.2.Given := by
  intro entry hmem
  rcases List.mem_pair.1 hmem with rfl | rfl
  · exact trivial
  · exact ⟨⟨trivial, trivial⟩, trivial⟩

/-- Counters gathered in a map, which holds their values instead. -/
theorem nested_data_plain_gatheredCounters :
    (∀ entry ∈ counterAndLimits, entry.2.Given) ∧
      let store : Store := { counters := [("base", 5), ("hits", 7)] }
      let provider := Store.provider Scene.surroundings
      let final := (gatheredCounters.run provider 10 counterAndLimits store { clock := 40 }).1.1.2
      final = Run.replay counterAndLimits final.journal ∧
        ∀ past, past <:+ final.journal →
          (Run.replay counterAndLimits past).Orderly provider := by
  refine ⟨counterAndLimits_given, ?_⟩
  have halways := nested_data_plain (Store.provider Scene.surroundings) gatheredCounters 10
    counterAndLimits_given
  exact always_state (always_stateT halways { counters := [("base", 5), ("hits", 7)] })
    { clock := 40 }

end MetricScript
