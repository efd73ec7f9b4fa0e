import Mathlib
import MetricScript.Proofs.Run.Correspondence
import MetricScript.Provider.Memory

/-!
# Scripts that only read

Counters, series and stored maps are changed by methods with six names.  A script that takes no
property under one of these names asks for no change, also not by a method that it keeps in a
variable and calls later.  So the store is the same at every point of its run, whether the run
succeeds, fails or goes on for ever; in particular no name comes into being by being read.
-/

namespace MetricScript

variable {α σ τ : Type}

/-! ## Scripts without writing methods -/

/-- The names of the methods that change a counter, a series or a stored map. -/
def writingMethods : List String := ["set", "increment", "reset", "push", "pop", "trim"]

/-- No property in the script has the name of a writing method. -/
def Script.OnlyReads (script : Script) : Prop :=
  ∀ place target name, .property place target name ∈ Command.allNodes script →
    name ∉ writingMethods

def Vocabulary.reading : Vocabulary where
  propertyNames name := name ∉ writingMethods

theorem Script.OnlyReads.allWithin {script : Script} (hreads : script.OnlyReads) :
    Command.AllWithin .reading script := by
  apply Command.allWithin_of_parts
  · intro part _
    cases part <;> exact trivial
  · intro node hmem
    cases node with
    | property place target name => exact hreads place target name hmem
    | literal | array | map | var | binary | unary | call | global | storage => exact trivial

/-- What a script without writing methods can ask for leaves the store alone. -/
theorem Operation.Allowed.store_eq {operation : Operation}
    (hallowed : operation.Allowed .reading) (outside : Surroundings (StateM σ)) (store : Store)
    (around : σ) : (Store.perform outside operation store around).1.2 = store := by
  have hwriting : operation.methodNames ≠ [] → ¬ operation.methodNames ⊆ writingMethods := by
    intro hne hsubset
    obtain hnone | ⟨name, hmem, hname⟩ := hallowed
    · exact hne hnone
    · exact hname (hsubset hmem)
  cases operation with
  | setCounter | incrementCounter | seriesPush | seriesPop | seriesTrim | writeStorage =>
    exact absurd (by simp [methodNames, writingMethods]) (hwriting (List.cons_ne_nil _ _))
  | counterValue | seriesLast | seriesAggregate | seriesCompute | seriesItems | readStorage
  | http | fileText => rfl

/-! ## Dialogues with a provider that has two states -/

/-- The provider that keeps its two states as one. -/
def Provider.joined (provider : Provider (StateT σ (StateM τ))) : Provider (StateM (σ × τ)) where
  now state :=
    let told := provider.now state.1 state.2
    (told.1.1, told.1.2, told.2)
  perform operation state :=
    let told := provider.perform operation state.1 state.2
    (told.1.1, told.1.2, told.2)

theorem Dialogue.answer_joined (provider : Provider (StateT σ (StateM τ)))
    (dialogue : Dialogue α) (state : σ × τ) :
    (dialogue.answer provider.joined).run state =
      let told := dialogue.answer provider state.1 state.2
      (told.1.1, told.1.2, told.2) := by
  induction dialogue generalizing state with
  | done outcome => rfl
  | readClock next ih => exact ih _ _
  | perform operation next ih => exact ih _ _

/-- A run goes one of the ways through the dialogue of its script, and its provider gives the
answers on that way. -/
theorem Script.exists_leads (script : Script) (provider : Provider (StateT σ (StateM τ)))
    (passes : Nat) (arguments : Table Value) (state : σ) (around : τ) :
    let ran := script.run provider passes arguments state around
    ∃ calls, (script.run .asking passes arguments).Leads calls ran.1.1 ∧
      provider.joined.Answers (state, around) calls (ran.1.2, ran.2) := by
  intro ran
  have hjoined : ((script.run .asking passes arguments).answer provider.joined).run
      (state, around) = (ran.1.1, ran.1.2, ran.2) := by
    rw [Dialogue.answer_joined, ← run_eq_answer]
  have hway : ∃ calls, (script.run .asking passes arguments).Leads calls
      (((script.run .asking passes arguments).answer provider.joined).run (state, around)).1 ∧
        provider.joined.Answers (state, around) calls
          (((script.run .asking passes arguments).answer provider.joined).run (state, around)).2 :=
    Dialogue.exists_leads _ _
  rwa [hjoined] at hway

theorem Provider.answers_append {provider : Provider (StateM σ)} {before after : σ}
    {earlier later : List Call} (hanswers : provider.Answers before (earlier ++ later) after) :
    ∃ between, provider.Answers before earlier between ∧ provider.Answers between later after := by
  induction earlier generalizing before with
  | nil => exact ⟨before, rfl, hanswers⟩
  | cons call earlier ih =>
    cases call with
    | readClock | performed =>
      obtain ⟨hreply, hrest⟩ := hanswers
      obtain ⟨between, hearlier, hlater⟩ := ih hrest
      exact ⟨between, ⟨hreply, hearlier⟩, hlater⟩

/-- What always holds at the end of a dialogue holds at the end of every way through it. -/
theorem Dialogue.Leads.of_always {dialogue : Dialogue α} {holds : α → Prop}
    (halways : Always dialogue holds) {calls : List Call} {outcome : α}
    (hleads : dialogue.Leads calls outcome) : holds outcome := by
  obtain ⟨checked, rfl⟩ := halways
  induction checked generalizing calls with
  | done checked =>
    cases hleads
    exact checked.2
  | readClock next ih =>
    cases hleads with
    | readClock time hnext => exact ih time hnext
  | perform operation next ih =>
    cases hleads with
    | perform reply hnext => exact ih reply hnext

/-! ## Runs that only read -/

/-- Calls for readings leave the store as it is. -/
theorem Store.answers_reading {outside : Surroundings (StateM σ)} {calls : List Call}
    (hcalls : ∀ operation reply, .performed operation reply ∈ calls →
      operation.Allowed .reading) {store : Store} {around : σ} {after : Store × σ}
    (hanswers : (Store.provider outside).joined.Answers (store, around) calls after) :
    after.1 = store := by
  induction calls generalizing around with
  | nil => exact congrArg Prod.fst hanswers.symm
  | cons call calls ih =>
    have hrest : ∀ operation reply, .performed operation reply ∈ calls →
        operation.Allowed .reading := fun operation reply hmem =>
      hcalls operation reply (List.mem_cons_of_mem _ hmem)
    cases call with
    | readClock time => exact ih hrest hanswers.2
    | performed operation reply =>
      have hstore := (hcalls operation reply List.mem_cons_self).store_eq outside store around
      have hlater : (Store.provider outside).joined.Answers
          ((Store.perform outside operation store around).1.2,
            (Store.perform outside operation store around).2) calls after := hanswers.2
      rw [hstore] at hlater
      exact ih hrest hlater

theorem Run.calls_replay (arguments : Table Value) (past : List Event) :
    (replay arguments past).calls = past.reverse.filterMap Event.call? := by
  rw [← calls_afterAll_start arguments, afterAll_start, List.reverse_reverse]

/-- On every way through the dialogue of a script that only reads, the journal tells the run and
its calls, and no call is for a change. -/
theorem Script.OnlyReads.calls_reading {script : Script} (hreads : script.OnlyReads)
    {arguments : Table Value} (hplain : ∀ entry ∈ arguments, entry.2.Plain) {passes : Nat}
    {calls : List Call} {ending : Ending} {final : Run}
    (hleads : (script.run .asking passes arguments).Leads calls (ending, final)) :
    final = Run.replay arguments final.journal ∧ final.calls = calls ∧
      ∀ operation reply, .performed operation reply ∈ calls → operation.Allowed .reading := by
  have hwithin := always_within hreads.allWithin (fun entry hmem => (hplain entry hmem).within)
    Provider.asking passes
  obtain ⟨events, rfl, hevents⟩ := hleads.of_always hwithin
  obtain ⟨others, _, rfl, hothers, _⟩ := exists_events hleads
  have hcalls : events.filterMap Event.call? = others.filterMap Event.call? := by
    rw [← Run.calls_afterAll_start arguments, hothers, Run.calls_afterAll_start]
  refine ⟨?_, (Run.calls_afterAll_start arguments events).trans hcalls, ?_⟩
  · rw [Run.journal_afterAll, List.append_nil]
    exact Run.afterAll_start arguments events
  · intro operation reply hmem
    rw [← hcalls] at hmem
    obtain ⟨event, hevent, hcall⟩ := List.mem_filterMap.1 hmem
    cases event with
    | performed other told =>
      cases Option.some.inj hcall
      exact hevents _ hevent
    | readClock => cases Option.some.inj hcall
    | logged | assigned | wrote => exact nomatch hcall

/-- **Scripts that only read never write.**  A script has no property with the name of a writing
method, and its arguments hold no handle.  The journal of a run tells its state and all calls to
the provider, and after the calls in any earlier part of the journal, answered as they were, the
store is the one that the run began with. -/
theorem reading_leaves_store {script : Script} (hreads : script.OnlyReads)
    {arguments : Table Value} (hplain : ∀ entry ∈ arguments, entry.2.Plain)
    (outside : Surroundings (StateM σ)) (passes : Nat) (store : Store) (around : σ) :
    let provider := Store.provider outside
    let ran := script.run provider passes arguments store around
    let final := ran.1.1.2
    final = Run.replay arguments final.journal ∧ ran.1.2 = store ∧
      provider.joined.Answers (store, around) final.calls (ran.1.2, ran.2) ∧
      ∀ past, past <:+ final.journal → ∃ aroundThen,
        provider.joined.Answers (store, around) (Run.replay arguments past).calls
          (store, aroundThen) := by
  intro provider ran final
  obtain ⟨calls, hleads, hanswers⟩ :=
    script.exists_leads provider passes arguments store around
  obtain ⟨htold, rfl, hasked⟩ := hreads.calls_reading hplain hleads
  refine ⟨htold, Store.answers_reading hasked hanswers, hanswers, ?_⟩
  rintro past ⟨later, hjournal⟩
  have hcalls : final.calls =
      (Run.replay arguments past).calls ++ later.reverse.filterMap Event.call? := by
    rw [Run.calls_replay, Run.calls, ← hjournal, List.reverse_append, List.filterMap_append]
  rw [hcalls] at hanswers
  obtain ⟨⟨storeThen, aroundThen⟩, hearlier, _⟩ := Provider.answers_append hanswers
  obtain rfl : storeThen = store := by
    refine Store.answers_reading (fun operation reply hmem => hasked operation reply ?_) hearlier
    rw [hcalls]
    exact List.mem_append_left _ hmem
  exact ⟨aroundThen, hearlier⟩

/-- A method of a series is kept in a variable and called later; a counter and a stored map are
read, and neither is there. -/
def readings : Script :=
  let global (name : String) : Expr := .property .start (.global .start) name
  let given (name : String) : List (Option String × Expr) :=
    [(none, .literal .start (.string name))]
  [.setVariable "$last"
      (.property .start (.call .start (global "series") (given "load")) "last"),
    .setOutput "load" (.property .start (.call .start (.var .start "$last") []) "value"),
    .setOutput "hits" (.call .start (global "counter") (given "hits")),
    .setOutput "saved" (.call .start (.property .start (.storage .start) "get") (given "saved"))]

theorem readings_onlyReads : readings.OnlyReads := by
  intro place target name hmem
  have hname : name ∈ ["last", "series", "value", "counter", "get"] := by
    simp only [readings, Command.allNodes, Command.nodes, Expr.nodes, Expr.argumentNodes] at hmem
    simp only [List.cons_append, List.nil_append, List.append_nil, List.mem_cons,
      List.not_mem_nil, Expr.property.injEq, reduceCtorEq, or_false, false_or] at hmem ⊢
    tauto
  have hreading : ∀ other ∈ ["last", "series", "value", "counter", "get"],
      other ∉ writingMethods := by decide
  exact hreading name hname

theorem reading_leaves_store_readings :
    let provider := Store.provider Scene.surroundings
    let store : Store := { series := [("load", [⟨20, 2.0⟩])] }
    let ran := readings.run provider 10 [] store { clock := 40 }
    let final := ran.1.1.2
    readings.OnlyReads ∧ final = Run.replay [] final.journal ∧ ran.1.2 = store ∧
      provider.joined.Answers (store, { clock := 40 }) final.calls (ran.1.2, ran.2) ∧
      ∀ past, past <:+ final.journal → ∃ aroundThen,
        provider.joined.Answers (store, { clock := 40 }) (Run.replay [] past).calls
          (store, aroundThen) :=
  ⟨readings_onlyReads, reading_leaves_store readings_onlyReads (List.forall_mem_nil _) _ 10 _ _⟩

end MetricScript
