import Mathlib
import MetricScript.Proofs.Run.Correspondence
import MetricScript.Provider.Memory

/-!
# The output table is apart from the variables

Nothing that a script does depends on what is in the output table: runs that agree on arguments
and variables do the same, each to its own table.  And the two tables share no name, for the
entries of the output are named by identifiers of the source and variables by names with a
dollar sign.
-/

namespace MetricScript

open RunM Naming

variable {m : Type → Type} [Monad m] [LawfulMonad m]

/-! ## Runs that differ in the output -/

theorem Fault.Renamed.eq_of_id {left right : Fault} (hfault : left.Renamed id right) :
    left = right := by
  cases hfault with
  | same | unknownVariable => rfl
  | notCallable target => rw [target.renamed_id]

theorem Stop.Renamed.eq_of_id {left right : Stop} (hstop : left.Renamed id right) :
    left = right := by
  cases hstop with
  | exhausted => rfl
  | @failed left right herror =>
    obtain ⟨fault, position⟩ := left
    obtain ⟨otherFault, otherPosition⟩ := right
    obtain rfl : fault = otherFault := herror.fault.eq_of_id
    obtain rfl : position = otherPosition := herror.position
    rfl

theorem Event.renamed_id (event : Event) : event.renamed id = event := by
  cases event with
  | assigned name value => exact congrArg (Event.assigned name) value.renamed_id
  | wrote | performed | readClock | logged => rfl

/-- What two commands that started from `left` and `right` leave, when the same events happened
to both: the same writes are applied to the output table of each. -/
structure Run.SameDeeds (left right : Run) (events : List Event)
    (ended other : Except Stop Unit × Run) : Prop where
  result : ended.1 = other.1
  bindings : ended.2.bindings = other.2.bindings
  journal : ended.2.journal = events.reverse ++ left.journal
  otherJournal : other.2.journal = events.reverse ++ right.journal
  output : ended.2.output = Table.insertAll left.output (events.filterMap Event.write?)
  otherOutput : other.2.output = Table.insertAll right.output (events.filterMap Event.write?)

section Agreeing

variable {left right : Run} (harguments : left.arguments = right.arguments)
  (hbindings : left.bindings = right.bindings)
include harguments hbindings

/-- Two runs that agree outside of their output are paired without renaming. -/
theorem paired_of_agreeing : (free Function.injective_id).Paired left right where
  arguments := by
    rw [← harguments]
    exact (Table.mapValues_eq_self fun entry _ => entry.2.renamed_id).symm
  argumentsWithin entry _ := within_free entry.2
  bindings name := by
    change Table.get? name right.bindings = (Table.get? name left.bindings).map (Value.renamed id)
    rw [← hbindings]
    cases Table.get? name left.bindings with
    | none => rfl
    | some value => exact congrArg some value.renamed_id.symm
  bindingsWithin entry _ := within_free entry.2

/-- Commands do the same to runs that agree on arguments and variables. -/
theorem together_executeAll (provider : Provider m) (passes : Nat) (commands : List Command) :
    Together (outcome (Command.executeAll provider passes commands) left)
      (outcome (Command.executeAll provider passes commands) right) fun ended other =>
        ∃ events, left.SameDeeds right events ended other := by
  have hcorresponds : Corresponds (free Function.injective_id) (Stop.Renamed id)
      (Same fun _ => True) (Command.executeAll provider passes commands)
      (Command.executeAll provider passes (Command.allRenamed id commands)) :=
    Command.corresponds_executeAll commands (allWithin_free commands)
  rw [Command.allRenamed_id] at hcorresponds
  apply together_mono (hcorresponds left right (paired_of_agreeing harguments hbindings))
  rintro ⟨result, run⟩ ⟨otherResult, otherRun⟩ ⟨events, hends⟩
  have hevents : events.map (Event.renamed id) = events :=
    (List.map_congr_left fun event _ => event.renamed_id).trans (List.map_id events)
  have htold : run = left.afterAll events := hends.told
  have htoldOther : otherRun = right.afterAll events := hevents ▸ hends.toldOther
  refine ⟨events, ?_, ?_, ?_, ?_, ?_, ?_⟩
  · cases hends.results with
    | ok hsame => exact congrArg Except.ok hsame.1
    | error hstop => exact congrArg Except.error hstop.eq_of_id
  · change run.bindings = otherRun.bindings
    rw [htold, htoldOther, Run.bindings_afterAll, Run.bindings_afterAll, hbindings]
  · exact htold ▸ left.journal_afterAll events
  · exact htoldOther ▸ right.journal_afterAll events
  · exact htold ▸ left.output_afterAll events
  · exact htoldOther ▸ right.output_afterAll events

end Agreeing

/-! ## Names in the two tables -/

/-- The names in a script: variables have a dollar sign in front, unless a method in the
arguments remembers another one, and what is written is what some command writes. -/
def Script.vocabulary (script : Script) (arguments : Table Value) : Vocabulary where
  variableNames name :=
    name.toList.head? = some '$' ∨ ∃ argument ∈ arguments, name ∈ argument.2.captured
  outputNames key := ∃ value, .setOutput key value ∈ Command.allParts script

/-- A parsed script is within the vocabulary of its own names. -/
theorem allWithin_of_parse {source : String} {script : Script}
    (hparse : parse source = .script script) (arguments : Table Value) :
    Command.AllWithin (script.vocabulary arguments) script := by
  obtain ⟨own, final, htokens, _, hcommands⟩ := Grammar.commands_of_parse hparse
  have hdollar : ∀ name, Grammar.HasVariable own name → name.toList.head? = some '$' := by
    rintro _ ⟨token, hmem, hkind, rfl⟩
    obtain ⟨rest, hreads⟩ := reads_of_tokens? htokens (List.mem_append_left _ hmem)
    rw [hkind] at hreads
    exact hreads.head_of_variableName
  apply Command.allWithin_of_parts
  · intro part hmem
    cases part with
    | setVariable name value => exact .inl (hdollar name (hcommands.hasAssigned hmem))
    | setOutput key value => exact ⟨value, hmem⟩
    | evaluate | ifElse | whileLoop => exact trivial
  · intro node hmem
    cases node with
    | var place name => exact .inl (hdollar name (hcommands.hasVariable hmem rfl))
    | literal | array | map | binary | unary | property | call | global | storage =>
      exact trivial

/-- What an event within a vocabulary puts into the tables of a run has a name of the
vocabulary. -/
theorem Run.names_of_within {vocabulary : Vocabulary} {arguments : Table Value}
    {events : List Event} (hevents : ∀ event ∈ events, event.Within vocabulary) :
    (∀ entry ∈ (({ arguments } : Run).afterAll events).output, vocabulary.outputNames entry.1) ∧
      ∀ entry ∈ (({ arguments } : Run).afterAll events).bindings,
        vocabulary.variableNames entry.1 := by
  constructor
  · intro entry hmem
    rw [output_afterAll] at hmem
    obtain ⟨event, hevent, hwrite⟩ := List.mem_filterMap.1 (Table.mem_of_mem_ofList hmem)
    cases event with
    | wrote name value =>
      obtain rfl := Option.some.inj hwrite
      exact hevents _ hevent
    | assigned | performed | readClock | logged => exact nomatch hwrite
  · intro entry hmem
    rw [bindings_afterAll] at hmem
    obtain ⟨event, hevent, hassignment⟩ := List.mem_filterMap.1 (Table.mem_of_mem_ofList hmem)
    cases event with
    | assigned name value =>
      obtain rfl := Option.some.inj hassignment
      exact hevents _ hevent
    | wrote | performed | readClock | logged => exact nomatch hassignment

/-- The names in the tables of a run: an entry of the output is named by an identifier of the
source that one of the commands assigns to, and a variable has a dollar sign in front.  Only a
method in the arguments can bring in another variable. -/
structure Run.Named (tokens : List Token) (script : Script) (arguments : Table Value) (run : Run) :
    Prop where
  output : ∀ entry ∈ run.output, Grammar.Assigns tokens script entry.1 ∧ '$' ∉ entry.1.toList
  bindings : ∀ entry ∈ run.bindings, entry.1.toList.head? = some '$' ∨
    ∃ argument ∈ arguments, entry.1 ∈ argument.2.captured

theorem Run.Named.head_of_bindings {tokens : List Token} {script : Script}
    {arguments : Table Value} {run : Run} (hnamed : run.Named tokens script arguments)
    (hnone : ∀ argument ∈ arguments, argument.2.captured = []) :
    ∀ entry ∈ run.bindings, entry.1.toList.head? = some '$' := by
  intro entry hmem
  obtain hdollar | ⟨argument, hargument, hcaptured⟩ := hnamed.bindings entry hmem
  · exact hdollar
  · rw [hnone argument hargument] at hcaptured
    cases hcaptured

/-- The names a parsed script assigns and writes are those of its tokens. -/
theorem always_named {source : String} {script : Script} (hparse : parse source = .script script)
    {tokens : List Token} (htokens : tokens? source = some tokens) (provider : Provider m)
    (passes : Nat) (arguments : Table Value) :
    Always (script.run provider passes arguments) fun ended =>
      ended.2.Named tokens script arguments := by
  obtain ⟨own, final, hown, _, hcommands⟩ := Grammar.commands_of_parse hparse
  obtain rfl : own ++ [final] = tokens := Option.some.inj (hown.symm.trans htokens)
  have harguments : ∀ entry ∈ arguments, entry.2.Within (script.vocabulary arguments) :=
    fun entry hmem => Value.within_of_captured (fun _ => trivial)
      fun name hname => .inr ⟨entry, hmem, hname⟩
  apply always_mono (Script.always_within (allWithin_of_parse hparse arguments) harguments provider
    passes)
  rintro ⟨ending, left⟩ ⟨events, rfl, hevents⟩
  obtain ⟨houtput, hbindings⟩ := Run.names_of_within hevents
  refine ⟨fun entry hmem => ?_, hbindings⟩
  obtain ⟨value, hvalue⟩ := houtput entry hmem
  obtain ⟨name, sign, rest, _, hinside, hkind, htext, hsimple, hpart⟩ := hcommands.assigns hvalue
  have hplace : name :: sign :: rest <:+: own ++ [final] :=
    hinside.trans (List.prefix_append own [final]).isInfix
  obtain ⟨behind, hreads⟩ := reads_of_tokens? htokens (hplace.subset List.mem_cons_self)
  rw [hkind, htext] at hreads
  exact ⟨⟨name, sign, rest, _, hplace, hkind, htext, hsimple, hpart⟩, hreads.dollar_notMem⟩

/-- **The output table is write-only and apart from the variables.**  Commands that start with
the same arguments and variables do the same whatever is in the output table: they ask the same
of the provider, come to the same result and the same variables, and apply the same writes to
each table.  In a run of a parsed source, the entries of the output are named by identifiers
that the source assigns to, in which there is no dollar sign, and all variables begin with one,
but for a name that a method in the arguments remembers. -/
theorem output_apart :
    (∀ {m : Type → Type} [Monad m] [LawfulMonad m] (provider : Provider m) (passes : Nat)
      (commands : List Command) (left right : Run), left.arguments = right.arguments →
        left.bindings = right.bindings →
          Together (outcome (Command.executeAll provider passes commands) left)
            (outcome (Command.executeAll provider passes commands) right) fun ended other =>
              ∃ events, left.SameDeeds right events ended other) ∧
    (∀ {σ : Type} (provider : Provider (StateM σ)) (passes : Nat) (commands : List Command)
      (left right : Run) (before : σ), left.arguments = right.arguments →
        left.bindings = right.bindings →
          let ended := (outcome (Command.executeAll provider passes commands) left).run before
          let other := (outcome (Command.executeAll provider passes commands) right).run before
          (∃ events, left.SameDeeds right events ended.1 other.1) ∧ ended.2 = other.2) ∧
    ∀ (source : String) (script : Script), parse source = .script script →
      ∃ tokens, tokens? source = some tokens ∧
        ∀ {m : Type → Type} [Monad m] [LawfulMonad m] (provider : Provider m) (passes : Nat)
          (arguments : Table Value),
          Always (script.run provider passes arguments) fun ended =>
            ended.2.Named tokens script arguments ∧
              ((∀ argument ∈ arguments, argument.2.captured = []) →
                ∀ entry ∈ ended.2.bindings, entry.1.toList.head? = some '$') := by
  refine ⟨?_, ?_, ?_⟩
  · intro m _ _ provider passes commands left right harguments hbindings
    exact together_executeAll harguments hbindings provider passes commands
  · intro σ provider passes commands left right before harguments hbindings
    exact (together_executeAll harguments hbindings provider passes commands).run_state before
  · intro source script hparse
    obtain ⟨own, final, htokens, _⟩ := Grammar.commands_of_parse hparse
    refine ⟨own ++ [final], htokens, fun provider passes arguments => ?_⟩
    exact always_mono (always_named hparse htokens provider passes arguments)
      fun ended hnamed => ⟨hnamed, hnamed.head_of_bindings⟩

/-- A variable, and an entry of the output that has its name but for the dollar sign. -/
def twoTotals : String := "$total = \"a\"\ntotal: $total"

def twoTotalsScript : Script :=
  [.setVariable "$total" (.literal ⟨1, 10⟩ (.string "a")),
    .setOutput "total" (.var ⟨2, 8⟩ "$total")]

theorem twoTotals_parse : parse twoTotals = .script twoTotalsScript := by
  have htokens : tokens? twoTotals = some [⟨.variableName, "$total", ⟨1, 1⟩⟩,
      ⟨.assign, "=", ⟨1, 8⟩⟩, ⟨.string, "a", ⟨1, 10⟩⟩, ⟨.newline, "\n", ⟨1, 13⟩⟩,
      ⟨.identifier, "total", ⟨2, 1⟩⟩, ⟨.colon, ":", ⟨2, 6⟩⟩, ⟨.variableName, "$total", ⟨2, 8⟩⟩,
      ⟨.eof, "", ⟨2, 14⟩⟩] := tokens?_of_firstTokens rfl
  rw [parse, htokens]
  rfl

/-- Two runs that start with different outputs under one name. -/
theorem output_apart_twoTotals :
    let provider := Store.provider Scene.surroundings
    let commands := Command.executeAll provider 10 twoTotalsScript
    let used : Run := { output := [("total", .null)] }
    parse twoTotals = .script twoTotalsScript ∧
      (∃ tokens, tokens? twoTotals = some tokens ∧
        Always (twoTotalsScript.run provider 10 []) fun ended =>
          ended.2.Named tokens twoTotalsScript [] ∧
            ∀ entry ∈ ended.2.bindings, entry.1.toList.head? = some '$') ∧
      Together (outcome commands {}) (outcome commands used) fun ended other =>
        ∃ events, Run.SameDeeds {} used events ended other := by
  intro provider commands used
  obtain ⟨hdeeds, _, hnames⟩ := output_apart
  obtain ⟨tokens, htokens, hnamed⟩ := hnames twoTotals twoTotalsScript twoTotals_parse
  refine ⟨twoTotals_parse, ⟨tokens, htokens, ?_⟩, ?_⟩
  · exact always_mono (hnamed provider 10 []) fun ended hended =>
      ⟨hended.1, hended.2 (List.forall_mem_nil _)⟩
  · exact hdeeds provider 10 twoTotalsScript {} used rfl rfl

end MetricScript
