import Mathlib
import MetricScript.Proofs.Run.AcceptedCalls
import MetricScript.Proofs.Run.ProviderFailure
import MetricScript.Proofs.Script.Anchoring
import MetricScript.Proofs.Script.Stream

/-!
# Where a run fails

An expression fails at the place of one of its nodes: at its own, if its operands cannot be used,
or at that of a part whose value cannot be used.  Blocks and loops hand on the error of the command
that failed, however deep it stands and in whatever pass.  So the error of a run points at a node
of the command at the top of the script that was being executed, and the nodes of a script that was
parsed stand at tokens of its source.
-/

namespace MetricScript

open RunM

variable {m : Type → Type} [Monad m] [LawfulMonad m] {α β ε δ : Type}

namespace FailsWithin

theorem mono {allowed weaker : ε → Prop} {action : RunM m ε α} (haction : FailsWithin allowed action)
    (himp : ∀ error, allowed error → weaker error) : FailsWithin weaker action :=
  fun run => always_mono (haction run) fun _ hending => hending.mono himp

theorem mapError {allowed : δ → Prop} {change : ε → δ} {action : RunM m ε α}
    (haction : FailsWithin (fun error => allowed (change error)) action) :
    FailsWithin allowed (RunM.mapError change action) := by
  intro run
  rw [outcome_mapError]
  apply always_bind (haction run)
  rintro ⟨result, left⟩ hresult
  cases result with
  | ok value => exact always_pure (.ok value)
  | error error => exact always_pure (.error (hresult error rfl))

theorem write {allowed : ε → Prop} (name : String) (value : Value) :
    FailsWithin allowed (RunM.write name value : RunM m ε Unit) := by
  intro run
  rw [outcome_write]
  exact always_pure (.ok ())

end FailsWithin

/-! ## Expressions -/

/-- The error stands at the place of one of the nodes. -/
def RuntimeError.PointsInto (nodes : List Expr) (error : RuntimeError) : Prop :=
  ∃ node ∈ nodes, error.position = node.position

theorem RuntimeError.PointsInto.mono {nodes more : List Expr} (hnodes : nodes ⊆ more)
    (error : RuntimeError) (hpoints : error.PointsInto nodes) : error.PointsInto more := by
  obtain ⟨node, hmem, hplace⟩ := hpoints
  exact ⟨node, hnodes hmem, hplace⟩

namespace Expr

variable {provider : Provider m}

theorem mem_nodes_self (value : Expr) : value ∈ value.nodes := by
  cases value with
  | literal | array | map | var | binary | unary | property | call | global | storage =>
    exact List.mem_cons_self

/-- An action that is reported at a node of an expression fails there. -/
theorem reported_pointsInto {nodes : List Expr} {node : Expr} (hnode : node ∈ nodes)
    (action : RunM m Fault α) :
    FailsWithin (RuntimeError.PointsInto nodes) (reported node.position action) := by
  apply FailsWithin.mapError
  exact fun run => always_mono (always_true _) fun _ _ _ _ => ⟨node, hnode, rfl⟩

mutual

/-- An expression fails at one of its nodes. -/
theorem evaluate_pointsInto : (value : Expr) →
    FailsWithin (RuntimeError.PointsInto value.nodes) (value.evaluate provider)
  | literal _ value => .pure value.value
  | array _ items =>
      .bind ((evaluateItems_pointsInto items).mono (.mono (List.subset_cons_self _ _))) fun _ =>
        .pure _
  | map _ entries =>
      .bind ((evaluateEntries_pointsInto entries).mono (.mono (List.subset_cons_self _ _)))
        fun _ => .pure _
  | var place name => reported_pointsInto (mem_nodes_self (var place name)) _
  | binary place operator left right => by
      have hleft : left.nodes ⊆ (binary place operator left right).nodes :=
        List.Subset.trans (List.subset_append_left _ _) (List.subset_cons_self _ _)
      have hright : right.nodes ⊆ (binary place operator left right).nodes :=
        List.Subset.trans (List.subset_append_right _ _) (List.subset_cons_self _ _)
      refine .bind ((evaluate_pointsInto left).mono (.mono hleft)) fun _ => ?_
      refine .bind ((evaluate_pointsInto right).mono (.mono hright)) fun _ => ?_
      exact reported_pointsInto (mem_nodes_self (binary place operator left right)) _
  | unary place operator operand => by
      refine .bind ((evaluate_pointsInto operand).mono (.mono (List.subset_cons_self _ _)))
        fun _ => ?_
      exact reported_pointsInto (mem_nodes_self (unary place operator operand)) _
  | property place target name => by
      refine .bind ((evaluate_pointsInto target).mono (.mono (List.subset_cons_self _ _)))
        fun _ => ?_
      exact reported_pointsInto (List.mem_cons_of_mem _ (mem_nodes_self target)) _
  | call place target arguments => by
      have htarget : target.nodes ⊆ (call place target arguments).nodes :=
        List.Subset.trans (List.subset_append_left _ _) (List.subset_cons_self _ _)
      have harguments : argumentNodes arguments ⊆ (call place target arguments).nodes :=
        List.Subset.trans (List.subset_append_right _ _) (List.subset_cons_self _ _)
      refine .bind ((evaluateArguments_pointsInto arguments).mono (.mono harguments)) fun _ => ?_
      refine .bind ((evaluate_pointsInto target).mono (.mono htarget)) fun _ => ?_
      exact reported_pointsInto (htarget (mem_nodes_self target)) _
  | global _ => .pure _
  | storage _ => .pure _

theorem evaluateItems_pointsInto : (items : List Expr) →
    FailsWithin (RuntimeError.PointsInto (itemNodes items)) (evaluateItems provider items)
  | [] => .pure _
  | item :: rest => by
      have hitem : item.nodes ⊆ itemNodes (item :: rest) := List.subset_append_left _ _
      refine .bind ((evaluate_pointsInto item).mono (.mono hitem)) fun _ => ?_
      refine .bind (reported_pointsInto (hitem (mem_nodes_self item)) _) fun _ => ?_
      exact .bind ((evaluateItems_pointsInto rest).mono (.mono (List.subset_append_right _ _)))
        fun _ => .pure _

theorem evaluateEntries_pointsInto : (entries : List (String × Expr)) →
    FailsWithin (RuntimeError.PointsInto (entryNodes entries)) (evaluateEntries provider entries)
  | [] => .pure _
  | (key, item) :: rest => by
      have hitem : item.nodes ⊆ entryNodes ((key, item) :: rest) := List.subset_append_left _ _
      refine .bind ((evaluate_pointsInto item).mono (.mono hitem)) fun _ => ?_
      refine .bind (reported_pointsInto (hitem (mem_nodes_self item)) _) fun _ => ?_
      exact .bind ((evaluateEntries_pointsInto rest).mono (.mono (List.subset_append_right _ _)))
        fun _ => .pure _

theorem evaluateArguments_pointsInto : (arguments : List (Option String × Expr)) →
    FailsWithin (RuntimeError.PointsInto (argumentNodes arguments))
      (evaluateArguments provider arguments)
  | [] => .pure _
  | (name, item) :: rest => by
      have hitem : item.nodes ⊆ argumentNodes ((name, item) :: rest) :=
        List.subset_append_left _ _
      refine .bind ((evaluate_pointsInto item).mono (.mono hitem)) fun _ => ?_
      refine .bind (reported_pointsInto (hitem (mem_nodes_self item)) _) fun _ => ?_
      exact .bind ((evaluateArguments_pointsInto rest).mono (.mono (List.subset_append_right _ _)))
        fun _ => .pure _

end

theorem data_pointsInto (value : Expr) :
    FailsWithin (RuntimeError.PointsInto value.nodes) (value.data provider) :=
  .bind (evaluate_pointsInto value) fun _ => reported_pointsInto (mem_nodes_self value) _

theorem holds_pointsInto (condition : Expr) :
    FailsWithin (RuntimeError.PointsInto condition.nodes) (condition.holds provider) :=
  .bind (data_pointsInto condition) fun _ => reported_pointsInto (mem_nodes_self condition) _

end Expr

/-! ## Commands -/

def Stop.PointsInto (nodes : List Expr) (stop : Stop) : Prop :=
  ∀ error, stop = .failed error → error.PointsInto nodes

theorem Stop.PointsInto.mono {nodes more : List Expr} (hnodes : nodes ⊆ more) (stop : Stop)
    (hpoints : stop.PointsInto nodes) : stop.PointsInto more :=
  fun error hstop => (hpoints error hstop).mono hnodes

/-- What an expression of a command fails with, the command fails with. -/
theorem failed_pointsInto {nodes more : List Expr} {action : RunM m RuntimeError α}
    (haction : FailsWithin (RuntimeError.PointsInto nodes) action) (hnodes : nodes ⊆ more) :
    FailsWithin (Stop.PointsInto more) (RunM.mapError .failed action) := by
  refine .mapError (haction.mono fun error hpoints other hstop => ?_)
  obtain rfl := Stop.failed.inj hstop
  exact hpoints.mono hnodes

/-- No pass of a loop fails elsewhere than its test and its body do. -/
theorem repeatWhile_pointsInto {nodes : List Expr} {test : RunM m RuntimeError Bool}
    {body : RunM m Stop Unit} (htest : FailsWithin (RuntimeError.PointsInto nodes) test)
    (hbody : FailsWithin (Stop.PointsInto nodes) body) (passes : Nat) :
    FailsWithin (Stop.PointsInto nodes) (repeatWhile test body passes) := by
  induction passes with
  | zero => exact .throw fun _ hstop => nomatch hstop
  | succ passes ih =>
    refine .bind (failed_pointsInto htest (List.Subset.refl _)) fun holds => ?_
    cases holds with
    | true => exact .bind hbody fun _ => ih
    | false => exact .pure ()

namespace Command

variable {provider : Provider m} {passes : Nat}

mutual

/-- A command fails at a node of one of its expressions, those of its blocks included. -/
theorem execute_pointsInto : (command : Command) →
    FailsWithin (Stop.PointsInto command.nodes) (command.execute provider passes)
  | setVariable name value =>
      .bind (failed_pointsInto value.evaluate_pointsInto (List.Subset.refl _)) fun _ => .assign _ _
  | setOutput name value =>
      .bind (failed_pointsInto value.data_pointsInto (List.Subset.refl _)) fun _ => .write _ _
  | evaluate value =>
      .bind (failed_pointsInto value.data_pointsInto (List.Subset.refl _)) fun _ => .pure _
  | ifElse condition thenBranch elseBranch => by
      refine .bind (failed_pointsInto condition.holds_pointsInto (List.subset_append_left _ _))
        fun holds => ?_
      have hbranches : allNodes thenBranch ++ allNodes elseBranch ⊆
          (ifElse condition thenBranch elseBranch).nodes := List.subset_append_right _ _
      cases holds with
      | true =>
        exact (executeAll_pointsInto thenBranch).mono
          (.mono (List.Subset.trans (List.subset_append_left _ _) hbranches))
      | false =>
        exact (executeAll_pointsInto elseBranch).mono
          (.mono (List.Subset.trans (List.subset_append_right _ _) hbranches))
  | whileLoop condition body =>
      repeatWhile_pointsInto
        (condition.holds_pointsInto.mono (.mono (List.subset_append_left _ _)))
        ((executeAll_pointsInto body).mono (.mono (List.subset_append_right _ _))) passes

theorem executeAll_pointsInto : (commands : List Command) →
    FailsWithin (Stop.PointsInto (allNodes commands)) (executeAll provider passes commands)
  | [] => .pure _
  | command :: rest =>
      .bind ((execute_pointsInto command).mono (.mono (List.subset_append_left _ _))) fun _ =>
        (executeAll_pointsInto rest).mono (.mono (List.subset_append_right _ _))

end

theorem nodes_subset_allNodes {command : Command} {commands : List Command}
    (hmem : command ∈ commands) : command.nodes ⊆ allNodes commands := by
  induction commands with
  | nil => exact nomatch hmem
  | cons first rest ih =>
    rcases List.mem_cons.1 hmem with rfl | hmem
    · exact List.subset_append_left _ _
    · exact List.Subset.trans (ih hmem) (List.subset_append_right _ _)

/-- Commands that stop do so at one of them: those before it came to their ends, and it left
everything as it is in the end. -/
theorem exists_of_executeAll_stops {σ : Type} {provider : Provider (StateM σ)}
    {commands : List Command} {run final : Run} {before after : σ} {stop : Stop}
    (hstops : (outcome (executeAll provider passes commands) run).run before =
      ((.error stop, final), after)) :
    ∃ earlier command later, commands = earlier ++ command :: later ∧ ∃ reached between,
      (outcome (executeAll provider passes earlier) run).run before =
        ((.ok (), reached), between) ∧
      (outcome (command.execute provider passes) reached).run between =
        ((.error stop, final), after) := by
  induction commands generalizing run before with
  | nil => exact nomatch hstops
  | cons command rest ih =>
    have hcons (others : List Command) :
        (outcome (executeAll provider passes (command :: others)) run).run before =
          match (outcome (command.execute provider passes) run).run before with
          | ((.ok (), reached), between) =>
              (outcome (executeAll provider passes others) reached).run between
          | ((.error stop, reached), between) => ((.error stop, reached), between) := by
      rw [executeAll, run_outcome_bind]
      rcases (outcome (command.execute provider passes) run).run before with
        ⟨⟨stop | _, reached⟩, between⟩
      · rfl
      · rfl
    rw [hcons rest] at hstops
    rcases hcommand : (outcome (command.execute provider passes) run).run before with
      ⟨⟨error | done, reached⟩, between⟩
    · rw [hcommand] at hstops
      exact ⟨[], command, rest, rfl, run, before, rfl, hcommand.trans hstops⟩
    · rw [hcommand] at hstops
      obtain ⟨earlier, failing, later, rfl, middle, mid, hearlier, hfailing⟩ := ih hstops
      refine ⟨command :: earlier, failing, later, rfl, middle, mid, ?_, hfailing⟩
      rw [hcons earlier, hcommand]
      exact hearlier

end Command

/-! ## Runs -/

/-- A run that fails is one whose commands stop with the failure. -/
theorem Script.executeAll_of_run_failed {σ : Type} {script : Script}
    {provider : Provider (StateM σ)} {passes : Nat} {arguments : Table Value} {error : RuntimeError}
    {final : Run} {before after : σ}
    (hrun : (script.run provider passes arguments).run before = ((.failed error, final), after)) :
    (outcome (Command.executeAll provider passes script) { arguments }).run before =
      ((.error (.failed error), final), after) := by
  rw [Script.run_eq] at hrun
  change StateT.run (_ >>= _) before = _ at hrun
  rw [StateT.run_bind] at hrun
  rcases hended : (outcome (Command.executeAll provider passes script) { arguments }).run before with
    ⟨⟨(failure | _) | done, left⟩, around⟩
  · rw [hended] at hrun
    cases hrun
    rfl
  · rw [hended] at hrun
    cases hrun
  · rw [hended] at hrun
    cases hrun

/-- **The error of a run points into the source.**  If the run of a script that was parsed fails,
then while one of the commands at its top is executed: those before it have come to their ends, and
the run ends as that command leaves it, so none behind it was begun.  The error stands at a token
of the source with which an expression of that command begins. -/
theorem run_error_points_into_source {source : String} {commands : Script}
    (hparse : parse source = .script commands) {σ : Type} {provider : Provider (StateM σ)}
    {passes : Nat} {arguments : Table Value} {before after : σ} {error : RuntimeError} {final : Run}
    (hrun : (commands.run provider passes arguments).run before =
      ((.failed error, final), after)) :
    ∃ earlier command later, commands = earlier ++ command :: later ∧
      (∃ reached between,
        (outcome (Command.executeAll provider passes earlier) { arguments }).run before =
          ((.ok (), reached), between) ∧
        (outcome (command.execute provider passes) reached).run between =
          ((.error (.failed error), final), after)) ∧
      ∃ tokens, tokens? source = some tokens ∧ ∃ node ∈ command.nodes, ∃ token rest,
        token :: rest <:+: tokens ∧ Grammar.Covers (token :: rest) node ∧
          error.position = token.position := by
  obtain ⟨earlier, command, later, rfl, reached, between, hearlier, hfailing⟩ :=
    Command.exists_of_executeAll_stops (Script.executeAll_of_run_failed hrun)
  have hpoints : FailsWithin (Stop.PointsInto command.nodes) (command.execute provider passes) :=
    Command.execute_pointsInto command
  have hends := always_state (hpoints reached) between
  rw [hfailing] at hends
  obtain ⟨node, hnode, hplace⟩ := hends (.failed error) rfl error rfl
  obtain ⟨tokens, htokens, -, -, hnodes⟩ := Grammar.script_of_parse hparse
  have hmem : command ∈ earlier ++ command :: later := by simp
  obtain ⟨own, hown, hcovers, hne, hanchor⟩ := hnodes node (Command.nodes_subset_allNodes hmem hnode)
  obtain ⟨token, rest, rfl⟩ := List.exists_cons_of_ne_nil hne
  exact ⟨earlier, command, later, rfl, ⟨reached, between, hearlier, hfailing⟩, tokens, htokens,
    node, hnode, token, rest, hown, hcovers, hplace.trans hanchor⟩

/-- A clock that moves on by a second with each reading, and nothing else. -/
def ticking : Provider (StateM Int64) where
  now := fun time => (time, time + 1)
  perform _ := pure (.error (.unavailable "offline"))

/-- The test of the loop holds a value without truth in the second pass. -/
def spoiltTest : String := "$go = true\nwhile $go \x7b\n  $at = now()\n  $go = null\n\x7d\nat: $at"

def spoiltTestTokens : List Token :=
  [⟨.variableName, "$go", ⟨1, 1⟩⟩, ⟨.assign, "=", ⟨1, 5⟩⟩, ⟨.trueLiteral, "true", ⟨1, 7⟩⟩,
    ⟨.newline, "\n", ⟨1, 11⟩⟩, ⟨.whileKeyword, "while", ⟨2, 1⟩⟩, ⟨.variableName, "$go", ⟨2, 7⟩⟩,
    ⟨.leftBrace, "\x7b", ⟨2, 11⟩⟩, ⟨.newline, "\n", ⟨2, 12⟩⟩, ⟨.variableName, "$at", ⟨3, 3⟩⟩,
    ⟨.assign, "=", ⟨3, 7⟩⟩, ⟨.identifier, "now", ⟨3, 9⟩⟩, ⟨.leftParen, "(", ⟨3, 12⟩⟩,
    ⟨.rightParen, ")", ⟨3, 13⟩⟩, ⟨.newline, "\n", ⟨3, 14⟩⟩, ⟨.variableName, "$go", ⟨4, 3⟩⟩,
    ⟨.assign, "=", ⟨4, 7⟩⟩, ⟨.nullLiteral, "null", ⟨4, 9⟩⟩, ⟨.newline, "\n", ⟨4, 13⟩⟩,
    ⟨.rightBrace, "\x7d", ⟨5, 1⟩⟩, ⟨.newline, "\n", ⟨5, 2⟩⟩, ⟨.identifier, "at", ⟨6, 1⟩⟩,
    ⟨.colon, ":", ⟨6, 3⟩⟩, ⟨.variableName, "$at", ⟨6, 5⟩⟩, ⟨.eof, "", ⟨6, 8⟩⟩]

def spoiltTestCommands : Script :=
  [.setVariable "$go" (.literal ⟨1, 7⟩ (.boolean true)),
    .whileLoop (.var ⟨2, 7⟩ "$go")
      [.setVariable "$at" (.call ⟨3, 9⟩ (.property ⟨3, 9⟩ (.global ⟨3, 9⟩) "now") []),
        .setVariable "$go" (.literal ⟨4, 9⟩ .null)],
    .setOutput "at" (.var ⟨6, 5⟩ "$at")]

theorem spoiltTest_parse : parse spoiltTest = .script spoiltTestCommands := by
  have htokens : tokens? spoiltTest = some spoiltTestTokens := tokens?_of_firstTokens rfl
  rw [parse, htokens]
  rfl

/-- The test of a loop has no truth value in the second pass, and the error stands at the test. -/
theorem run_error_points_into_source_spoiltTest :
    parse spoiltTest = .script spoiltTestCommands ∧
      ∃ final, (spoiltTestCommands.run ticking 10 []).run 40 =
        ((.failed ⟨.invalidBoolean "null", ⟨2, 7⟩⟩, final), 41) ∧
      ∃ earlier command later, spoiltTestCommands = earlier ++ command :: later ∧
        (∃ reached between,
          (outcome (Command.executeAll ticking 10 earlier) {}).run 40 =
            ((.ok (), reached), between) ∧
          (outcome (command.execute ticking 10) reached).run between =
            ((.error (.failed ⟨.invalidBoolean "null", ⟨2, 7⟩⟩), final), 41)) ∧
        ∃ tokens, tokens? spoiltTest = some tokens ∧ ∃ node ∈ command.nodes, ∃ token rest,
          token :: rest <:+: tokens ∧ Grammar.Covers (token :: rest) node ∧
            (⟨2, 7⟩ : Position) = token.position :=
  ⟨spoiltTest_parse, _, rfl, run_error_points_into_source spoiltTest_parse rfl⟩

end MetricScript
