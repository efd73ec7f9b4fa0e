import MetricScript.Proofs.Script.ExpressionReading

/-!
# Derived scripts are parsed

The converse of soundness for commands and whole scripts.  A conditional without `else`
ends where no `else` can follow, even after newlines; the commands of a script or of a block
always leave such a place behind them.
-/

namespace MetricScript.Grammar

open Phrase

/-- No `else` comes next, not even after newlines. -/
def NoElse (rest : List Token) : Prop :=
  (nextToken (rest.dropWhile (·.kind = .newline))).kind ≠ .elseKeyword

theorem EndsCommand.endsExpression {kind : TokenKind} (hends : EndsCommand kind) :
    endsExpression kind := by
  rcases hends with hterminator | rfl | rfl
  · have hkind : kind = .newline ∨ kind = .semicolon := by
      simpa [TokenKind.isTerminator] using hterminator
    rcases hkind with rfl | rfl <;> rfl
  · rfl
  · rfl

theorem elseFollows_none {rest : List Token} (hrest : NoElse rest) :
    Parse.elseFollows rest = .done false rest := by
  unfold NoElse at hrest
  unfold Parse.elseFollows
  split
  · next token following hdrop =>
    rw [hdrop, nextToken_cons] at hrest
    simp [hrest]
  · rfl

theorem elseFollows_some {breaks following : List Token} {otherwise : Token}
    (hbreaks : Newlines breaks) (hotherwise : otherwise.kind = .elseKeyword) :
    Parse.elseFollows (breaks ++ otherwise :: following) =
      .done true (breaks ++ otherwise :: following) := by
  rw [Parse.elseFollows, dropWhile_newlines hbreaks (by simp [hotherwise])]
  simp [hotherwise]

/-- The check behind a command passes in front of a token that ends it. -/
theorem commandEnd_of_endsCommand {rest : List Token}
    (hends : EndsCommand (nextToken rest).kind) : Parse.commandEnd rest = .done () rest := by
  simp only [Parse.commandEnd, peek_bind]
  rcases hends with hterminator | hbrace | heof
  · have hkind : (nextToken rest).kind = .newline ∨ (nextToken rest).kind = .semicolon := by
      simpa [TokenKind.isTerminator] using hterminator
    rcases hkind with hkind | hkind
    · rw [hkind]
      rfl
    · rw [hkind]
      rfl
  · rw [hbrace]
    rfl
  · rw [heof]
    rfl

/-- Without a sign of assignment behind a name a simple command is an expression. -/
theorem simpleCommand_evaluates {depth : Nat} {tokens : List Token}
    (hplain : (nextToken tokens).kind ∉ [.variableName, .identifier] ∨
      (nextToken tokens.tail).kind ∉ [.colon, .assign]) :
    Parse.simpleCommand depth tokens =
      (do return .evaluate (← Parse.expression depth) : Phrase Command) tokens := by
  simp only [Parse.simpleCommand, peek_bind, peekSecond_bind, choice_apply]
  split
  · next hsign =>
    rcases hplain with hname | hplain
    · generalize (nextToken tokens).kind = kind at hname
      cases kind with
      | variableName | identifier => exact absurd hname (by decide)
      | _ => rfl
    · exact absurd (by simpa using hsign) hplain
  · rfl

/-- With one behind a variable or an output it assigns to it. -/
theorem simpleCommand_assigns {name sign : Token} {make : Expr → Command}
    (hsign : sign.kind = .colon ∨ sign.kind = .assign)
    (hmake : name.kind = .variableName ∧ make = .setVariable name.text ∨
      name.kind = .identifier ∧ make = .setOutput name.text) (depth : Nat) (tokens : List Token) :
    Parse.simpleCommand depth (name :: sign :: tokens) =
      (do return make (← Parse.expression depth) : Phrase Command) tokens := by
  have hassigns : (decide (sign.kind = .colon) || decide (sign.kind = .assign)) = true := by
    simpa using hsign
  unfold Parse.simpleCommand
  rw [peek_bind, peekSecond_bind, choice_apply]
  refine (if_pos hassigns).trans ?_
  rw [nextToken_cons]
  rcases hmake with ⟨hname, rfl⟩ | ⟨hname, rfl⟩
  · rw [hname]
    rfl
  · rw [hname]
    rfl

/-- A simple command is read from each of its derivations. -/
theorem Simple.reads {own : List Token} {command : Command} (hcommand : Simple own command) :
    Reads Parse.simpleCommand 9 EndsCommand own command := by
  intro depth rest hdepth hends
  obtain ⟨hstops, hassign⟩ := stops_of_endsExpression hends.endsExpression
  have hmade (make : Expr → Command) {own : List Token} {value : Expr}
      (hvalue : Expression own value) (hless : 16 * own.length + 9 ≤ depth) :
      (do return make (← Parse.expression depth) : Phrase Command) (own ++ rest) =
        .done (make value) rest :=
    bind_of_done ((hvalue.reads List.suffix_rfl).expression depth rest hless hstops)
  cases hcommand with
  | setVariable hname hsign hvalue =>
    simp only [List.length_cons] at hdepth
    exact (simpleCommand_assigns hsign (.inl ⟨hname, rfl⟩) depth _).trans
      (hmade _ hvalue (by omega))
  | setOutput hname hsign hvalue =>
    simp only [List.length_cons] at hdepth
    exact (simpleCommand_assigns hsign (.inr ⟨hname, rfl⟩) depth _).trans
      (hmade _ hvalue (by omega))
  | evaluate hvalue =>
    have hne := hvalue.anchored.1
    -- The second token would make an assignment of a name, so the first is none.
    have hsigns := (hvalue.notAssigning List.suffix_rfl).second hne hassign
    have hplain : (nextToken (own ++ rest)).kind ∉ [.variableName, .identifier] ∨
        (nextToken (own ++ rest).tail).kind ∉ [.colon, .assign] := by
      rw [nextToken_append_of_ne_nil hne]
      by_cases hname : (nextToken own).kind = .identifier ∨ (nextToken own).kind = .variableName
      · exact .inr (by simpa using hsigns hname)
      · exact .inl (by simpa [or_comm] using hname)
    exact (simpleCommand_evaluates hplain).trans (hmade _ hvalue hdepth)

/-- A simple command does not begin with the keyword of a compound one. -/
theorem Simple.keyword {own : List Token} {command : Command} (hcommand : Simple own command) :
    (nextToken own).kind ≠ .ifKeyword ∧ (nextToken own).kind ≠ .whileKeyword := by
  cases hcommand with
  | setVariable hname | setOutput hname => simp [hname]
  | evaluate hvalue =>
    have hbegins := hvalue.begins
    constructor
    · intro hkind
      simp [hkind, beginsExpression] at hbegins
    · intro hkind
      simp [hkind, beginsExpression] at hbegins

/-! ## Places without `else` -/

theorem noElse_of_kind {rest : List Token} (hnewline : (nextToken rest).kind ≠ .newline)
    (helse : (nextToken rest).kind ≠ .elseKeyword) : NoElse rest := by
  rwa [NoElse, ← List.nil_append rest, dropWhile_newlines (by simp [Newlines]) hnewline]

/-- No `else` hides behind terminators if there is none behind them. -/
theorem Terminators.noElse {ends rest : List Token} (hends : Terminators ends)
    (hrest : NoElse rest) : NoElse (ends ++ rest) := by
  induction ends with
  | nil => exact hrest
  | cons token ends ih =>
    obtain ⟨htoken, hmore⟩ := List.forall_mem_cons.1 hends
    by_cases hnewline : token.kind = .newline
    · unfold NoElse
      rw [List.cons_append, List.dropWhile_cons_of_pos (by simpa using hnewline)]
      exact ih hmore
    · refine noElse_of_kind (by exact hnewline) ?_
      intro helse
      rw [List.cons_append, nextToken_cons] at helse
      simp [helse, TokenKind.isTerminator] at htoken

theorem noElse_of_begins {own rest : List Token} (hown : own ≠ [])
    (hbegins : beginsCommand (nextToken own).kind) : NoElse (own ++ rest) := by
  rw [← nextToken_append_of_ne_nil hown rest] at hbegins
  refine noElse_of_kind ?_ ?_
  · intro hkind
    simp [hkind, beginsCommand, beginsExpression] at hbegins
  · intro hkind
    simp [hkind, beginsCommand, beginsExpression] at hbegins

theorem Commands.noElse {own rest : List Token} {commands : List Command}
    (hcommands : Commands own commands) (hrest : NoElse rest) : NoElse (own ++ rest) := by
  cases hcommands with
  | none hends => exact hends.noElse hrest
  | simple hends hcommand | compound hends hcommand =>
    rw [List.append_assoc, List.append_assoc]
    exact hends.noElse (noElse_of_begins hcommand.begins.1 hcommand.begins.2)

theorem Separated.ends {own rest : List Token} (hown : Separated own)
    (hrest : EndsCommand (nextToken rest).kind) : EndsCommand (nextToken (own ++ rest)).kind := by
  cases own with
  | nil => exact hrest
  | cons token own =>
    rcases hown with hnil | hterminator
    · exact nomatch hnil
    · exact .inl hterminator

theorem terminator_of_begins {kind : TokenKind} (hbegins : beginsCommand kind) :
    kind.isTerminator = false := by
  cases kind <;> first | rfl | exact nomatch hbegins

/-- A block can stand behind an expression. -/
theorem Block.ends {own : List Token} {commands : List Command} (hblock : Block own commands)
    (rest : List Token) : endsExpression (nextToken (own ++ rest)).kind := by
  cases hblock with
  | braces hbreaks hopening =>
    rw [List.append_assoc]
    exact endsExpression_newlines hbreaks (by rw [List.cons_append, nextToken_cons, hopening]; rfl)

theorem Block.keyword_ne {own : List Token} {commands : List Command}
    (hblock : Block own commands) (rest : List Token) :
    (nextToken (own ++ rest)).kind ≠ .ifKeyword := by
  intro hkind
  have hends := hblock.ends rest
  simp [hkind, endsExpression] at hends

theorem Conditional.keyword {own : List Token} {command : Command}
    (hcommand : Conditional own command) :
    ∃ keyword more, own = keyword :: more ∧ keyword.kind = .ifKeyword := by
  cases hcommand with
  | plain hkeyword | otherwise hkeyword | chained hkeyword => exact ⟨_, _, rfl, hkeyword⟩

theorem Conditional.keyword_eq {own : List Token} {command : Command}
    (hcommand : Conditional own command) (rest : List Token) :
    (nextToken (own ++ rest)).kind = .ifKeyword := by
  obtain ⟨keyword, more, rfl, hkeyword⟩ := hcommand.keyword
  exact hkeyword

/-- Behind a first block, the keyword `else` is taken with the newlines before it. -/
theorem else_continues {α : Type} {breaks following : List Token} {otherwise : Token}
    (hbreaks : Newlines breaks) (hotherwise : otherwise.kind = .elseKeyword)
    (continuation : Token → Report α) :
    (do
      skipNewlines
      advance
      let token ← peek
      continuation token : Report α) (breaks ++ otherwise :: following) =
      continuation (nextToken following) following := by
  rw [Report.skipNewlines_bind, dropWhile_newlines hbreaks (by simp [hotherwise]),
    Report.advance_cons, Report.peek_bind]

/-! ## Commands -/

/-- With enough depth the report reads the tokens as the value and has no messages. -/
def Reports {α : Type} (report : Nat → Report α) (margin : Nat) (follow : List Token → Prop)
    (own : List Token) (value : α) : Prop :=
  ∀ depth rest, 16 * own.length + margin ≤ depth → follow rest →
    report depth (own ++ rest) = ([], .done value rest)

/-- A simple command is read without a message. -/
theorem Simple.reports {own : List Token} {command : Command} (hcommand : Simple own command) :
    Reports Parse.command 10 (fun rest => EndsCommand (nextToken rest).kind) own command := by
  intro depth rest hdepth hends
  obtain ⟨depth, rfl⟩ := Nat.exists_eq_succ_of_ne_zero (show depth ≠ 0 by omega)
  have hread := hcommand.reads depth rest (by omega) hends
  have hfirst := hcommand.keyword
  simp only [Parse.command, Report.peek_bind]
  rw [nextToken_append_of_ne_nil hcommand.begins.1]
  generalize (nextToken own).kind = kind at hfirst
  split
  · exact absurd rfl hfirst.1
  · exact absurd rfl hfirst.2
  · rw [Report.lift_bind_of_done hread, Report.lift_bind_of_done (commandEnd_of_endsCommand hends)]
    rfl

/-- A block reads its first command and goes on behind it. -/
theorem blockCommands_step {ends own following : List Token} {depth : Nat} {command : Command}
    (hends : Terminators ends) (hown : own ≠ []) (hbegins : beginsCommand (nextToken own).kind)
    (hcommand : Parse.command depth (own ++ following) = ([], .done command following)) :
    Parse.blockCommands (depth + 1) (ends ++ (own ++ following)) =
      (do
        let rest ← Parse.blockCommands depth
        pure (command :: rest) : Report (List Command)) following := by
  have hfirst := hbegins
  rw [← nextToken_append_of_ne_nil hown following] at hfirst
  rw [Parse.blockCommands, Report.skipTerminators_bind,
    dropWhile_terminators hends (terminator_of_begins hfirst), Report.peek_bind]
  have hattempt := Report.attempt_of_done hcommand
  generalize (nextToken (own ++ following)).kind = kind at hfirst
  split
  · simp [beginsCommand, beginsExpression] at hfirst
  · simp [beginsCommand, beginsExpression] at hfirst
  · rw [Report.bind_of_done hattempt]

/-- A script reads its first command and goes on behind it. -/
theorem scriptCommands_step {ends own following : List Token} {depth : Nat} {command : Command}
    (hends : Terminators ends) (hown : own ≠ []) (hbegins : beginsCommand (nextToken own).kind)
    (hcommand : Parse.command depth (own ++ following) = ([], .done command following)) :
    Parse.scriptCommands (depth + 1) (ends ++ (own ++ following)) =
      (do
        let rest ← Parse.scriptCommands depth
        pure (command :: rest) : Report (List Command)) following := by
  have hfirst := hbegins
  rw [← nextToken_append_of_ne_nil hown following] at hfirst
  rw [Parse.scriptCommands, Report.skipTerminators_bind,
    dropWhile_terminators hends (terminator_of_begins hfirst), Report.peek_bind]
  have hattempt := Report.attempt_of_done hcommand
  generalize (nextToken (own ++ following)).kind = kind at hfirst
  split
  · simp [beginsCommand, beginsExpression] at hfirst
  · simp [beginsCommand, beginsExpression] at hfirst
  · rw [Report.bind_of_done hattempt]

/-- The condition and the first block of a conditional or a loop are read before what
follows them. -/
theorem condition_block {α : Type} {test own rest : List Token} {condition : Expr}
    {body : List Command} {depth : Nat} (hcondition : Expression test condition)
    (hends : endsExpression (nextToken (own ++ rest)).kind)
    (hdepth : 16 * test.length + 9 ≤ depth)
    (hblock : Parse.block depth (own ++ rest) = ([], .done body rest))
    (continuation : Expr → List Command → Report α) :
    (do
      let condition ← Parse.expression depth
      let body ← Parse.block depth
      continuation condition body : Report α) (test ++ (own ++ rest)) =
      continuation condition body rest := by
  have hread := (hcondition.reads List.suffix_rfl).expression depth (own ++ rest) hdepth
    (stops_of_endsExpression hends).1
  rw [Report.lift_bind_of_done hread, Report.bind_of_done hblock]

mutual

/-- A conditional is read without a message, with the branch that its `else` gives it. -/
theorem Conditional.reports {own : List Token} {command : Command} :
    Conditional own command → Reports Parse.conditional 0 NoElse own command
  | @Conditional.plain keyword test own condition thenBranch hkeyword hcondition hthen => by
      intro depth rest hdepth hrest
      simp only [List.length_cons, List.length_append] at hdepth
      obtain ⟨depth, rfl⟩ := Nat.exists_eq_succ_of_ne_zero (show depth ≠ 0 by omega)
      have hblock := hthen.reports depth rest (by omega) trivial
      rw [List.cons_append, List.append_assoc, Parse.conditional,
        Report.lift_bind_of_done (expect_cons _ hkeyword _),
        condition_block hcondition (hthen.ends rest) (by omega) hblock,
        Report.lift_bind_of_done (elseFollows_none hrest)]
      rfl
  | @Conditional.otherwise keyword otherwise test own breaks other condition thenBranch elseBranch
      hkeyword hcondition hthen hbreaks hotherwise helse => by
      intro depth rest hdepth hrest
      simp only [List.length_cons, List.length_append] at hdepth
      obtain ⟨depth, rfl⟩ := Nat.exists_eq_succ_of_ne_zero (show depth ≠ 0 by omega)
      have hblock := hthen.reports depth (breaks ++ otherwise :: (other ++ rest))
        (by omega) trivial
      have hother := helse.reports depth rest (by omega) trivial
      simp only [List.cons_append, List.append_assoc]
      rw [Parse.conditional, Report.lift_bind_of_done (expect_cons _ hkeyword _),
        condition_block hcondition (hthen.ends _) (by omega) hblock,
        Report.lift_bind_of_done (elseFollows_some hbreaks hotherwise)]
      refine (else_continues hbreaks hotherwise _).trans ?_
      refine (Report.choice_apply _ _ _ _).trans ((if_neg (helse.keyword_ne rest)).trans ?_)
      rw [Report.bind_of_done hother]
      rfl
  | @Conditional.chained keyword otherwise test own breaks other condition thenBranch inner
      hkeyword hcondition hthen hbreaks hotherwise helse => by
      intro depth rest hdepth hrest
      simp only [List.length_cons, List.length_append] at hdepth
      obtain ⟨depth, rfl⟩ := Nat.exists_eq_succ_of_ne_zero (show depth ≠ 0 by omega)
      have hblock := hthen.reports depth (breaks ++ otherwise :: (other ++ rest))
        (by omega) trivial
      have hother := helse.reports depth rest (by omega) hrest
      simp only [List.cons_append, List.append_assoc]
      rw [Parse.conditional, Report.lift_bind_of_done (expect_cons _ hkeyword _),
        condition_block hcondition (hthen.ends _) (by omega) hblock,
        Report.lift_bind_of_done (elseFollows_some hbreaks hotherwise)]
      refine (else_continues hbreaks hotherwise _).trans ?_
      refine (Report.choice_apply _ _ _ _).trans ((if_pos (helse.keyword_eq rest)).trans ?_)
      rw [Report.bind_of_done hother]
      rfl

/-- A conditional or a loop is read without a message. -/
theorem Compound.reports {own : List Token} {command : Command} :
    Compound own command → Reports Parse.command 10 NoElse own command
  | .conditional hcommand => by
      intro depth rest hdepth hrest
      obtain ⟨depth, rfl⟩ := Nat.exists_eq_succ_of_ne_zero (show depth ≠ 0 by omega)
      have hread := hcommand.reports depth rest (by omega) hrest
      obtain ⟨keyword, more, rfl, hkeyword⟩ := hcommand.keyword
      simp only [Parse.command, Report.peek_bind, List.cons_append, nextToken_cons, hkeyword]
      exact hread
  | @Compound.loop keyword test own condition body hkeyword hcondition hbody => by
      intro depth rest hdepth hrest
      simp only [List.length_cons, List.length_append] at hdepth
      obtain ⟨depth, rfl⟩ := Nat.exists_eq_succ_of_ne_zero (show depth ≠ 0 by omega)
      have hblock := hbody.reports depth rest (by omega) trivial
      simp only [Parse.command, Report.peek_bind, List.cons_append, nextToken_cons, hkeyword,
        List.append_assoc]
      rw [Report.advance_cons, condition_block hcondition (hbody.ends rest) (by omega) hblock]
      rfl

theorem Block.reports {own : List Token} {commands : List Command} :
    Block own commands → Reports Parse.block 0 (fun _ => True) own commands
  | @Block.braces breaks own opening closing commands hbreaks hopening hcommands hclosing => by
      intro depth rest hdepth _
      simp only [List.length_cons, List.length_append, List.length_nil] at hdepth
      obtain ⟨depth, rfl⟩ := Nat.exists_eq_succ_of_ne_zero (show depth ≠ 0 by omega)
      have hread := hcommands.reports hclosing depth rest (by omega)
      simp only [List.cons_append, List.append_assoc, List.nil_append]
      rw [Parse.block, Report.skipNewlines_bind, dropWhile_newlines hbreaks (by simp [hopening]),
        Report.lift_bind_of_done (expect_cons _ hopening _)]
      exact hread

/-- Commands in front of a closing brace are read without a message. -/
theorem Commands.reports {own : List Token} {commands : List Command} {closing : Token}
    (hclosing : closing.kind = .rightBrace) : Commands own commands →
      ∀ depth rest, 16 * own.length + 11 ≤ depth →
        Parse.blockCommands depth (own ++ closing :: rest) = ([], .done commands rest)
  | .none hends => by
      intro depth rest hdepth
      obtain ⟨depth, rfl⟩ := Nat.exists_eq_succ_of_ne_zero (show depth ≠ 0 by omega)
      rw [Parse.blockCommands, Report.skipTerminators_bind,
        dropWhile_terminators hends (by simp [hclosing, TokenKind.isTerminator]), Report.peek_bind]
      simp only [nextToken_cons, hclosing]
      rfl
  | @Commands.simple ends own others command commands hends hcommand hseparated hothers => by
      intro depth rest hdepth
      simp only [List.length_append] at hdepth
      obtain ⟨depth, rfl⟩ := Nat.exists_eq_succ_of_ne_zero (show depth ≠ 0 by omega)
      obtain ⟨hne, hbegins⟩ := hcommand.begins
      have hlength := List.length_pos_of_ne_nil hne
      have hfirst := hcommand.reports depth (others ++ closing :: rest) (by omega)
        (hseparated.ends (.inr (.inl hclosing)))
      have hread := hothers.reports hclosing depth rest (by omega)
      simp only [List.append_assoc]
      rw [blockCommands_step hends hne hbegins hfirst, Report.bind_of_done hread]
      rfl
  | @Commands.compound ends own others command commands hends hcommand hothers => by
      intro depth rest hdepth
      simp only [List.length_append] at hdepth
      obtain ⟨depth, rfl⟩ := Nat.exists_eq_succ_of_ne_zero (show depth ≠ 0 by omega)
      obtain ⟨hne, hbegins⟩ := hcommand.begins
      have hlength := List.length_pos_of_ne_nil hne
      have hfirst := hcommand.reports depth (others ++ closing :: rest) (by omega)
        (hothers.noElse (noElse_of_kind (by simp [hclosing]) (by simp [hclosing])))
      have hread := hothers.reports hclosing depth rest (by omega)
      simp only [List.append_assoc]
      rw [blockCommands_step hends hne hbegins hfirst, Report.bind_of_done hread]
      rfl

end

/-- The commands of a script are read up to the end of its tokens. -/
theorem Commands.scriptReports {own : List Token} {commands : List Command} {final : Token}
    (hfinal : final.kind = .eof) : Commands own commands →
      ∀ depth, 16 * own.length + 11 ≤ depth →
        Parse.scriptCommands depth (own ++ [final]) = ([], .done commands [final])
  | .none hends => by
      intro depth hdepth
      obtain ⟨depth, rfl⟩ := Nat.exists_eq_succ_of_ne_zero (show depth ≠ 0 by omega)
      rw [Parse.scriptCommands, Report.skipTerminators_bind,
        dropWhile_terminators hends (by simp [hfinal, TokenKind.isTerminator]), Report.peek_bind]
      simp only [nextToken_cons, hfinal]
      rfl
  | @Commands.simple ends own others command commands hends hcommand hseparated hothers => by
      intro depth hdepth
      simp only [List.length_append] at hdepth
      obtain ⟨depth, rfl⟩ := Nat.exists_eq_succ_of_ne_zero (show depth ≠ 0 by omega)
      obtain ⟨hne, hbegins⟩ := hcommand.begins
      have hlength := List.length_pos_of_ne_nil hne
      have hfirst := hcommand.reports depth (others ++ [final]) (by omega)
        (hseparated.ends (.inr (.inr hfinal)))
      have hread := hothers.scriptReports hfinal depth (by omega)
      simp only [List.append_assoc]
      rw [scriptCommands_step hends hne hbegins hfirst, Report.bind_of_done hread]
      rfl
  | @Commands.compound ends own others command commands hends hcommand hothers => by
      intro depth hdepth
      simp only [List.length_append] at hdepth
      obtain ⟨depth, rfl⟩ := Nat.exists_eq_succ_of_ne_zero (show depth ≠ 0 by omega)
      obtain ⟨hne, hbegins⟩ := hcommand.begins
      have hlength := List.length_pos_of_ne_nil hne
      have hfirst := hcommand.reports depth (others ++ [final]) (by omega)
        (hothers.noElse (noElse_of_kind (by simp [hfinal]) (by simp [hfinal])))
      have hread := hothers.scriptReports hfinal depth (by omega)
      simp only [List.append_assoc]
      rw [scriptCommands_step hends hne hbegins hfirst, Report.bind_of_done hread]
      rfl

/-- Tokens that the grammar derives as a script are parsed as that script. -/
theorem Script.parses {tokens : List Token} {commands : MetricScript.Script}
    (hscript : Script tokens commands) : parseTokens tokens = .script commands := by
  cases hscript with
  | @commands own final _ hcommands hfinal =>
    have hread := hcommands.scriptReports hfinal (Parse.depthFor (own ++ [final]))
      (by simp only [Parse.depthFor, List.length_append, List.length_singleton]; omega)
    simp only [parseTokens, hread]

end MetricScript.Grammar
