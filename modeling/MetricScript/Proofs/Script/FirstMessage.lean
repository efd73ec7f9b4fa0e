import Mathlib
import MetricScript.Proofs.Script.Completions
import MetricScript.Proofs.Script.Lines
import MetricScript.Proofs.Script.Places
import MetricScript.Proofs.Script.Spacing

/-!
# The first message does not come too late

The commands of a script are read one after the other, and until the first message each of them was
read completely.  So what stands before the token of the first message can be completed to a script:
if the message is about the token behind a command nothing is missing, and otherwise only the
command that was begun has to be completed, and the blocks around it closed.

The tokens that are missing can be written behind the source before that token, with blanks between
them.
-/

namespace MetricScript

variable {α β : Type} {holds : List Token → Prop} {before own rest tokens : List Token}

/-! ## Reports -/

/-- The first message, recorded or failed with, is about the first token behind some that can be
completed. -/
def Report.Prompt (holds : List Token → Prop) (before tokens : List Token) :
    List SyntaxError × Outcome α → Prop
  | (error :: _, _) => error.Prompt holds before tokens
  | ([], outcome) => outcome.Prompt holds before tokens

namespace Report

theorem Prompt.after (own : List Token) {result : List SyntaxError × Outcome α}
    (hresult : Prompt holds (before ++ own) rest result) :
    Prompt holds before (own ++ rest) result := by
  obtain ⟨_ | ⟨error, errors⟩, outcome⟩ := result
  · exact Outcome.Prompt.after own hresult
  · exact SyntaxError.Prompt.after hresult

/-- The second of two reports is prompt behind every derivation of the first. -/
theorem prompt_bind {report : Report β} {next : β → Report α} {derives : List Token → β → Prop}
    (hsound : ∀ {value rest}, report tokens = ([], .done value rest) →
      ∃ own, tokens = own ++ rest ∧ derives own value)
    (hfirst : Prompt holds before tokens (report tokens))
    (hnext : ∀ own value rest, derives own value →
      Prompt holds (before ++ own) rest (next value rest)) :
    Prompt holds before tokens ((report >>= next) tokens) := by
  simp only [bind]
  rcases hresult : report tokens with ⟨_ | ⟨error, errors⟩, outcome⟩
  · rw [hresult] at hfirst
    cases outcome with
    | done value rest =>
      obtain ⟨own, rfl, hown⟩ := hsound hresult
      exact (hnext own value rest hown).after own
    | failed error rest => exact hfirst
    | exhausted => trivial
  · rw [hresult] at hfirst
    cases outcome <;> exact hfirst

theorem prompt_lift_bind {phrase : Phrase β} {next : β → Report α}
    {derives : List Token → β → Prop}
    (hsound : ∀ {value rest}, phrase tokens = .done value rest →
      ∃ own, tokens = own ++ rest ∧ derives own value)
    (hfirst : (phrase tokens).Prompt holds before tokens)
    (hnext : ∀ own value rest, derives own value →
      Prompt holds (before ++ own) rest (next value rest)) :
    Prompt holds before tokens (((liftM phrase : Report β) >>= next) tokens) :=
  prompt_bind (fun hdone => hsound (Prod.mk.inj hdone).2) hfirst hnext

theorem prompt_map {report : Report β} (make : β → α)
    (hreport : Prompt holds before tokens (report tokens)) :
    Prompt holds before tokens ((do return make (← report) : Report α) tokens) := by
  simp only [bind]
  rcases hresult : report tokens with ⟨_ | ⟨error, errors⟩, outcome⟩
  · rw [hresult] at hreport
    cases outcome with
    | failed error rest => exact hreport
    | done | exhausted => trivial
  · rw [hresult] at hreport
    cases outcome <;> exact hreport

end Report

/-! ## Commands in a row -/

open Grammar

theorem commands_nil : Commands [] [] := .none fun _ hmem => nomatch hmem

/-- The tokens that were read can be completed behind any commands that may follow them. -/
def TakesCommands (holds : List Token → Prop) (before tokens : List Token) : Prop :=
  ∀ own commands, Commands own commands →
    (EndsCommand (nextToken tokens).kind → Separated own) → Completes holds (before ++ own)

namespace TakesCommands

variable {ends inside : List Token} {first : Command}

theorem separated_front (hends : Terminators ends)
    (hbegins : Report.Begins (nextToken inside).kind)
    (hend : EndsCommand (nextToken (ends ++ inside)).kind) (list : List Token) :
    Separated (ends ++ list) := by
  cases ends with
  | nil =>
    obtain ⟨hterminator, hbrace, heof⟩ := hbegins
    rw [List.nil_append] at hend
    simp [EndsCommand, hterminator, hbrace, heof] at hend
  | cons token ends => exact .inr (hends token List.mem_cons_self)

/-- No commands may follow. -/
theorem terminators (htakes : TakesCommands holds before (ends ++ inside))
    (hends : Terminators ends) : Completes holds (before ++ ends) := by
  refine htakes ends [] (.none hends) fun _ => ?_
  cases ends with
  | nil => exact .inl rfl
  | cons token ends => exact .inr (hends token List.mem_cons_self)

/-- A command may follow. -/
theorem command (htakes : TakesCommands holds before (ends ++ inside)) (hends : Terminators ends)
    (hbegins : Report.Begins (nextToken inside).kind)
    (hfirst : Compound own first ∨ Simple own first) :
    Completes holds (before ++ ends ++ own) := by
  have hcommands : Commands (ends ++ (own ++ [])) [first] := by
    rcases hfirst with hcompound | hsimple
    · exact .compound hends hcompound commands_nil
    · exact .simple hends hsimple (.inl rfl) commands_nil
  simpa using htakes _ _ hcommands fun hend => separated_front hends hbegins hend _

/-- Behind a command that was read more of them may follow. -/
theorem next (htakes : TakesCommands holds before (ends ++ (own ++ rest)))
    (hends : Terminators ends) (hbegins : Report.Begins (nextToken (own ++ rest)).kind)
    (hfirst : Compound own first ∨ Simple own first ∧ EndsCommand (nextToken rest).kind) :
    TakesCommands holds (before ++ ends ++ own) rest := by
  intro list commands hlist hseparated
  have hcommands : Commands (ends ++ (own ++ list)) (first :: commands) := by
    rcases hfirst with hcompound | ⟨hsimple, hend⟩
    · exact .compound hends hcompound hlist
    · exact .simple hends hsimple (hseparated hend) hlist
  simpa using htakes _ _ hcommands fun hend => separated_front hends hbegins hend _

end TakesCommands

namespace Parse

open Phrase

theorem commandEnd_taken {value : Unit} (hdone : commandEnd tokens = .done value rest) :
    ∃ own, tokens = own ++ rest ∧ own = [] :=
  ⟨[], (commandEnd_sound hdone).1, rfl⟩

theorem commandEnd_prompt (hbefore : Completes holds before) :
    (commandEnd tokens).Prompt holds before tokens := by
  rw [commandEnd, Phrase.peek_bind]
  generalize (nextToken tokens).kind = kind
  cases kind with
  | newline | semicolon | rightBrace | eof => trivial
  | _ => exact prompt_unexpected _ hbefore

/-- An assignment has a name, a sign and a value. -/
theorem assignment_prompt (depth : Nat) {kind : TokenKind} (make : Expr → Command)
    (hend : kind ≠ .eof) (hkind : (nextToken tokens).kind = kind)
    (hassign : (nextToken tokens.tail).kind = .colon ∨ (nextToken tokens.tail).kind = .assign)
    (hrest : ∀ name sign own value, name.kind = kind →
      (sign.kind = .colon ∨ sign.kind = .assign) → Expression own value →
      Completes holds (before ++ name :: sign :: own)) :
    ((do
      advance
      advance
      let value ← expression depth
      pure (make value) : Phrase Command) tokens).Prompt holds before tokens := by
  obtain ⟨name, following, rfl, hname⟩ := exists_cons hkind hend
  cases following with
  | nil => simp [Token.atEnd] at hassign
  | cons sign rest =>
    refine Outcome.Prompt.after [name, sign] ?_
    refine prompt_map make (expression_prompt depth fun own value hvalue => ?_)
    simpa using hrest name sign own value hname hassign hvalue

/-- The first fault of a simple command comes while the text can still be completed. -/
theorem simpleCommand_prompt (depth : Nat)
    (hrest : ∀ own command, Simple own command → Completes holds (before ++ own)) :
    (simpleCommand depth tokens).Prompt holds before tokens := by
  have hevaluate : ((do return .evaluate (← expression depth) : Phrase Command) tokens).Prompt
      holds before tokens :=
    prompt_map _ (expression_prompt depth fun own value hvalue => hrest own _ (.evaluate hvalue))
  simp only [simpleCommand, Phrase.peek_bind, peekSecond_bind, Phrase.choice_apply]
  split
  · next hassign =>
    have hassign : (nextToken tokens.tail).kind = .colon ∨
        (nextToken tokens.tail).kind = .assign := by simpa using hassign
    generalize hkind : (nextToken tokens).kind = kind
    cases kind with
    | variableName =>
      exact assignment_prompt depth _ (by decide) hkind hassign
        fun name sign own value hname hsign hvalue =>
          hrest _ _ (.setVariable hname hsign hvalue)
    | identifier =>
      exact assignment_prompt depth _ (by decide) hkind hassign
        fun name sign own value hname hsign hvalue => hrest _ _ (.setOutput hname hsign hvalue)
    | _ => exact hevaluate
  · exact hevaluate

theorem simple_prompt (depth : Nat)
    (hrest : ∀ own command, Simple own command → Completes holds (before ++ own)) :
    (simple depth tokens).Prompt holds before tokens := by
  refine prompt_bind simpleCommand_sound (simpleCommand_prompt depth hrest)
    fun own command rest hcommand => ?_
  exact prompt_bind commandEnd_taken (commandEnd_prompt (hrest own command hcommand))
    fun _ _ _ _ => prompt_pure command

/-- A command is tried and more of them follow. -/
theorem attempted_prompt {depth : Nat} {others : Report (List Command)}
    (hcommand : Report.Prompt holds before tokens (command depth tokens))
    (hothers : ∀ own rest first, tokens = own ++ rest →
      (Compound own first ∨ Simple own first ∧ EndsCommand (nextToken rest).kind) →
      Report.Prompt holds (before ++ own) rest (others rest)) :
    Report.Prompt holds before tokens (attempted depth
      (fun first => do let rest ← others; pure (first :: rest)) others tokens) := by
  rcases hresult : command depth tokens with ⟨_ | ⟨error, errors⟩, outcome⟩
  · rw [hresult] at hcommand
    cases outcome with
    | done first rest =>
      obtain ⟨own, rfl, hfirst⟩ := command_sound depth hresult
      rw [attempted_of_done hresult]
      exact Report.Prompt.after own
        (Report.prompt_map _ (hothers own rest first rfl hfirst))
    | failed error rest =>
      rw [attempted_of_failed hresult]
      exact hcommand
    | exhausted =>
      rw [attempted_of_exhausted hresult]
      trivial
  · rw [hresult] at hcommand
    cases outcome with
    | done first rest =>
      rw [attempted_of_done hresult]
      exact hcommand
    | failed error rest =>
      rw [attempted_of_failed hresult]
      exact hcommand
    | exhausted =>
      rw [attempted_of_exhausted hresult]
      exact hcommand

/-- A block that is missing. -/
theorem block_missing : Block [.missing .leftBrace, .missing .rightBrace] [] := by
  have hopening : (Token.missing .leftBrace).kind = .leftBrace := rfl
  have hblock : Block ([] ++ .missing .leftBrace :: ([] ++ [.missing .rightBrace])) [] :=
    .braces Rendering.newlines_nil hopening commands_nil rfl
  exact hblock

mutual

/-- So does the first message of a command. -/
theorem command_prompt (depth : Nat) {before tokens : List Token}
    (hrest : ∀ own command, Compound own command ∨ Simple own command →
      Completes holds (before ++ own)) :
    Report.Prompt holds before tokens (command depth tokens) := by
  match depth with
  | 0 => trivial
  | depth + 1 =>
    by_cases hif : (nextToken tokens).kind = .ifKeyword
    · rw [command, Report.peek_bind, hif]
      exact conditional_prompt depth hif fun own command hcommand =>
        hrest own command (.inl (.conditional hcommand))
    by_cases hwhile : (nextToken tokens).kind = .whileKeyword
    · obtain ⟨keyword, rest, rfl, hkeyword⟩ := exists_cons hwhile (by decide)
      rw [command, Report.peek_bind, hwhile]
      refine Report.Prompt.after [keyword] ?_
      have hloop {test own : List Token} {condition : Expr} {body : List Command}
          (hcondition : Expression test condition) (hbody : Block own body) :
          Completes holds (before ++ [keyword] ++ test ++ own) := by
        simpa using hrest _ _ (.inl (.loop hkeyword hcondition hbody))
      refine Report.prompt_lift_bind (expression_sound depth)
        (expression_prompt depth fun test condition hcondition => ?_)
        fun test condition behind hcondition => ?_
      · exact Completes.of_missing [.leftBrace, .rightBrace] (hloop hcondition block_missing)
      · exact Report.prompt_map _ (block_prompt depth fun own body hbody => hloop hcondition hbody)
    · rw [command_simple hif hwhile]
      exact simple_prompt depth fun own command hcommand => hrest own command (.inr hcommand)
termination_by structural depth

/-- So does the first message of a conditional, whose branches may be empty. -/
theorem conditional_prompt (depth : Nat) {before tokens : List Token}
    (hif : (nextToken tokens).kind = .ifKeyword)
    (hrest : ∀ own command, Conditional own command → Completes holds (before ++ own)) :
    Report.Prompt holds before tokens (conditional depth tokens) := by
  match depth with
  | 0 => trivial
  | depth + 1 =>
    obtain ⟨keyword, rest, rfl, hkeyword⟩ := exists_cons hif (by decide)
    rw [conditional, Report.lift_bind_of_done (expect_cons _ hkeyword rest)]
    refine Report.Prompt.after [keyword] ?_
    have hplain {test own : List Token} {condition : Expr} {thenBranch : List Command}
        (hcondition : Expression test condition) (hthen : Block own thenBranch) :
        Completes holds (before ++ [keyword] ++ test ++ own) := by
      simpa using hrest _ _ (.plain hkeyword hcondition hthen)
    refine Report.prompt_lift_bind (expression_sound depth)
      (expression_prompt depth fun test condition hcondition => ?_)
      fun test condition tested hcondition => ?_
    · exact Completes.of_missing [.leftBrace, .rightBrace] (hplain hcondition block_missing)
    refine Report.prompt_bind (block_sound depth)
      (block_prompt depth fun own thenBranch hthen => hplain hcondition hthen)
      fun own thenBranch following hthen => ?_
    have helse := elseFollows_eq following
    obtain ⟨-, hotherwise⟩ := elseFollows_sound helse
    rw [Report.lift_bind_of_done helse, Report.choice_apply]
    split
    · next htrue =>
      obtain ⟨breaks, otherwise, behind, hbreaks, hkind, rfl, hdrop⟩ := hotherwise htrue
      rw [Report.skipNewlines_bind, hdrop, Report.advance_cons, Report.peek_bind,
        Report.choice_apply, List.append_cons breaks]
      refine Report.Prompt.after (breaks ++ [otherwise]) ?_
      split
      · next hchained =>
        refine Report.prompt_map _ (conditional_prompt depth hchained fun other inner hinner => ?_)
        simpa using hrest _ _ (.chained hkeyword hcondition hthen hbreaks hkind hinner)
      · refine Report.prompt_map _ (block_prompt depth fun other elseBranch helse => ?_)
        simpa using hrest _ _ (.otherwise hkeyword hcondition hthen hbreaks hkind helse)
    · trivial
termination_by structural depth

/-- So does the first message of a block. -/
theorem block_prompt (depth : Nat) {before tokens : List Token}
    (hrest : ∀ own commands, Block own commands → Completes holds (before ++ own)) :
    Report.Prompt holds before tokens (block depth tokens) := by
  match depth with
  | 0 => trivial
  | depth + 1 =>
    obtain ⟨breaks, hbreaks, htokens⟩ := exists_newlines tokens
    rw [block, Report.skipNewlines_bind]
    generalize tokens.dropWhile (·.kind = .newline) = inside at htokens
    subst htokens
    refine Report.Prompt.after breaks ?_
    -- the closing brace may be missing behind commands
    have hbraces {opening : Token} {own : List Token} {commands : List Command}
        (hopening : opening.kind = .leftBrace) (hcommands : Commands own commands) :
        Completes holds (before ++ breaks ++ [opening] ++ own) := by
      have hblock : Block (breaks ++ opening :: (own ++ [.missing .rightBrace])) commands :=
        .braces hbreaks hopening hcommands rfl
      refine Completes.of_missing [.rightBrace] ?_
      simpa using hrest _ _ hblock
    refine Report.prompt_lift_bind (expect_taken (by decide)) ?_ fun own opening rest hopening => ?_
    · have hopening : (Token.missing .leftBrace).kind = .leftBrace := rfl
      refine expect_prompt (Completes.of_missing [.leftBrace] ?_)
      simpa using hbraces hopening commands_nil
    · obtain ⟨rfl, hopening⟩ := hopening
      exact blockCommands_prompt depth fun own commands hcommands _ => hbraces hopening hcommands
termination_by structural depth

theorem blockCommands_prompt (depth : Nat) {before tokens : List Token}
    (htakes : TakesCommands holds before tokens) :
    Report.Prompt holds before tokens (blockCommands depth tokens) := by
  match depth with
  | 0 => trivial
  | depth + 1 =>
    obtain ⟨ends, hends, htokens⟩ := exists_terminators tokens
    have hterminator := Report.isTerminator_dropWhile tokens
    rw [blockCommands, Report.skipTerminators_bind, Report.peek_bind]
    generalize tokens.dropWhile (·.kind.isTerminator) = inside at htokens hterminator
    subst htokens
    have hattempted (hbegins : Report.Begins (nextToken inside).kind) :=
      attempted_prompt
        (command_prompt depth fun own command hcommand =>
          TakesCommands.command htakes hends hbegins hcommand)
        fun own rest first hsplit hfirst => blockCommands_prompt depth
          (TakesCommands.next (hsplit ▸ htakes) hends (hsplit ▸ hbegins) hfirst)
    refine Report.Prompt.after ends ?_
    generalize hkind : (nextToken inside).kind = kind at hterminator hattempted
    cases kind with
    | rightBrace => trivial
    | eof => exact prompt_unexpected _ (TakesCommands.terminators htakes hends)
    | _ => exact hattempted ⟨hterminator, by simp, by simp⟩
termination_by structural depth

end

/-- So does the first message of a script. -/
theorem scriptCommands_prompt (depth : Nat) {before tokens : List Token}
    (htakes : TakesCommands holds before tokens) :
    Report.Prompt holds before tokens (scriptCommands depth tokens) := by
  induction depth generalizing before tokens with
  | zero => trivial
  | succ depth ih =>
    obtain ⟨ends, hends, htokens⟩ := exists_terminators tokens
    have hterminator := Report.isTerminator_dropWhile tokens
    rw [scriptCommands, Report.skipTerminators_bind, Report.peek_bind]
    generalize tokens.dropWhile (·.kind.isTerminator) = inside at htokens hterminator
    subst htokens
    have hattempted (hbegins : Report.Begins (nextToken inside).kind) :=
      attempted_prompt
        (command_prompt depth fun own command hcommand =>
          TakesCommands.command htakes hends hbegins hcommand)
        fun own rest first hsplit hfirst =>
          ih (TakesCommands.next (hsplit ▸ htakes) hends (hsplit ▸ hbegins) hfirst)
    refine Report.Prompt.after ends ?_
    generalize hkind : (nextToken inside).kind = kind at hterminator hattempted
    cases kind with
    | eof => trivial
    | rightBrace => exact SyntaxError.prompt_about _ (TakesCommands.terminators htakes hends)
    | _ => exact hattempted ⟨hterminator, by simp, by simp⟩

end Parse

/-- The tokens before the one of the first message are the beginning of some commands. -/
theorem parseTokens_prompt {errors : List SyntaxError}
    (herrors : parseTokens tokens = .errors errors) :
    ∃ first others, errors = first :: others ∧
      first.Prompt (fun own => ∃ commands, Commands own commands) [] tokens := by
  have htakes : TakesCommands (fun own => ∃ commands, Commands own commands) [] tokens :=
    fun own commands hcommands _ => Completes.of_holds ⟨commands, hcommands⟩
  have hprompt := Parse.scriptCommands_prompt (Parse.depthFor tokens) htakes
  unfold parseTokens at herrors
  split at herrors
  · cases herrors
  · next messages commands rest hmessages hresult =>
    obtain rfl := Parsed.errors.inj herrors
    obtain ⟨first, others, rfl⟩ := List.exists_cons_of_ne_nil hmessages
    rw [hresult] at hprompt
    exact ⟨first, others, rfl, hprompt⟩
  · next messages message rest hresult =>
    obtain rfl := Parsed.errors.inj herrors
    rw [hresult] at hprompt
    cases messages with
    | nil => exact ⟨message, [], rfl, hprompt⟩
    | cons first others => exact ⟨first, others ++ [message], rfl, hprompt⟩
  · cases herrors

/-! ## Sources -/

open Scan
open Rendering (wordOf)

theorem gap_blank : Gap [' '] := .blank (by simp) .nil

theorem separates_blank : Separates ' ' := by simp [Separates]

namespace Tile

/-- Tokens behind a gap, with blanks between them, and the end. -/
def spaced (gap : List Char) : List Token → List Tile
  | [] => [⟨gap, .atEnd .start⟩]
  | token :: more => ⟨gap, token⟩ :: spaced [' '] more

theorem map_token_spaced (gap : List Char) (more : List Token) :
    (spaced gap more).map token = more ++ [.atEnd .start] := by
  induction more generalizing gap with
  | nil => rfl
  | cons token more ih => rw [spaced, List.map_cons, ih, List.cons_append]

theorem textOf_spaced (gap : List Char) (more : List Token) :
    ∃ rest, textOf (spaced gap more) = gap ++ rest := by
  cases more with
  | nil => exact ⟨_, textOf_cons _ _⟩
  | cons token more => exact ⟨_, textOf_cons _ _⟩

theorem settled_spaced {gap : List Char} (hgap : Gap gap) {more : List Token}
    (hmore : ∀ token ∈ more, token.Detached) : Settled (spaced gap more) := by
  induction more generalizing gap with
  | nil => exact .last hgap rfl rfl
  | cons token more ih =>
    obtain ⟨⟨hreads, hbounded⟩, hmore⟩ := List.forall_mem_cons.1 hmore
    have hkind : token.kind ≠ .eof := fun heof => hbounded (by simp [Unbounded, heof])
    obtain ⟨rest, hrest⟩ := textOf_spaced [' '] more
    have hhead : (textOf (spaced [' '] more)).head? = some ' ' := by rw [hrest]; rfl
    refine .next hgap hkind (hreads.before hbounded ?_) (ih gap_blank hmore)
    exact .inr ⟨' ', hhead, separates_blank⟩

/-- In place of what stands from a tile on, tokens may be written behind its gap. -/
theorem Settled.spaced {left right : List Tile} {tile : Tile}
    (hsettled : Settled (left ++ tile :: right))
    (hleft : ∀ other ∈ left, ¬ Unbounded other.token.kind) (hgap : Gap tile.gap)
    {more : List Token} (hmore : ∀ token ∈ more, token.Detached) :
    Settled (left ++ Tile.spaced (tile.gap ++ [' ']) more) := by
  refine hsettled.replace hleft (settled_spaced (hgap.append gap_blank) hmore) ?_
  obtain ⟨rest, hrest⟩ := textOf_spaced (tile.gap ++ [' ']) more
  rw [hrest, textOf_cons, List.append_assoc]
  exact head?_separated separates_blank tile.gap rest _

end Tile

/-- A source before a token, whose tokens are the beginning of some commands, can be completed. -/
theorem exists_completion {left right : List Tile} {tile : Tile} {more : List Token}
    {commands : List Command} (hsettled : Tile.Settled (left ++ tile :: right))
    (hgap : Gap tile.gap) (hmore : ∀ token ∈ more, token.Detached)
    (hcommands : Commands (left.map Tile.token ++ more) commands) :
    ∃ completion found,
      parse (String.ofList (Tile.textOf left ++ tile.gap) ++ completion) = .script found := by
  have hleft (other : Tile) (hmem : other ∈ left) : ¬ Unbounded other.token.kind :=
    not_unbounded_of_valid
      (hcommands.allValid _ (List.mem_append_left _ (List.mem_map_of_mem hmem)))
  -- What is missing is written behind the gap and a blank.
  let tiles := left ++ Tile.spaced (tile.gap ++ [' ']) more
  have hspaced : Tile.Settled tiles := hsettled.spaced hleft hgap hmore
  obtain ⟨missing, hmissing⟩ := Tile.textOf_spaced (tile.gap ++ [' ']) more
  have hsource : (String.ofList (Tile.textOf left ++ tile.gap) ++
      String.ofList (' ' :: missing)).toList = Tile.textOf tiles := by
    rw [Tile.textOf_append, hmissing]
    simp
  have hwords : (Tile.placed .start tiles).map wordOf =
      (left.map Tile.token ++ more ++ [Token.atEnd .start]).map wordOf := by
    calc (Tile.placed .start tiles).map wordOf
        = (tiles.map Tile.token).map wordOf := by
          rw [Tile.map_wordOf_placed, List.map_map]
          rfl
      _ = (left.map Tile.token ++ more ++ [Token.atEnd .start]).map wordOf := by
          rw [List.map_append, Tile.map_token_spaced, List.append_assoc]
  obtain ⟨found, hfound, -⟩ :=
    parse_of_words hcommands rfl (tokens?_of_settled hspaced hsource) hwords
  exact ⟨_, found, hfound⟩

/-- **The first message does not come too late.**  If a source whose token stream ends is faulty,
the first message has the place of a token, and the source before this token is the beginning of a
text that parses. -/
theorem first_message_in_time {source : String} {tokens : List Token} {errors : List SyntaxError}
    (hgives : (Cursor.ofSource source).Gives tokens) (herrors : parse source = .errors errors) :
    ∃ first others, errors = first :: others ∧
      ∃ token ∈ tokens, token.position = first.position ∧
        ∃ before behind : String, source = before ++ behind ∧
          token.position = Position.start.afterAll before.toList ∧
          token.lexeme <+: behind.toList ∧
          ∃ completion commands, parse (before ++ completion) = .script commands := by
  have htokens : tokens? source = some tokens := Cursor.tokens?_eq_some_iff.2 hgives
  rw [parse, htokens] at herrors
  obtain ⟨first, others, rfl, read, rest, message, rfl, rfl, more, hmore, commands, hcommands⟩ :=
    parseTokens_prompt herrors
  -- The message is about a token, since the end of the script is not among what was read.
  obtain ⟨own, final, hends, hfinal, -⟩ := Cursor.tokens?_eq_append_eof htokens rfl
  obtain ⟨token, behind, rfl⟩ : ∃ token behind, rest = token :: behind := by
    refine List.exists_cons_of_ne_nil fun hnil => ?_
    have hmem : final ∈ read := by
      rw [hnil, List.append_nil] at hends
      simp [hends]
    have hvalid : isValid final.kind := hcommands.allValid final (List.mem_append_left _ hmem)
    rw [hfinal] at hvalid
    cases hvalid
  obtain ⟨tiles, hsettled, hlaid, htiles, htext⟩ := tokens?_settled htokens
  obtain ⟨left, right, rfl, rfl, hright⟩ := List.map_eq_append_iff.1 htiles
  obtain ⟨tile, right, rfl, rfl, rfl⟩ := List.map_eq_cons_iff.1 hright
  have hplace := hlaid left tile right rfl
  refine ⟨_, others, rfl, tile.token, by simp, rfl, String.ofList (Tile.textOf left ++ tile.gap),
    String.ofList (tile.token.lexeme ++ Tile.textOf right), ?_, ?_, ?_, ?_⟩
  · rw [← String.toList_inj, htext]
    simp
  · rw [String.toList_ofList]
    exact hplace.position
  · rw [String.toList_ofList]
    exact List.prefix_append _ _
  · exact exists_completion hsettled hplace.gap hmore hcommands

/-- A loop whose condition breaks off at the end of its line. -/
def brokenOffLoop : String := "while $a <\n$b"

def brokenOffTokens : List Token :=
  [⟨.whileKeyword, "while", ⟨1, 1⟩⟩, ⟨.variableName, "$a", ⟨1, 7⟩⟩, ⟨.less, "<", ⟨1, 10⟩⟩,
    ⟨.newline, "\n", ⟨1, 11⟩⟩, ⟨.variableName, "$b", ⟨2, 1⟩⟩, ⟨.eof, "", ⟨2, 3⟩⟩]

theorem brokenOffTokens_given : (Cursor.ofSource brokenOffLoop).Gives brokenOffTokens :=
  Cursor.gives_of_firstTokens rfl

def brokenOffMessage : SyntaxError :=
  ⟨"Expected an expression, found end of line", ⟨1, 11⟩, "\n"⟩

theorem brokenOffLoop_parsed : parse brokenOffLoop = .errors [brokenOffMessage] := by
  rw [parse, show tokens? brokenOffLoop = _ from Cursor.tokens?_eq_some_iff.2 brokenOffTokens_given]
  rfl

theorem first_message_in_time_brokenOffLoop :
    (Cursor.ofSource brokenOffLoop).Gives brokenOffTokens ∧
      parse brokenOffLoop = .errors [brokenOffMessage] ∧
      ∃ first others, [brokenOffMessage] = first :: others ∧
        ∃ token ∈ brokenOffTokens, token.position = first.position ∧
          ∃ before behind : String, brokenOffLoop = before ++ behind ∧
            token.position = Position.start.afterAll before.toList ∧
            token.lexeme <+: behind.toList ∧
            ∃ completion commands, parse (before ++ completion) = .script commands :=
  ⟨brokenOffTokens_given, brokenOffLoop_parsed,
    first_message_in_time brokenOffTokens_given brokenOffLoop_parsed⟩

end MetricScript
