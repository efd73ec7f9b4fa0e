import MetricScript.Proofs.Script.Expressions
import MetricScript.Proofs.Script.Reports

/-!
# What comes of reading commands

The walk through the functions that read commands.  A command that fails has taken a token, or it
failed at its first one; then the token is skipped, since it neither ends a command nor closes a
block.  So every message is paid for by a token, and the depth of recursion suffices for every list
of tokens.
-/

namespace MetricScript.Parse

open Report

variable {shift : Shift} {tokens whole : List Token} {enough : Prop} {depth depth' : Nat}

/-! ## Simple commands -/

theorem evaluated_carried (hdepth : depth ≤ depth') {make make' : Expr → Command}
    (hmake : ∀ value, make' (value.moved shift.place) = (make value).moved shift.place)
    (htokens : shift.Covers tokens) (hlength : tokens.length ≤ whole.length) :
    ((do return make (← expression depth) : Phrase Command) tokens).Carried shift tokens
      (16 * whole.length + 10 ≤ depth) (Outcome.Along (Command.moved shift.place) whole.length)
      ((do return make' (← expression depth') : Phrase Command) (shift.moved tokens)) :=
  Phrase.carried_bind ((expression_carries depth hdepth).on htokens le_rfl (by omega))
    fun value rest hrest hless => Phrase.carried_pure hrest ⟨hmake value, by omega⟩

/-- A simple command is read alike from both token lists. -/
theorem simpleCommand_carries (hdepth : depth ≤ depth') :
    (simpleCommand depth).Carries shift (Command.moved shift.place) 10 0 depth
      (simpleCommand depth') := by
  intro tokens htokens
  have hplain (value : Expr) : Command.evaluate (value.moved shift.place) =
      (Command.evaluate value).moved shift.place := rfl
  have hevaluate := evaluated_carried hdepth hplain htokens le_rfl
  refine Phrase.carried_peek htokens ?_
  rw [Phrase.peekSecond_bind, Phrase.peekSecond_bind, ← List.map_tail, kind_nextToken_moved,
    Token.kind_moved, Token.text_moved]
  refine Phrase.carried_choice (fun hsign => ?_) fun _ => hevaluate
  have hsecond : (nextToken tokens.tail).kind ≠ .eof := by
    intro heof
    simp [heof] at hsign
  generalize hkind : (nextToken tokens).kind = kind
  cases kind with
  | variableName | identifier =>
    refine Phrase.carried_advance htokens (by simp [hkind]) fun htail hless => ?_
    refine Phrase.carried_advance htail hsecond fun hbehind hshorter => ?_
    exact evaluated_carried hdepth (fun _ => rfl) hbehind (by omega)
  | _ => exact hevaluate

/-- The end of a command is seen without taking a token. -/
theorem commandEnd_carried (htokens : shift.Covers tokens) :
    (commandEnd tokens).Carried shift tokens enough (Outcome.Along id (tokens.length + 1))
      (commandEnd (shift.moved tokens)) := by
  refine Phrase.carried_peek htokens ?_
  rw [Token.kind_moved]
  cases (nextToken tokens).kind with
  | newline | semicolon | rightBrace | eof =>
    exact Phrase.carried_pure htokens ⟨rfl, Nat.lt_succ_self _⟩
  | _ => exact Phrase.carried_unexpected _ htokens

theorem simple_carries (hdepth : depth ≤ depth') :
    (simple depth).Carries shift (Command.moved shift.place) 10 0 depth (simple depth') := by
  intro tokens htokens
  refine Phrase.carried_bind (simpleCommand_carries hdepth tokens htokens)
    fun result rest hrest hless => ?_
  refine Phrase.carried_bind (commandEnd_carried hrest) fun _ final hfinal hlast => ?_
  exact Phrase.carried_pure hfinal ⟨rfl, by omega⟩

/-- Whether `else` follows is seen without taking a token. -/
theorem elseFollows_eq (tokens : List Token) :
    elseFollows tokens = .done
      (decide ((nextToken (tokens.dropWhile (·.kind = .newline))).kind = .elseKeyword)) tokens := by
  rw [elseFollows]
  cases tokens.dropWhile (·.kind = .newline) <;> rfl

/-! ## Commands that are tried -/

/-- How a command may fail: with fewer tokens left, messages counted, or at its first token. -/
def Fails (tokens : List Token) (told : Nat) (rest : List Token) : Prop :=
  Within tokens.length told rest ∨ told = 0 ∧ rest = tokens

/-- What comes of a command, which takes a token if it is done. -/
def CarriesCommand (shift : Shift) (depth depth' : Nat) (tokens : List Token) : Prop :=
  Carried shift tokens 0 (16 * tokens.length + 11 ≤ depth)
    (Along (Command.moved shift.place) tokens.length) (Fails tokens) (command depth tokens)
    (command depth' (shift.moved tokens))

/-- If the next token begins something, then trying a command takes a token, whether or not the
command fails, and every message is paid for. -/
theorem attempted_carried (hcommand : CarriesCommand shift depth depth' tokens)
    (htokens : shift.Covers tokens) (hlength : tokens.length ≤ whole.length)
    (hbegins : Begins (nextToken tokens).kind) {bound : Nat} {failing : Nat → List Token → Prop} :
    Carried shift tokens 0 (16 * whole.length + 11 ≤ depth)
      (Pays (Command.movedAll shift.place) whole bound) failing
      (attempted depth (fun first => pure (.again () (first :: ·))) (pure (.again () id)) tokens)
      (attempted depth' (fun first => pure (.again () (first :: ·))) (pure (.again () id))
        (shift.moved tokens)) := by
  rcases hresult : command depth tokens with ⟨errors, outcome⟩
  rcases hresult' : command depth' (shift.moved tokens) with ⟨errors', outcome'⟩
  unfold CarriesCommand at hcommand
  rw [hresult, hresult'] at hcommand
  cases hcommand with
  | done hpassing hcovers hvalue =>
    obtain ⟨rfl, hless⟩ := hvalue
    rw [attempted_of_done hresult, attempted_of_done hresult']
    refine Carried.recorded (carried_pure hcovers ?_) hpassing
    exact .again (by omega) (by omega) fun _ => rfl
  | @failed _ error middle rest hpassing hat hcovers hfails =>
    rw [attempted_of_failed hresult, attempted_of_failed hresult', resume_moved]
    rw [← List.map_singleton, ← List.map_append]
    refine Carried.recorded (carried_pure (shift.resume hcovers 0) ?_)
      (hpassing.append hat.passing)
    rw [List.length_append, List.length_singleton]
    have hskipped := (resume_suffix 0 rest).length_le
    rcases hfails with hless | ⟨htold, rfl⟩
    · unfold Within at hless
      exact .again (by omega) (by omega) fun _ => rfl
    · have hshorter := resume_length_lt hbegins
      exact .again (by omega) (by omega) fun _ => rfl
  | exhausted hdepth =>
    rw [attempted_of_exhausted hresult]
    exact .exhausted (by omega) _ _

section

variable (hcommand : ∀ tokens, shift.Covers tokens → CarriesCommand shift depth depth' tokens)

include hcommand

theorem blockRound_carries :
    CarriesRound shift (Command.movedAll shift.place) 11 0 1 depth (blockRound depth)
      (blockRound depth') := by
  intro tokens htokens
  refine carried_skipTerminators htokens fun inside hinside hlength hterminator => ?_
  refine carried_peek hinside ?_
  rw [Token.kind_moved]
  generalize hkind : (nextToken inside).kind = kind at hterminator
  cases kind with
  | rightBrace =>
    exact carried_advance hinside (by simp [hkind]) fun htail hless =>
      carried_pure htail (.leave (by omega))
  | eof => exact carried_unexpected _ hinside fun rest hrest => within_of_suffix hrest (by omega)
  | newline | semicolon => cases hterminator
  | _ => exact attempted_carried (hcommand inside hinside) hinside hlength
          (hkind ▸ ⟨hterminator, by simp, by simp⟩)

theorem scriptRound_carries :
    CarriesRound shift (Command.movedAll shift.place) 11 1 0 depth (scriptRound depth)
      (scriptRound depth') := by
  intro tokens htokens
  refine carried_skipTerminators htokens fun inside hinside hlength hterminator => ?_
  refine carried_peek hinside ?_
  rw [Token.kind_moved]
  generalize hkind : (nextToken inside).kind = kind at hterminator
  cases kind with
  | eof => exact carried_pure hinside (.leave (by omega))
  | rightBrace =>
    exact carried_record _ hinside (by simp [hkind]) fun htail hless =>
      carried_pure htail (.again (by omega) (by omega) fun _ => rfl)
  | newline | semicolon => cases hterminator
  | _ => exact attempted_carried (hcommand inside hinside) hinside hlength
          (hkind ▸ ⟨hterminator, by simp, by simp⟩)

end

/-! ## The walk -/

mutual

/-- A command is read alike from both token lists, its messages included. -/
theorem command_carries (depth : Nat) {depth' : Nat} (hdepth : depth ≤ depth')
    {tokens : List Token} (htokens : shift.Covers tokens) :
    CarriesCommand shift depth depth' tokens := by
  match depth, depth', hdepth with
  | 0, _, _ => exact .exhausted (Nat.not_succ_le_zero _) _ _
  | depth + 1, depth' + 1, hdepth =>
    have hless := Nat.le_of_succ_le_succ hdepth
    unfold CarriesCommand
    by_cases hif : (nextToken tokens).kind = .ifKeyword
    · rw [command, command]
      refine carried_peek htokens ?_
      rw [Token.kind_moved, hif]
      exact (conditional_carried depth hless htokens hif).mono (List.suffix_refl _) (by omega)
        (fun _ _ _ _ halong => halong) fun _ _ hwithin => .inl hwithin
    by_cases hwhile : (nextToken tokens).kind = .whileKeyword
    · rw [command, command]
      refine carried_peek htokens ?_
      rw [Token.kind_moved, hwhile]
      refine Carried.mono ?_ (List.suffix_refl _) id (fun _ _ _ _ halong => halong)
        fun _ _ hwithin => .inl hwithin
      refine carried_advance htokens (by simp [hwhile]) fun htail hshorter => ?_
      refine carried_bind (carried_lift ((expression_carries depth hless).on htail le_rfl
        (by omega)) (by omega)) fun condition told rest hrest hcondition => ?_
      refine carried_bind ((block_carries depth hless).on hrest le_rfl (by omega) (by omega))
        fun body last final hfinal hbody => ?_
      exact carried_pure hfinal ⟨rfl, by omega⟩
    · rw [command_simple hif hwhile, command_simple (by rwa [kind_nextToken_moved])
        (by rwa [kind_nextToken_moved])]
      refine carried_phrase ((simple_carries hless).on htokens le_rfl Nat.le_of_succ_le_succ)
        (fun _ _ _ halong => ⟨halong.1, (Nat.zero_add _).trans_lt halong.2⟩) fun rest hrest => ?_
      rcases hrest.length_le.lt_or_eq with hfewer | hsame
      · exact .inl ((Nat.zero_add _).trans_lt hfewer)
      · exact .inr ⟨rfl, hrest.eq_of_length hsame⟩
termination_by structural depth

/-- A conditional is read alike from both token lists. -/
theorem conditional_carried (depth : Nat) {depth' : Nat} (hdepth : depth ≤ depth')
    {tokens : List Token} (htokens : shift.Covers tokens)
    (hif : (nextToken tokens).kind = .ifKeyword) :
    Carried shift tokens 0 (16 * tokens.length + 1 ≤ depth)
      (Along (Command.moved shift.place) tokens.length) (Within tokens.length)
      (conditional depth tokens) (conditional depth' (shift.moved tokens)) := by
  match depth, depth', hdepth with
  | 0, _, _ => exact .exhausted (Nat.not_succ_le_zero _) _ _
  | depth + 1, depth' + 1, hdepth =>
    have hless := Nat.le_of_succ_le_succ hdepth
    have hshorter := tail_length_lt (ne_of_eq_of_ne hif (by decide))
    have htail := shift.tail htokens (ne_of_eq_of_ne hif (by decide))
    have hif' : (nextToken (shift.moved tokens)).kind = .ifKeyword := by
      rwa [kind_nextToken_moved]
    rw [conditional, conditional, Report.lift_bind_of_done (Phrase.expect_of_kind _ hif),
      Report.lift_bind_of_done (Phrase.expect_of_kind _ hif'), ← List.map_tail]
    refine Carried.behind ?_ (List.tail_suffix tokens)
    refine carried_bind (carried_lift ((expression_carries depth hless).on htail le_rfl
      (by omega)) (by omega)) fun condition told rest hrest hcondition => ?_
    refine carried_bind ((block_carries depth hless).on hrest le_rfl (by omega) (by omega))
      fun thenBranch sum behind hbehind hthen => ?_
    have hdrop : (shift.moved behind).dropWhile (·.kind = .newline) =
        shift.moved (behind.dropWhile (·.kind = .newline)) := List.dropWhile_map ..
    rw [Report.lift_bind_of_done (elseFollows_eq behind),
      Report.lift_bind_of_done (elseFollows_eq _), hdrop, kind_nextToken_moved]
    refine carried_choice (fun helse => ?_) fun _ => carried_pure hbehind ⟨rfl, by omega⟩
    have helse : (nextToken (behind.dropWhile (·.kind = .newline))).kind = .elseKeyword :=
      of_decide_eq_true helse
    have hinside : behind.dropWhile (·.kind = .newline) <:+ behind := List.dropWhile_suffix _
    have hcovers : shift.Covers (behind.dropWhile (·.kind = .newline)) :=
      shift.dropWhile hbehind fun token heof => by simp [heof]
    rw [Report.skipNewlines_bind, Report.skipNewlines_bind, hdrop]
    generalize behind.dropWhile (·.kind = .newline) = inside at helse hinside hcovers
    have hlength := hinside.length_le
    refine Carried.behind ?_ hinside
    refine carried_advance hcovers (by simp [helse]) fun hleft hfewer => ?_
    refine carried_peek hleft (carried_choice (fun hchained => ?_) fun _ => ?_)
    · refine carried_bind ((conditional_carried depth hless hleft hchained).on le_rfl (by omega)
        (by omega)) fun inner last final hfinal hinner => ?_
      exact carried_pure hfinal ⟨rfl, by omega⟩
    · refine carried_bind ((block_carries depth hless).on hleft le_rfl (by omega) (by omega))
        fun elseBranch last final hfinal helseBranch => ?_
      exact carried_pure hfinal ⟨rfl, by omega⟩
termination_by structural depth

/-- A block is read alike from both token lists. -/
theorem block_carries (depth : Nat) {depth' : Nat} (hdepth : depth ≤ depth') :
    (block depth).Carries shift (Command.movedAll shift.place) 1 0 1 depth (block depth') := by
  match depth, depth', hdepth with
  | 0, _, _ => exact carries_exhausted fun _ => rfl
  | depth + 1, depth' + 1, hdepth =>
    have hless := Nat.le_of_succ_le_succ hdepth
    intro tokens htokens
    rw [block, block]
    refine carried_skipNewlines htokens fun inside hinside hlength => ?_
    refine carried_bind (carried_lift (Phrase.expect_carried _ (by decide) hinside) (by omega))
      fun _ told rest hrest hopened => ?_
    exact (blockCommands_carries depth hless).on hrest (by omega) (by omega) (by omega)
termination_by structural depth

theorem blockCommands_carries (depth : Nat) {depth' : Nat} (hdepth : depth ≤ depth') :
    (blockCommands depth).Carries shift (Command.movedAll shift.place) 12 0 1 depth
      (blockCommands depth') := by
  match depth, depth', hdepth with
  | 0, _, _ => exact carries_exhausted fun _ => rfl
  | depth + 1, depth' + 1, hdepth =>
    have hless := Nat.le_of_succ_le_succ hdepth
    rw [blockCommands_succ, blockCommands_succ]
    exact (blockRound_carries fun tokens htokens => command_carries depth hless htokens).follow
      (blockCommands_carries depth hless)
termination_by structural depth

end

/-- A script is read alike from both token lists. -/
theorem scriptCommands_carries (depth : Nat) {depth' : Nat} (hdepth : depth ≤ depth') :
    (scriptCommands depth).Carries shift (Command.movedAll shift.place) 12 1 0 depth
      (scriptCommands depth') := by
  induction depth generalizing depth' with
  | zero => exact carries_exhausted fun _ => rfl
  | succ depth ih =>
    obtain ⟨depth', rfl⟩ := Nat.exists_eq_add_one_of_ne_zero (show depth' ≠ 0 by omega)
    have hless := Nat.le_of_succ_le_succ hdepth
    rw [scriptCommands_succ, scriptCommands_succ]
    exact (scriptRound_carries fun tokens htokens => command_carries depth hless htokens).follow
      (ih hless)

end MetricScript.Parse
