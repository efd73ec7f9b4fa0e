import Mathlib
import MetricScript.Proofs.Script.Lines
import MetricScript.Proofs.Script.Messages
import MetricScript.Proofs.Script.Parts

/-!
# Faults in separate lines

In a line without opening brackets and without the keywords of conditionals and loops nothing
begins that could go on below the line.  Parsed alone and with more lines below, such a line is
read with the same steps: where the one parser sees the end of the script the other one sees a
newline, and neither takes what it sees.  Behind a faulty command the one stands at the end and the
other at the beginning of the next line.

So every line is parsed on its own, and the places of the messages about a text are those of the
messages about its lines.
-/

namespace MetricScript

variable {α β γ : Type}

/-! ## A line alone, and with more below it -/

/-- The tokens stand within a line, and none of them can begin what goes on below the line. -/
def Inline (own : List Token) : Prop :=
  ∀ token ∈ own, token.kind ∉
    [.newline, .eof, .leftParen, .leftBracket, .leftBrace, .ifKeyword, .whileKeyword]

theorem inline_nil : Inline [] := fun _ hmem => nomatch hmem

theorem Inline.tail {token : Token} {own : List Token} (hown : Inline (token :: own)) :
    Inline own :=
  fun other hother => hown other (List.mem_cons_of_mem _ hother)

theorem Inline.of_suffix {own rest : List Token} (hown : Inline own) (hrest : rest <:+ own) :
    Inline rest :=
  fun token htoken => hown token (hrest.subset htoken)

/-- The end of a script, and the newline that stands there if more lines follow. -/
structure LineEnds (final newline : Token) : Prop where
  isEnd : final.kind = .eof
  isNewline : newline.kind = .newline
  samePlace : newline.position = final.position

/-- What a phrase reads off a line that ends with the script, and off the same line with more below
it: the same value, or messages at the same place, and as much of the line is left. -/
inductive Outcome.Alike (final newline : Token) (more : List Token) :
    Outcome α → Outcome α → Prop where
  | done {value : α} {rest : List Token} (hrest : Inline rest) :
      Alike final newline more (.done value (rest ++ [final]))
        (.done value (rest ++ newline :: more))
  | failed {error error' : SyntaxError} {rest : List Token} (hrest : Inline rest)
      (hposition : error'.position = error.position) :
      Alike final newline more (.failed error (rest ++ [final]))
        (.failed error' (rest ++ newline :: more))
  | exhausted (outcome : Outcome α) : Alike final newline more .exhausted outcome

namespace Phrase

variable {final newline : Token} {own more : List Token}

theorem alike_pure (value : α) (hown : Inline own) :
    ((pure value : Phrase α) (own ++ [final])).Alike final newline more
      ((pure value : Phrase α) (own ++ newline :: more)) := .done hown

/-- A token at the same position is refused with the same message. -/
theorem alike_unexpected {token token' : Token} (message : String) (hown : Inline own)
    (hposition : token'.position = token.position) :
    ((unexpected token message : Phrase α) (own ++ [final])).Alike final newline more
      ((unexpected token' message : Phrase α) (own ++ newline :: more)) := by
  have hfail (token : Token) : ∃ error, error.position = token.position ∧
      ∀ tokens, (unexpected token message : Phrase α) tokens = .failed error tokens := by
    unfold unexpected
    cases token.kind <;> exact ⟨_, rfl, fun _ => rfl⟩
  obtain ⟨error, herror, hfails⟩ := hfail token
  obtain ⟨error', herror', hfails'⟩ := hfail token'
  rw [hfails, hfails']
  exact .failed hown (by rw [herror, herror', hposition])

/-- Two phrases in a row are alike if both are. -/
theorem alike_bind {phrase phrase' : Phrase β} {next next' : β → Phrase α}
    {tokens tokens' : List Token}
    (hfirst : (phrase tokens).Alike final newline more (phrase' tokens'))
    (hnext : ∀ value rest, Inline rest → (next value (rest ++ [final])).Alike final newline more
      (next' value (rest ++ newline :: more))) :
    ((phrase >>= next) tokens).Alike final newline more ((phrase' >>= next') tokens') := by
  simp only [bind]
  generalize phrase tokens = outcome at hfirst
  generalize phrase' tokens' = outcome' at hfirst
  cases hfirst with
  | done hrest => exact hnext _ _ hrest
  | failed hrest hposition => exact .failed hrest hposition
  | exhausted => exact .exhausted _

theorem alike_choice {condition : Prop} [Decidable condition]
    {first first' second second' : Phrase α} {tokens tokens' : List Token}
    (hfirst : condition → (first tokens).Alike final newline more (first' tokens'))
    (hsecond : ¬condition → (second tokens).Alike final newline more (second' tokens')) :
    ((if condition then first else second) tokens).Alike final newline more
      ((if condition then first' else second') tokens') := by
  by_cases hcondition : condition
  · rw [if_pos hcondition, if_pos hcondition]
    exact hfirst hcondition
  · rw [if_neg hcondition, if_neg hcondition]
    exact hsecond hcondition

/-- The next token is one of the line, or else it is the end and the newline. -/
theorem alike_peek {next next' : Token → Phrase α} (hown : Inline own)
    (hlast : (next final [final]).Alike final newline more (next' newline (newline :: more)))
    (hnext : ∀ token rest, Inline (token :: rest) →
      (next token (token :: (rest ++ [final]))).Alike final newline more
        (next' token (token :: (rest ++ newline :: more)))) :
    ((peek >>= next) (own ++ [final])).Alike final newline more
      ((peek >>= next') (own ++ newline :: more)) := by
  cases own with
  | nil => exact hlast
  | cons token rest => exact hnext token rest hown

theorem alike_advance {token : Token} {next next' : Unit → Phrase α}
    (hnext : (next () (own ++ [final])).Alike final newline more
      (next' () (own ++ newline :: more))) :
    ((advance >>= next) (token :: (own ++ [final]))).Alike final newline more
      ((advance >>= next') (token :: (own ++ newline :: more))) := hnext

theorem alike_expect (hends : LineEnds final newline) {kind : TokenKind} (what : String)
    (heof : kind ≠ .eof) (hnewline : kind ≠ .newline) (hown : Inline own) :
    (expect kind what (own ++ [final])).Alike final newline more
      (expect kind what (own ++ newline :: more)) := by
  refine alike_peek hown ?_ fun token rest hrest => ?_
  · rw [if_neg (hends.isEnd ▸ heof.symm), if_neg (hends.isNewline ▸ hnewline.symm)]
    exact alike_unexpected _ inline_nil hends.samePlace
  · exact alike_choice (fun _ => alike_pure token hrest.tail) fun _ =>
      alike_unexpected _ hrest rfl

end Phrase

namespace Parse

open Phrase Grammar

variable {final newline : Token} {own more : List Token}

/-! ## Expressions -/

/-- An operand is read alike at the end of a line and at the end of the text. -/
theorem primary_alike (hends : LineEnds final newline) (depth : Nat) {depth' : Nat}
    (hdepth : depth ≤ depth') (hown : Inline own) :
    (primary depth (own ++ [final])).Alike final newline more
      (primary depth' (own ++ newline :: more)) := by
  cases depth with
  | zero => exact .exhausted _
  | succ depth =>
    obtain ⟨depth', rfl⟩ := Nat.exists_eq_add_one_of_ne_zero (show depth' ≠ 0 by omega)
    rw [primary, primary]
    refine alike_peek hown ?_ fun token rest hrest => ?_
    · rw [hends.isEnd, hends.isNewline]
      exact alike_unexpected _ inline_nil hends.samePlace
    · have hinline := hrest token List.mem_cons_self
      generalize token.kind = kind at hinline
      cases kind with
      | number =>
        refine alike_advance ?_
        cases Number.read? token.text with
        | some value => exact alike_pure _ hrest.tail
        | none => exact .failed hrest.tail rfl
      | string | trueLiteral | falseLiteral | nullLiteral | variableName | identifier =>
        exact alike_pure _ hrest.tail
      | leftParen | leftBracket | leftBrace => exact absurd hinline (by decide)
      | _ => exact alike_unexpected _ hrest rfl

theorem suffixes_alike (hends : LineEnds final newline) (depth : Nat) {depth' : Nat}
    (hdepth : depth ≤ depth') (target : Expr) (hown : Inline own) :
    (suffixes depth target (own ++ [final])).Alike final newline more
      (suffixes depth' target (own ++ newline :: more)) := by
  induction depth generalizing depth' target own with
  | zero => exact .exhausted _
  | succ depth ih =>
    obtain ⟨depth', rfl⟩ := Nat.exists_eq_add_one_of_ne_zero (show depth' ≠ 0 by omega)
    have hless := Nat.le_of_succ_le_succ hdepth
    rw [suffixes, suffixes]
    refine alike_peek hown ?_ fun token rest hrest => ?_
    · rw [hends.isEnd, hends.isNewline]
      exact alike_pure target inline_nil
    · have hinline := hrest token List.mem_cons_self
      generalize token.kind = kind at hinline
      cases kind with
      | dot =>
        refine alike_advance ?_
        exact alike_bind (alike_expect hends _ (by decide) (by decide) hrest.tail)
          fun name behind hbehind => ih hless _ hbehind
      | leftParen => exact absurd hinline (by decide)
      | _ => exact alike_pure target hrest

theorem unary_alike (hends : LineEnds final newline) (depth : Nat) {depth' : Nat}
    (hdepth : depth ≤ depth') (hown : Inline own) :
    (unary depth (own ++ [final])).Alike final newline more
      (unary depth' (own ++ newline :: more)) := by
  induction depth generalizing depth' own with
  | zero => exact .exhausted _
  | succ depth ih =>
    obtain ⟨depth', rfl⟩ := Nat.exists_eq_add_one_of_ne_zero (show depth' ≠ 0 by omega)
    have hless := Nat.le_of_succ_le_succ hdepth
    have hoperand (own : List Token) (hown : Inline own) :
        ((primary depth >>= suffixes depth) (own ++ [final])).Alike final newline more
          ((primary depth' >>= suffixes depth') (own ++ newline :: more)) :=
      alike_bind (primary_alike hends depth hless hown) fun target rest hrest =>
        suffixes_alike hends depth hless target hrest
    rw [unary, unary]
    refine alike_peek hown ?_ fun token rest hrest => ?_
    · rw [hends.isEnd, hends.isNewline]
      exact hoperand [] inline_nil
    · cases unaryOperator? token.kind with
      | some operator =>
        refine alike_advance ?_
        exact alike_bind (ih hless hrest.tail) fun operand behind hbehind =>
          alike_pure _ hbehind
      | none => exact hoperand (token :: rest) hrest

mutual

theorem binary_alike (hends : LineEnds final newline) (depth : Nat) {depth' : Nat}
    (hdepth : depth ≤ depth') {levels : List Level} (heof : Stops levels .eof)
    (hnewline : Stops levels .newline) {own : List Token} (hown : Inline own) :
    (binary depth levels (own ++ [final])).Alike final newline more
      (binary depth' levels (own ++ newline :: more)) := by
  match depth, depth', hdepth, levels with
  | 0, _, _, _ => exact .exhausted _
  | depth + 1, depth' + 1, hdepth, [] =>
    exact unary_alike hends depth (Nat.le_of_succ_le_succ hdepth) hown
  | depth + 1, depth' + 1, hdepth, level :: tighter =>
    have hless := Nat.le_of_succ_le_succ hdepth
    exact alike_bind (binary_alike hends depth hless heof.tighter hnewline.tighter hown)
      fun left rest hrest => operands_alike hends depth hless heof hnewline left hrest
termination_by structural depth

theorem operands_alike (hends : LineEnds final newline) (depth : Nat) {depth' : Nat}
    (hdepth : depth ≤ depth') {level : Level} {tighter : List Level}
    (heof : Stops (level :: tighter) .eof) (hnewline : Stops (level :: tighter) .newline)
    (left : Expr) {own : List Token} (hown : Inline own) :
    (operands depth level tighter left (own ++ [final])).Alike final newline more
      (operands depth' level tighter left (own ++ newline :: more)) := by
  match depth, depth', hdepth with
  | 0, _, _ => exact .exhausted _
  | depth + 1, depth' + 1, hdepth =>
    have hless := Nat.le_of_succ_le_succ hdepth
    rw [operands, operands]
    refine alike_peek hown ?_ fun token rest hrest => ?_
    · rw [hends.isEnd, hends.isNewline, heof.2.2 level List.mem_cons_self,
        hnewline.2.2 level List.mem_cons_self]
      exact alike_pure left inline_nil
    · cases level.lookup token.kind with
      | none => exact alike_pure left hrest
      | some operator =>
        refine alike_advance ?_
        exact alike_bind (binary_alike hends depth hless heof.tighter hnewline.tighter hrest.tail)
          fun right behind hbehind => operands_alike hends depth hless heof hnewline _ hbehind
termination_by structural depth

end

theorem expression_alike (hends : LineEnds final newline) (depth : Nat) {depth' : Nat}
    (hdepth : depth ≤ depth') {own : List Token} (hown : Inline own) :
    (expression depth (own ++ [final])).Alike final newline more
      (expression depth' (own ++ newline :: more)) := by
  match depth, depth', hdepth with
  | 0, _, _ => exact .exhausted _
  | depth + 1, depth' + 1, hdepth =>
    exact binary_alike hends depth (Nat.le_of_succ_le_succ hdepth)
      (stops_of_endsExpression rfl).1 (stops_of_endsExpression rfl).1 hown

/-! ## Commands -/

/-- So is a simple command. -/
theorem simpleCommand_alike (hends : LineEnds final newline) {depth depth' : Nat}
    (hdepth : depth ≤ depth') (hown : Inline own) :
    (simpleCommand depth (own ++ [final])).Alike final newline more
      (simpleCommand depth' (own ++ newline :: more)) := by
  have hmake (make : Expr → Command) (own : List Token) (hown : Inline own) :
      ((do return make (← expression depth) : Phrase Command) (own ++ [final])).Alike
        final newline more
        ((do return make (← expression depth') : Phrase Command) (own ++ newline :: more)) :=
    alike_bind (expression_alike hends depth hdepth hown) fun value rest hrest =>
      alike_pure _ hrest
  have hevaluate := hmake .evaluate own hown
  -- an assignment has two tokens on the line, whatever the next line begins with
  match own, hown with
  | [], _ =>
    rwa [simpleCommand_evaluates (.inl (by simp [hends.isEnd])),
      simpleCommand_evaluates (.inl (by simp [hends.isNewline]))]
  | [token], _ =>
    rwa [simpleCommand_evaluates (.inr (by simp [hends.isEnd])),
      simpleCommand_evaluates (.inr (by simp [hends.isNewline]))]
  | token :: sign :: rest, hown =>
    rw [simpleCommand, simpleCommand, peek_bind, peek_bind, peekSecond_bind, peekSecond_bind]
    refine alike_choice (fun _ => ?_) fun _ => hevaluate
    simp only [List.cons_append, nextToken_cons]
    cases token.kind with
    | variableName => exact hmake (.setVariable token.text) rest hown.tail.tail
    | identifier => exact hmake (.setOutput token.text) rest hown.tail.tail
    | _ => exact hevaluate

theorem commandEnd_alike (hends : LineEnds final newline) (hown : Inline own) :
    (commandEnd (own ++ [final])).Alike final newline more
      (commandEnd (own ++ newline :: more)) := by
  refine alike_peek hown ?_ fun token rest hrest => ?_
  · rw [hends.isEnd, hends.isNewline]
    exact alike_pure () inline_nil
  · cases token.kind with
    | newline | semicolon | rightBrace | eof => exact alike_pure () hrest
    | _ => exact alike_unexpected _ hrest rfl

theorem simple_alike (hends : LineEnds final newline) {depth depth' : Nat}
    (hdepth : depth ≤ depth') (hown : Inline own) :
    (simple depth (own ++ [final])).Alike final newline more
      (simple depth' (own ++ newline :: more)) :=
  alike_bind (simpleCommand_alike hends hdepth hown) fun result _ hrest =>
    alike_bind (commandEnd_alike hends hrest) fun _ _ hbehind => alike_pure result hbehind

/-- A command of a line is a simple one. -/
theorem command_alike (more : List Token) (hends : LineEnds final newline) {depth depth' : Nat}
    (hdepth : depth ≤ depth') {token : Token} (hown : Inline (token :: own)) :
    ∃ outcome outcome', command depth (token :: (own ++ [final])) = ([], outcome) ∧
      command depth' (token :: (own ++ newline :: more)) = ([], outcome') ∧
      outcome.Alike final newline more outcome' := by
  have hinline := hown token List.mem_cons_self
  have hif : token.kind ≠ .ifKeyword := fun hkind => by simp [hkind] at hinline
  have hwhile : token.kind ≠ .whileKeyword := fun hkind => by simp [hkind] at hinline
  match depth, depth', hdepth with
  | 0, 0, _ => exact ⟨_, _, rfl, rfl, .exhausted _⟩
  | 0, depth' + 1, _ => exact ⟨_, _, rfl, command_simple hif hwhile, .exhausted _⟩
  | depth + 1, depth' + 1, hdepth =>
    exact ⟨_, _, command_simple hif hwhile, command_simple hif hwhile,
      simple_alike hends (Nat.le_of_succ_le_succ hdepth) hown⟩

/-- Behind a faulty command reading goes on within the line, or else at the end and with the next
line. -/
theorem resume_line (more : List Token) (hends : LineEnds final newline) (hown : Inline own) :
    (∃ rest, rest <:+ own ∧ Report.resume 0 (own ++ [final]) = rest ++ [final] ∧
      Report.resume 0 (own ++ newline :: more) = rest ++ newline :: more) ∨
    (Report.resume 0 (own ++ [final]) = [final] ∧
      Report.resume 0 (own ++ newline :: more) = more) := by
  induction own with
  | nil =>
    right
    simp [Report.resume, hends.isEnd, hends.isNewline]
  | cons token own ih =>
    have hinline := hown token List.mem_cons_self
    have hskipped : (∃ rest, rest <:+ token :: own ∧
        Report.resume 0 (own ++ [final]) = rest ++ [final] ∧
        Report.resume 0 (own ++ newline :: more) = rest ++ newline :: more) ∨
        (Report.resume 0 (own ++ [final]) = [final] ∧
          Report.resume 0 (own ++ newline :: more) = more) := by
      rcases ih hown.tail with ⟨rest, hrest, hleft⟩ | hnone
      · exact .inl ⟨rest, hrest.trans (List.suffix_cons token own), hleft⟩
      · exact .inr hnone
    rw [List.cons_append, List.cons_append, Report.resume, Report.resume]
    generalize token.kind = kind at hinline
    cases kind with
    | rightBrace => exact .inl ⟨token :: own, List.suffix_refl _, rfl, rfl⟩
    | semicolon => exact .inl ⟨own, List.suffix_cons token own, rfl, rfl⟩
    | newline | eof | leftBrace => exact absurd hinline (by decide)
    | _ => exact hskipped

end Parse

/-! ## The places of the messages -/

/-- The places of the messages about a script, of which there are none if it parses. -/
def Parsed.places? : Parsed → Option (List Position)
  | .script _ => some []
  | .errors found => some (found.map (·.position))
  | .endless => none

def Parsed.messages : Parsed → List SyntaxError
  | .errors found => found
  | _ => []

theorem Parsed.places?_moved (move : Position → Position) (parsed : Parsed) :
    (parsed.moved move).places? = parsed.places?.map (List.map move) := by
  cases parsed with
  | script | endless => rfl
  | errors found => simp [Parsed.moved, places?, SyntaxError.moved, Function.comp_def]

/-- Messages that were recorded before come first. -/
theorem Parsed.places?_recorded (errors : List SyntaxError)
    (result : List SyntaxError × Outcome Script) :
    (ofReport (errors ++ result.1, result.2)).places? =
      (ofReport result).places?.map (errors.map (·.position) ++ ·) := by
  obtain ⟨more, outcome⟩ := result
  cases outcome with
  | done commands rest => cases errors <;> cases more <;> simp [ofReport, places?]
  | failed error rest => cases errors <;> cases more <;> simp [ofReport, places?]
  | exhausted => cases errors <;> cases more <;> rfl

namespace Parse

open Report Grammar

/-- The places of the messages about the commands of a script, if the depth suffices. -/
def places? (depth : Nat) (tokens : List Token) : Option (List Position) :=
  (Parsed.ofReport (scriptCommands depth tokens)).places?

theorem places?_terminators {ends : List Token} (hends : Terminators ends) (depth : Nat)
    (rest : List Token) : places? depth (ends ++ rest) = places? depth rest := by
  rw [places?, scriptCommands_terminators hends, places?]

theorem places?_end {final : Token} (hfinal : final.kind = .eof) (depth : Nat)
    (rest : List Token) : places? (depth + 1) (final :: rest) = some [] := by
  have hstays : (final :: rest).dropWhile (·.kind.isTerminator) = final :: rest :=
    List.dropWhile_cons_of_neg (by simp [hfinal, TokenKind.isTerminator])
  rw [places?, scriptCommands, Report.skipTerminators_bind, hstays, Report.peek_bind,
    nextToken_cons, hfinal]
  rfl

theorem eq_nil_of_places?_end {final : Token} (hfinal : final.kind = .eof) {depth : Nat}
    {rest : List Token} {places : List Position}
    (hplaces : places? depth (final :: rest) = some places) : places = [] := by
  cases depth with
  | zero => cases hplaces
  | succ depth => simpa [places?_end hfinal] using hplaces.symm

/-- Every brace that nothing opened is reported. -/
theorem places?_brace {token : Token} (hbrace : token.kind = .rightBrace) (depth : Nat)
    (rest : List Token) :
    places? (depth + 1) (token :: rest) = (places? depth rest).map (token.position :: ·) := by
  have hstays : (token :: rest).dropWhile (·.kind.isTerminator) = token :: rest :=
    List.dropWhile_cons_of_neg (by simp [hbrace, TokenKind.isTerminator])
  rw [places?, scriptCommands, Report.skipTerminators_bind, hstays, Report.peek_bind,
    nextToken_cons, hbrace]
  exact Parsed.places?_recorded [.about "Unexpected `\x7d`" token] (scriptCommands depth rest)

/-- A script that begins with a command attempts it first. -/
theorem scriptCommands_begins {token : Token} (hbegins : Begins token.kind) (depth : Nat)
    (rest : List Token) :
    scriptCommands (depth + 1) (token :: rest) =
      attempted depth (fun first => (first :: ·) <$> scriptCommands depth) (scriptCommands depth)
        (token :: rest) := by
  obtain ⟨hterminator, hbrace, heof⟩ := hbegins
  have hstays : (token :: rest).dropWhile (·.kind.isTerminator) = token :: rest :=
    List.dropWhile_cons_of_neg (by simp [hterminator])
  rw [scriptCommands, Report.skipTerminators_bind, hstays, Report.peek_bind, nextToken_cons]
  generalize token.kind = kind at hbrace heof
  cases kind with
  | eof => exact absurd rfl heof
  | rightBrace => exact absurd rfl hbrace
  | _ => rfl

theorem places?_done {token : Token} (hbegins : Begins token.kind) {depth : Nat}
    {rest left : List Token} {first : Command}
    (hcommand : command depth (token :: rest) = ([], .done first left)) :
    places? (depth + 1) (token :: rest) = places? depth left := by
  rw [places?, scriptCommands_begins hbegins, attempted_of_done hcommand, List.nil_append]
  change (Parsed.ofReport ((([first] ++ ·) <$> scriptCommands depth) left)).places? = _
  rw [Parsed.ofReport_append, places?]
  cases Parsed.ofReport (scriptCommands depth left) <;> rfl

theorem places?_failed {token : Token} (hbegins : Begins token.kind) {depth : Nat}
    {rest left : List Token} {error : SyntaxError}
    (hcommand : command depth (token :: rest) = ([], .failed error left)) :
    places? (depth + 1) (token :: rest) =
      (places? depth (resume 0 left)).map (error.position :: ·) := by
  rw [places?, scriptCommands_begins hbegins, attempted_of_failed hcommand]
  exact Parsed.places?_recorded [error] _

theorem places?_exhausted {token : Token} (hbegins : Begins token.kind) {depth : Nat}
    {rest : List Token} (hcommand : command depth (token :: rest) = ([], .exhausted)) :
    places? (depth + 1) (token :: rest) = none := by
  rw [places?, scriptCommands_begins hbegins, attempted_of_exhausted hcommand]
  rfl

/-- A token that begins a command is taken or skipped, whether or not the command is faulty. -/
theorem command_taken {token : Token} (hbegins : Begins token.kind) {depth : Nat}
    {rest left : List Token} {errors : List SyntaxError} :
    (∀ first, command depth (token :: rest) = (errors, .done first left) →
      left.length ≤ rest.length) ∧
    ∀ error, command depth (token :: rest) = (errors, .failed error left) →
      (resume 0 left).length ≤ rest.length := by
  have hcovers : Shift.still.Covers (token :: rest) := trivial
  have hcarried := command_carries depth le_rfl hcovers
  unfold CarriesCommand at hcarried
  generalize command depth (Shift.still.moved (token :: rest)) = moved at hcarried
  refine ⟨fun first hdone => ?_, fun error hfailed => ?_⟩
  · rw [hdone] at hcarried
    cases hcarried with
    | done _ _ halong =>
      have hless := halong.2
      rw [List.length_cons] at hless
      omega
  · rw [hfailed] at hcarried
    cases hcarried with
    | failed _ _ _ hfails =>
      rcases hfails with hless | ⟨-, rfl⟩
      · have hskipped := (resume_suffix 0 left).length_le
        rw [Within, List.length_cons] at hless
        omega
      · exact Nat.le_of_lt_succ (resume_length_lt hbegins)

/-- Reading comes to more lines with so much of its depth spent at most, and the messages before
those about these lines are at the places. -/
def ComesTo (more : List Token) (depth spent : Nat) (tokens : List Token)
    (places : List Position) : Prop :=
  ∃ less, depth ≤ less + spent ∧ places? depth tokens = (places? less more).map (places ++ ·)

namespace ComesTo

variable {more tokens tokens' : List Token} {depth spent spent' : Nat} {places : List Position}

theorem mono (hcomes : ComesTo more depth spent tokens places) (hspent : spent ≤ spent') :
    ComesTo more depth spent' tokens places := by
  obtain ⟨less, henough, hplaces⟩ := hcomes
  exact ⟨less, by omega, hplaces⟩

theorem terminators (hcomes : ComesTo more depth spent tokens places) {ends : List Token}
    (hends : Terminators ends) : ComesTo more depth spent (ends ++ tokens) places := by
  obtain ⟨less, henough, hplaces⟩ := hcomes
  exact ⟨less, henough, (places?_terminators hends depth tokens).trans hplaces⟩

theorem silent (hcomes : ComesTo more depth spent tokens places)
    (hsame : places? (depth + 1) tokens' = places? depth tokens) :
    ComesTo more (depth + 1) (spent + 1) tokens' places := by
  obtain ⟨less, henough, hplaces⟩ := hcomes
  exact ⟨less, by omega, hsame.trans hplaces⟩

theorem recorded (hcomes : ComesTo more depth spent tokens places) {place : Position}
    (hfirst : places? (depth + 1) tokens' = (places? depth tokens).map (place :: ·)) :
    ComesTo more (depth + 1) (spent + 1) tokens' (place :: places) := by
  obtain ⟨less, henough, hplaces⟩ := hcomes
  refine ⟨less, by omega, ?_⟩
  rw [hfirst, hplaces, Option.map_map]
  rfl

end ComesTo

theorem comesTo_refl (more : List Token) (depth : Nat) : ComesTo more depth 0 more [] :=
  ⟨depth, le_rfl, by simp⟩

section

-- `hshorter` is what the induction on the depth gives for the rest of a line behind its first token
variable {more : List Token} {final newline : Token} (hends : LineEnds final newline)
  {depth depth' length : Nat}
  (hshorter : ∀ {left : List Token} {others : List Position}, Inline left →
    left.length ≤ length → places? depth (left ++ [final]) = some others →
      ComesTo more depth' length (left ++ newline :: more) others)

include hends hshorter

/-- Behind a faulty command reading goes on within the line, or with the lines below. -/
theorem comesTo_resume {left : List Token} (hleft : Inline left) {others : List Position}
    (hlength : (resume 0 (left ++ [final])).length ≤ length + 1)
    (hothers : places? depth (resume 0 (left ++ [final])) = some others) :
    ComesTo more depth' length (resume 0 (left ++ newline :: more)) others := by
  rcases resume_line more hends hleft with ⟨behind, hbehind, halone, hjoined⟩ | ⟨halone, hjoined⟩
  · rw [halone] at hothers hlength
    rw [hjoined]
    exact hshorter (hleft.of_suffix hbehind) (by simpa using hlength) hothers
  · rw [halone] at hothers
    rw [hjoined, eq_nil_of_places?_end hends.isEnd hothers]
    exact (comesTo_refl more depth').mono (Nat.zero_le _)

/-- The first command of a line, and what is left of the line behind it. -/
theorem comesTo_command {token : Token} {rest : List Token} (hless : depth ≤ depth')
    (hown : Inline (token :: rest)) (hbegins : Begins token.kind) {places : List Position}
    (halone : places? (depth + 1) (token :: (rest ++ [final])) = some places)
    (hlength : rest.length = length) :
    ComesTo more (depth' + 1) (length + 1) (token :: (rest ++ newline :: more)) places := by
  obtain ⟨outcome, outcome', hcommand, hcommand', halike⟩ := command_alike more hends hless hown
  cases halike with
  | @done first left hleft =>
    rw [places?_done hbegins hcommand] at halone
    have htaken := (command_taken hbegins).1 first hcommand
    exact (hshorter hleft (by simpa [hlength] using htaken) halone).silent
      (places?_done hbegins hcommand')
  | @failed error error' left hleft hposition =>
    rw [places?_failed hbegins hcommand] at halone
    obtain ⟨others, hothers, rfl⟩ := Option.map_eq_some_iff.1 halone
    have htaken := (command_taken hbegins).2 error hcommand
    have hbelow := places?_failed hbegins hcommand'
    rw [hposition] at hbelow
    exact (comesTo_resume hends hshorter hleft (by simpa [hlength] using htaken) hothers).recorded
      hbelow
  | exhausted =>
    rw [places?_exhausted hbegins hcommand] at halone
    cases halone

end

/-- **One line.**  Above more lines, the messages about a line are at the places where they are if
it is parsed alone, and the messages about the lines below follow them. -/
theorem comesTo_line (more : List Token) {final newline : Token} (hends : LineEnds final newline)
    {depth depth' : Nat} (hdepth : depth ≤ depth') {own : List Token} (hown : Inline own)
    {places : List Position} (halone : places? depth (own ++ [final]) = some places) :
    ComesTo more depth' own.length (own ++ newline :: more) places := by
  induction depth generalizing depth' own places with
  | zero => cases halone
  | succ depth ih =>
    obtain ⟨depth', rfl⟩ := Nat.exists_eq_add_one_of_ne_zero (show depth' ≠ 0 by omega)
    have hless := Nat.le_of_succ_le_succ hdepth
    have hinside := isTerminator_dropWhile own
    obtain ⟨ends, hterminators, hsplit⟩ := exists_terminators own
    generalize own.dropWhile (·.kind.isTerminator) = inside at hinside hsplit
    subst hsplit
    have hown : Inline inside := hown.of_suffix (List.suffix_append ends inside)
    suffices hcomes : ComesTo more (depth' + 1) inside.length (inside ++ newline :: more) places by
      rw [List.append_assoc]
      exact (hcomes.terminators hterminators).mono (by simp)
    rw [List.append_assoc, places?_terminators hterminators] at halone
    cases inside with
    | nil =>
      obtain rfl := eq_nil_of_places?_end hends.isEnd halone
      have hline : Terminators [newline] := by
        simp [Terminators, hends.isNewline, TokenKind.isTerminator]
      exact (comesTo_refl more (depth' + 1)).terminators hline
    | cons token rest =>
      have hshorter {left : List Token} {others : List Position} (hleft : Inline left)
          (hlength : left.length ≤ rest.length)
          (hothers : places? depth (left ++ [final]) = some others) :
          ComesTo more depth' rest.length (left ++ newline :: more) others :=
        (ih hless hleft hothers).mono hlength
      by_cases hbrace : token.kind = .rightBrace
      · rw [List.cons_append, places?_brace hbrace] at halone
        obtain ⟨others, hothers, rfl⟩ := Option.map_eq_some_iff.1 halone
        exact (hshorter hown.tail le_rfl hothers).recorded (places?_brace hbrace _ _)
      · have hinline := hown token List.mem_cons_self
        have hbegins : Begins token.kind :=
          ⟨hinside, hbrace, fun heof => by simp [heof] at hinline⟩
        exact comesTo_command hends hshorter hless hown hbegins halone rfl

end Parse

/-! ## Texts of several lines -/

open Scan

theorem exists_places? (tokens : List Token) :
    ∃ places, (parseTokens tokens).places? = some places := by
  rcases parseTokens_cases tokens with ⟨commands, hscript⟩ | ⟨errors, herrors, -⟩
  · exact ⟨_, by rw [hscript]; rfl⟩
  · exact ⟨_, by rw [herrors]; rfl⟩

theorem Parsed.eq_of_places? {parsed : Parsed} {places : List Position}
    (hplaces : parsed.places? = some places) : places = parsed.messages.map (·.position) := by
  cases parsed with
  | script | errors => exact (Option.some.inj hplaces).symm
  | endless => cases hplaces

/-- A text parses if there are no places of messages, and has messages at these places otherwise. -/
theorem parse_of_places? {source : String} {places : List Position}
    (hplaces : (parse source).places? = some places) :
    ((∃ commands, parse source = .script commands) ↔ places = []) ∧
      (places ≠ [] →
        ∃ errors, parse source = .errors errors ∧ errors.map (·.position) = places) := by
  cases hparse : parse source with
  | script commands =>
    rw [hparse] at hplaces
    obtain rfl := Option.some.inj hplaces
    exact ⟨⟨fun _ => rfl, fun _ => ⟨commands, rfl⟩⟩, fun hne => absurd rfl hne⟩
  | errors found =>
    rw [hparse] at hplaces
    obtain rfl := Option.some.inj hplaces
    refine ⟨⟨fun hscript => ?_, fun hnil => ?_⟩, fun _ => ⟨found, rfl, rfl⟩⟩
    · obtain ⟨commands, hscript⟩ := hscript
      cases hscript
    · obtain ⟨tokens, htokens, herrors⟩ : ∃ tokens, tokens? source = some tokens ∧
          parseTokens tokens = .errors found := by
        unfold parse at hparse
        split at hparse
        · next tokens htokens => exact ⟨tokens, htokens, hparse⟩
        · cases hparse
      obtain ⟨own, final, rfl, hfinal, -⟩ := Cursor.tokens?_eq_append_eof htokens rfl
      exact absurd (List.map_eq_nil_iff.mp hnil)
        (parseTokens_passing (closed_append_eof own hfinal) herrors).1
  | endless =>
    rw [hparse] at hplaces
    cases hplaces

/-- The messages about a line and about moved tokens below it. -/
theorem parseTokens_line {own tokens : List Token} {final newline : Token}
    (hends : LineEnds final newline) (hown : Inline own) (htokens : Closed tokens)
    (move : Position → Position) {above below : List Position}
    (habove : (parseTokens (own ++ [final])).places? = some above)
    (hbelow : (parseTokens tokens).places? = some below) :
    (parseTokens (own ++ newline :: tokens.map (Token.moved move))).places? =
      some (above ++ below.map move) := by
  have hdepth : Parse.depthFor (own ++ [final]) ≤
      Parse.depthFor (own ++ newline :: tokens.map (Token.moved move)) := by
    simp only [Parse.depthFor, List.length_append, List.length_cons, List.length_nil]
    omega
  obtain ⟨less, hless, hline⟩ :=
    Parse.comesTo_line (tokens.map (Token.moved move)) hends hdepth hown habove
  have henough : Parse.depthFor tokens ≤ less := by
    simp only [Parse.depthFor, List.length_append, List.length_cons, List.length_map] at hless ⊢
    omega
  calc (parseTokens (own ++ newline :: tokens.map (Token.moved move))).places?
      = (Parse.places? less (tokens.map (Token.moved move))).map (above ++ ·) := hline
    _ = ((parseTokens tokens).moved move).places?.map (above ++ ·) := by
        rw [Parse.places?, Parse.scriptCommands_moved htokens henough]
    _ = some (above ++ below.map move) := by
        rw [Parsed.places?_moved, hbelow]
        rfl

/-- A text with the token of a newline has a newline. -/
theorem newline_mem_of_token {source : String} {tokens : List Token}
    (htokens : tokens? source = some tokens) {token : Token} (hmem : token ∈ tokens)
    (hkind : token.kind = .newline) : '\n' ∈ source.toList := by
  obtain ⟨tiles, -, hlaid, rfl, htext⟩ := tokens?_settled htokens
  obtain ⟨tile, htile, rfl⟩ := List.mem_map.1 hmem
  obtain ⟨left, right, rfl⟩ := List.append_of_mem htile
  have hreads := (hlaid left tile right rfl).reads
  have hlexeme : tile.token.lexeme = ['\n'] := by
    rw [Token.lexeme, lexemeOf_verbatim (by simp [hkind]) (by simp [hkind])]
    rw [hkind] at hreads
    generalize tile.token.text.toList = text at hreads
    cases hreads with
    | keyword hkeyword => exact absurd hkeyword (by decide)
    | symbol => rfl
  rw [htext, Tile.textOf_append, Tile.textOf_cons, hlexeme]
  simp

/-- The line holds no newline and its token stream ends; no string or comment is left open in it,
and nothing begins in it that can go on below. -/
structure SelfContained (line : String) : Prop where
  newline : '\n' ∉ line.toList
  tokens : ∃ tokens, tokens? line = some tokens ∧ ∀ token ∈ tokens, token.kind ∉
    [.error .unterminatedString, .error .unterminatedComment, .leftParen, .leftBracket, .leftBrace,
      .ifKeyword, .whileKeyword]

/-- The tokens of a line that stands by itself, without one that runs on. -/
theorem SelfContained.inline {line : String} (hline : SelfContained line) :
    ∃ own final, tokens? line = some (own ++ [final]) ∧ final.kind = .eof ∧ Inline own ∧
      ∀ token ∈ own, ¬ Unbounded token.kind := by
  obtain ⟨tokens, htokens, hkinds⟩ := hline.tokens
  obtain ⟨own, final, rfl, hfinal, hown⟩ := Cursor.tokens?_eq_append_eof htokens rfl
  have hkind {token : Token} (hmem : token ∈ own) := hkinds token (List.mem_append_left _ hmem)
  refine ⟨own, final, htokens, hfinal, fun token hmem hgoesOver => ?_, fun token hmem hopen => ?_⟩
  · have hnewline : token.kind ≠ .newline := fun hnewline =>
      hline.newline (newline_mem_of_token htokens (List.mem_append_left _ hmem) hnewline)
    have hinline := hkind hmem
    have heof := hown token hmem
    simp only [List.mem_cons, List.not_mem_nil, or_false, not_or] at hgoesOver hinline
    tauto
  · have hinline := hkind hmem
    have heof := hown token hmem
    simp only [Unbounded, List.mem_cons, List.not_mem_nil, or_false, not_or] at hopen hinline
    tauto

/-- The places of the messages about the lines, so many lines further down. -/
def placesOfLines (lines : List String) : List Position :=
  lines.zipIdx.flatMap fun (line, above) =>
    (parse line).messages.map fun error => error.position.down above

/-- The places in a first line, and those of the others one line further down. -/
theorem placesOfLines_cons (line : String) (lines : List String) :
    placesOfLines (line :: lines) =
      (parse line).messages.map (·.position) ++ (placesOfLines lines).map (Position.down 1) := by
  have hbelow : (lines.zipIdx 1).flatMap (fun (line, above) =>
      (parse line).messages.map fun error => error.position.down above) =
        (placesOfLines lines).map (Position.down 1) := by
    rw [List.zipIdx_succ, List.flatMap_map, placesOfLines, List.map_flatMap]
    congr 1
    funext ⟨line, above⟩
    rw [List.map_map]
    rfl
  rw [placesOfLines, List.zipIdx_cons, List.flatMap_cons]
  exact congrArg (_ ++ ·) hbelow

/-- Lines that contain all that begins in them have their messages at the places of their own. -/
theorem places?_lines {lines : List String} (hlines : ∀ line ∈ lines, SelfContained line) :
    ∃ tokens, tokens? ("\n".intercalate lines) = some tokens ∧
      (parseTokens tokens).places? = some (placesOfLines lines) := by
  induction lines with
  | nil =>
    have htokens : tokens? "" = some [⟨.eof, "", ⟨1, 1⟩⟩] :=
      tokens?_of_firstTokens rfl
    exact ⟨_, htokens, rfl⟩
  | cons line lines ih =>
    obtain ⟨hline, hbelow⟩ := List.forall_mem_cons.1 hlines
    obtain ⟨own, final, hown, hfinal, hinline, hbounded⟩ := hline.inline
    obtain ⟨above, habove⟩ := exists_places? (own ++ [final])
    have hparse : parse line = parseTokens (own ++ [final]) := by rw [parse, hown]
    have hplaces : above = (parse line).messages.map (·.position) := by
      rw [hparse]
      exact Parsed.eq_of_places? habove
    rw [placesOfLines_cons, ← hplaces]
    cases lines with
    | nil =>
      have htext : "\n".intercalate [line] = line := by
        rw [← String.toList_inj]
        simp
      refine ⟨own ++ [final], htext.symm ▸ hown, ?_⟩
      rw [habove]
      exact congrArg some (List.append_nil above).symm
    | cons next rest =>
      obtain ⟨tokens, htokens, hmore⟩ := ih hbelow
      obtain ⟨before, last, rfl, hlast, -⟩ := Cursor.tokens?_eq_append_eof htokens rfl
      obtain ⟨newline, hnewline, hplace, hjoined⟩ := tokens?_above hown hbounded hfinal htokens
      have htext : "\n".intercalate (line :: next :: rest) =
          line ++ "\n" ++ "\n".intercalate (next :: rest) := by
        rw [← String.toList_inj]
        simp [String.toList_intercalate]
      have hcount : line.toList.count '\n' = 0 := List.count_eq_zero.2 hline.newline
      rw [hcount] at hjoined
      refine ⟨_, htext.symm ▸ hjoined, ?_⟩
      exact parseTokens_line ⟨hfinal, hnewline, hplace⟩ hinline (closed_append_eof before hlast) _
        habove hmore

/-- No messages about the lines are no messages about any of them. -/
theorem placesOfLines_eq_nil_iff {lines : List String}
    (hlines : ∀ line ∈ lines, SelfContained line) :
    placesOfLines lines = [] ↔ ∀ line ∈ lines, ∃ commands, parse line = .script commands := by
  induction lines with
  | nil => exact iff_of_true rfl fun _ hline => nomatch hline
  | cons line lines ih =>
    obtain ⟨hline, hbelow⟩ := List.forall_mem_cons.1 hlines
    obtain ⟨own, final, hown, -⟩ := hline.inline
    obtain ⟨places, hplaces⟩ := exists_places? (own ++ [final])
    have hparse : (parse line).places? = some places := by rw [parse, hown, hplaces]
    rw [placesOfLines_cons, List.append_eq_nil_iff, List.map_eq_nil_iff (l := placesOfLines lines),
      ih hbelow, List.forall_mem_cons, ← Parsed.eq_of_places? hparse, (parse_of_places? hparse).1]

/-- **Faults in one line neither hide nor invent faults in another.**  Lines without newlines whose
token streams end, without open strings and comments, and without opening brackets, `if` and
`while`, parse together exactly if each of them parses.  If not, the messages about them are at the
places where the messages about each line are, so many lines further down. -/
theorem parse_separate_lines {lines : List String}
    (hlines : ∀ line ∈ lines, SelfContained line) :
    ((∃ commands, parse ("\n".intercalate lines) = .script commands) ↔
      ∀ line ∈ lines, ∃ commands, parse line = .script commands) ∧
    ((¬ ∀ line ∈ lines, ∃ commands, parse line = .script commands) →
      ∃ errors, parse ("\n".intercalate lines) = .errors errors ∧
        errors.map (·.position) = lines.zipIdx.flatMap fun (line, above) =>
          (parse line).messages.map fun error => error.position.down above) := by
  obtain ⟨tokens, htokens, hplaces⟩ := places?_lines hlines
  have hjoined : (parse ("\n".intercalate lines)).places? = some (placesOfLines lines) := by
    rw [parse, htokens]
    exact hplaces
  obtain ⟨hscript, herrors⟩ := parse_of_places? hjoined
  have hnone := placesOfLines_eq_nil_iff hlines
  exact ⟨hscript.trans hnone, fun hfaulty => herrors fun hnil => hfaulty (hnone.1 hnil)⟩

/-- Two variables side by side before a brace that nothing opened, no value behind a colon, and a
line without a fault. -/
def brokenLines : List String := ["$a $b; \x7d", "x:", "$c"]

theorem brokenLines_tokens :
    tokens? "$a $b; \x7d" = some [⟨.variableName, "$a", ⟨1, 1⟩⟩, ⟨.variableName, "$b", ⟨1, 4⟩⟩,
      ⟨.semicolon, ";", ⟨1, 6⟩⟩, ⟨.rightBrace, "\x7d", ⟨1, 8⟩⟩, ⟨.eof, "", ⟨1, 9⟩⟩] ∧
    tokens? "x:" = some [⟨.identifier, "x", ⟨1, 1⟩⟩, ⟨.colon, ":", ⟨1, 2⟩⟩, ⟨.eof, "", ⟨1, 3⟩⟩] ∧
    tokens? "$c" = some [⟨.variableName, "$c", ⟨1, 1⟩⟩, ⟨.eof, "", ⟨1, 3⟩⟩] := by
  refine ⟨?_, ?_, ?_⟩
  · exact tokens?_of_firstTokens rfl
  · exact tokens?_of_firstTokens rfl
  · exact tokens?_of_firstTokens rfl

theorem brokenLines_selfContained : ∀ line ∈ brokenLines, SelfContained line := by
  obtain ⟨hfirst, hsecond, hthird⟩ := brokenLines_tokens
  simp only [brokenLines, List.forall_mem_cons, List.not_mem_nil, false_imp_iff, implies_true,
    and_true]
  exact ⟨⟨by simp, _, hfirst, by simp⟩, ⟨by simp, _, hsecond, by simp⟩,
    ⟨by simp, _, hthird, by simp⟩⟩

theorem brokenLines_messages :
    (parse "$a $b; \x7d").messages.map (·.position) = [⟨1, 4⟩, ⟨1, 8⟩] ∧
      (parse "x:").messages.map (·.position) = [⟨1, 3⟩] ∧
      (parse "$c").messages.map (·.position) = [] := by
  obtain ⟨hfirst, hsecond, hthird⟩ := brokenLines_tokens
  rw [parse, hfirst, parse, hsecond, parse, hthird]
  exact ⟨rfl, rfl, rfl⟩

/-- Two faulty lines and one without a fault: the places add up. -/
theorem parse_separate_lines_brokenLines :
    (∀ line ∈ brokenLines, SelfContained line) ∧
      (¬ ∀ line ∈ brokenLines, ∃ commands, parse line = .script commands) ∧
      ∃ errors, parse ("\n".intercalate brokenLines) = .errors errors ∧
        errors.map (·.position) = [⟨1, 4⟩, ⟨1, 8⟩, ⟨2, 3⟩] := by
  obtain ⟨hfirst, hsecond, hthird⟩ := brokenLines_messages
  have hfaulty : ¬ ∀ line ∈ brokenLines, ∃ commands, parse line = .script commands := by
    intro hscripts
    obtain ⟨commands, hscript⟩ := hscripts "x:" (by simp [brokenLines])
    rw [hscript] at hsecond
    cases hsecond
  obtain ⟨errors, herrors, hplaces⟩ :=
    (parse_separate_lines brokenLines_selfContained).2 hfaulty
  refine ⟨brokenLines_selfContained, hfaulty, errors, herrors, hplaces.trans ?_⟩
  change placesOfLines brokenLines = _
  rw [brokenLines, placesOfLines_cons, placesOfLines_cons, placesOfLines_cons, hfirst, hsecond,
    hthird]
  rfl

end MetricScript
