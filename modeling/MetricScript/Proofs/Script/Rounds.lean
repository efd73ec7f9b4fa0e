import MetricScript.Proofs.Script.Reading

/-!
# The rounds of the parser

A loop of the parser goes round by round: a round leaves the loop with a result or asks for
another round.  Each function that reads a repetition is the unrolling of such rounds, so what
holds of one round, whatever follows it, holds of the loop.
-/

namespace MetricScript

variable {α β : Type}

/-! ## Chains of phrases and of reports -/

instance : LawfulMonad Phrase := LawfulMonad.mk' Phrase
  (fun phrase => by
    funext tokens
    simp only [Functor.map, Function.comp]
    cases phrase tokens <;> rfl)
  (fun _ _ => rfl)
  (fun phrase next last => by
    funext tokens
    simp only [bind]
    cases phrase tokens <;> rfl)

instance : LawfulMonad Report := LawfulMonad.mk' Report
  (fun report => by
    funext tokens
    simp only [Functor.map, Function.comp]
    rcases report tokens with ⟨errors, value | error | _⟩
    · exact congrArg (·, _) (List.append_nil errors)
    · rfl
    · rfl)
  (fun _ _ => rfl)
  (fun report next last => by
    funext tokens
    simp only [bind]
    rcases report tokens with ⟨errors, ⟨value, rest⟩ | error | _⟩
    · dsimp only
      rcases next value rest with ⟨more, ⟨result, final⟩ | error | _⟩
      · exact congrArg (·, _) (List.append_assoc ..)
      · rfl
      · rfl
    · rfl
    · rfl)

/-- A chain of phrases is a phrase. -/
theorem Report.lift_bind (phrase : Phrase β) (next : β → Phrase α) :
    (liftM (phrase >>= next) : Report α) =
      (liftM phrase : Report β) >>= fun value => (liftM (next value) : Report α) := by
  funext tokens
  have hlift : (liftM phrase : Report β) tokens = ([], phrase tokens) := rfl
  change ([], (phrase >>= next) tokens) = _
  simp only [bind, hlift]
  cases phrase tokens <;> rfl

/-! ## Commands -/

namespace Parse

open Phrase Report

/-- A simple command and what must follow it. -/
def simple (depth : Nat) : Phrase Command := do
  let result ← simpleCommand depth
  commandEnd
  pure result

/-- Without `if` or `while` in front, a command is a simple one and what ends it. -/
theorem command_simple {depth : Nat} {tokens : List Token}
    (hif : (nextToken tokens).kind ≠ .ifKeyword)
    (hwhile : (nextToken tokens).kind ≠ .whileKeyword) :
    command (depth + 1) tokens = ([], simple depth tokens) := by
  have hlift : (liftM (simple depth) : Report Command) = (do
      let result ← simpleCommand depth
      commandEnd
      pure result) := by
    rw [simple, lift_bind]
    congr 1
    funext result
    rw [lift_bind]
    rfl
  rw [command, Report.peek_bind]
  generalize (nextToken tokens).kind = kind at hif hwhile
  split
  · exact absurd rfl hif
  · exact absurd rfl hwhile
  · exact (congrFun hlift tokens).symm

/-- A command is tried; behind a faulty one the tokens are skipped up to its end. -/
def attempted (depth : Nat) (onCommand : Command → Report β) (onFailure : Report β) : Report β := do
  match ← attempt (command depth) with
  | some first => onCommand first
  | none =>
      synchronize
      onFailure

/-- Behind a command that was read the parser goes on as after a command. -/
theorem attempted_of_done {depth : Nat} {tokens rest : List Token} {errors : List SyntaxError}
    {first : Command} (hdone : command depth tokens = (errors, .done first rest))
    (onCommand : Command → Report β) (onFailure : Report β) :
    attempted depth onCommand onFailure tokens =
      (errors ++ (onCommand first rest).1, (onCommand first rest).2) := by
  simp only [attempted, bind, attempt, hdone]

/-- Behind a command that failed the parser goes on where it can resume. -/
theorem attempted_of_failed {depth : Nat} {tokens rest : List Token} {errors : List SyntaxError}
    {error : SyntaxError} (hfailed : command depth tokens = (errors, .failed error rest))
    (onCommand : Command → Report β) (onFailure : Report β) :
    attempted depth onCommand onFailure tokens =
      (errors ++ [error] ++ (onFailure (resume 0 rest)).1, (onFailure (resume 0 rest)).2) := by
  simp only [attempted, bind, attempt, hfailed]
  rfl

theorem attempted_of_exhausted {depth : Nat} {tokens : List Token} {errors : List SyntaxError}
    (hexhausted : command depth tokens = (errors, .exhausted))
    (onCommand : Command → Report β) (onFailure : Report β) :
    attempted depth onCommand onFailure tokens = (errors, .exhausted) := by
  simp only [attempted, bind, attempt, hexhausted]

end Parse

/-! ## Rounds -/

section

variable {State Result : Type}

/-- How a round of a loop ends.  The loop is left with a result, or there is another round from
the next state, and what the loop comes to from there is finished. -/
inductive Turn (State Result : Type) where
  | again (next : State) (finish : Result → Result)
  | leave (result : Result)

/-- What a loop does after a round, if `loop` is what it does from a state. -/
def Turn.follow {m : Type → Type} [Monad m] (loop : State → m Result) :
    Turn State Result → m Result
  | .again next finish => finish <$> loop next
  | .leave result => pure result

end

namespace Parse

open Phrase

def scriptRound (depth : Nat) : Report (Turn Unit Script) := do
  skipTerminators
  let token ← peek
  match token.kind with
  | .eof => pure (.leave [])
  | .rightBrace =>
      advance
      Report.record (.about "Unexpected `\x7d`" token)
      pure (.again () id)
  | _ => attempted depth (fun first => pure (.again () (first :: ·))) (pure (.again () id))

def blockRound (depth : Nat) : Report (Turn Unit (List Command)) := do
  skipTerminators
  let token ← peek
  match token.kind with
  | .rightBrace =>
      advance
      pure (.leave [])
  | .eof => (unexpected token "Expected `\x7d`" : Phrase (Turn Unit (List Command)))
  | _ => attempted depth (fun first => pure (.again () (first :: ·))) (pure (.again () id))

/-- Skips the tokens behind a faulty command, inside the given number of open braces. -/
def recovery (braces : Nat) : Phrase Unit := fun tokens =>
  .done () (Report.resume braces tokens)

def recoveryRound (braces : Nat) : Phrase (Turn Nat Unit) := do
  let token ← peek
  match token.kind with
  | .eof => pure (.leave ())
  | .rightBrace =>
      if braces = 0 then pure (.leave ())
      else
        advance
        pure (.again (braces - 1) id)
  | .leftBrace =>
      advance
      pure (.again (braces + 1) id)
  | .newline | .semicolon =>
      advance
      pure (if braces = 0 then .leave () else .again braces id)
  | _ =>
      advance
      pure (.again braces id)

def operandRound (depth : Nat) (level : Level) (tighter : List Level) (left : Expr) :
    Phrase (Turn Expr Expr) := do
  let token ← peek
  match level.lookup token.kind with
  | none => pure (.leave left)
  | some operator =>
      advance
      let right ← binary depth tighter
      pure (.again (.binary left.position operator left right) id)

def suffixRound (depth : Nat) (target : Expr) : Phrase (Turn Expr Expr) := do
  let token ← peek
  match token.kind with
  | .dot =>
      advance
      let name ← expect .identifier "a property name"
      pure (.again (.property target.position target name.text) id)
  | .leftParen =>
      advance
      skipNewlines
      let arguments ← if ← eat .rightParen then pure [] else argumentList depth []
      pure (.again (.call target.position target arguments) id)
  | _ => pure (.leave target)

/-- The state holds the names that are used already. -/
def argumentRound (depth : Nat) (used : List String) :
    Phrase (Turn (List String) (List (Option String × Expr))) := do
  let name ← argumentName used
  let value ← expression depth
  skipNewlines
  if ← eat .comma then
    skipNewlines
    pure (.again (used ++ name.toList) ((name, value) :: ·))
  else
    let _ ← expect .rightParen "`,` or `)`"
    pure (.leave [(name, value)])

def itemRound (depth : Nat) : Phrase (Turn Unit (List Expr)) := do
  let item ← expression depth
  skipNewlines
  if ← eat .comma then
    skipNewlines
    pure (.again () (item :: ·))
  else
    let _ ← expect .rightBracket "`,` or `]`"
    pure (.leave [item])

def entryRound (depth : Nat) : Phrase (Turn Unit (List (String × Expr))) := do
  skipNewlines
  if ← eat .rightBrace then pure (.leave [])
  else
    let key ← mapKey
    let _ ← expect .colon "`:`"
    skipNewlines
    let value ← expression depth
    skipNewlines
    let _ ← eat .comma
    pure (.again () ((key, value) :: ·))

/-! ## Unrolling -/

/-- A loop of phrases unrolls as a loop of reports. -/
theorem lift_follow {State Result : Type} (round : Phrase (Turn State Result))
    (loop : State → Phrase Result) :
    (liftM (round >>= Turn.follow loop) : Report Result) =
      (liftM round : Report (Turn State Result)) >>=
        Turn.follow fun state => (liftM (loop state) : Report Result) := by
  rw [Report.lift_bind]
  refine bind_congr fun turn => ?_
  cases turn with
  | again next finish => exact Report.lift_bind (loop next) _
  | leave result => rfl

/-- Nothing follows a failure. -/
theorem unexpected_follow {State Result : Type} (token : Token) (message : String)
    (loop : State → Report Result) :
    (liftM (unexpected token message : Phrase (Turn State Result)) >>= Turn.follow loop) =
      (liftM (unexpected token message : Phrase Result) : Report Result) := by
  funext tokens
  unfold unexpected
  cases token.kind <;> rfl

/-- A command that is tried in a round is followed by the other commands. -/
theorem attempted_follow (depth : Nat) (loop : Report (List Command)) :
    (attempted depth (fun first => pure (.again () (first :: ·))) (pure (.again () id)) >>=
        Turn.follow fun _ => loop) =
      attempted depth (fun first => do
        let rest ← loop
        pure (first :: rest)) loop := by
  simp only [attempted, bind_assoc]
  refine bind_congr fun found => ?_
  cases found with
  | none => simp [Turn.follow]
  | some first => simp [Turn.follow]

/-- A script is a loop of rounds. -/
theorem scriptCommands_succ (depth : Nat) :
    scriptCommands (depth + 1) =
      scriptRound depth >>= Turn.follow fun _ => scriptCommands depth := by
  simp only [scriptCommands, scriptRound, bind_assoc]
  refine bind_congr fun _ => bind_congr fun token => ?_
  generalize token.kind = kind
  cases kind with
  | eof => rfl
  | rightBrace => simp [Turn.follow]
  | _ => exact (attempted_follow depth _).symm

theorem blockCommands_succ (depth : Nat) :
    blockCommands (depth + 1) =
      blockRound depth >>= Turn.follow fun _ => blockCommands depth := by
  simp only [blockCommands, blockRound, bind_assoc]
  refine bind_congr fun _ => bind_congr fun token => ?_
  generalize token.kind = kind
  cases kind with
  | rightBrace => rfl
  | eof => exact (unexpected_follow token _ _).symm
  | _ => exact (attempted_follow depth _).symm

/-- The recovery is a loop of rounds, one for each token. -/
theorem recovery_eq (braces : Nat) :
    recovery braces = recoveryRound braces >>= Turn.follow recovery := by
  funext tokens
  cases tokens with
  | nil => rfl
  | cons token rest =>
    rw [recovery, Report.resume, recoveryRound, bind_assoc, peek_bind, nextToken_cons]
    generalize token.kind = kind
    cases kind with
    | rightBrace | newline | semicolon =>
      rcases eq_or_ne braces 0 with rfl | hbraces
      · rfl
      · simp only [if_neg hbraces]
        rfl
    | _ => rfl

/-- The operands of a level are a loop of rounds, one for each operator. -/
theorem operands_succ (depth : Nat) (level : Level) (tighter : List Level) (left : Expr) :
    operands (depth + 1) level tighter left =
      operandRound depth level tighter left >>=
        Turn.follow (operands depth level tighter) := by
  simp only [operands, operandRound, bind_assoc]
  refine bind_congr fun token => ?_
  generalize level.lookup token.kind = found
  cases found with
  | none => rfl
  | some operator => simp [Turn.follow]

/-- Calls and properties are a loop of rounds. -/
theorem suffixes_succ (depth : Nat) (target : Expr) :
    suffixes (depth + 1) target =
      suffixRound depth target >>= Turn.follow (suffixes depth) := by
  simp only [suffixes, suffixRound, bind_assoc]
  refine bind_congr fun token => ?_
  generalize token.kind = kind
  cases kind with
  | dot => simp [Turn.follow]
  | leftParen =>
    simp only [bind_assoc]
    refine bind_congr fun _ => bind_congr fun _ => bind_congr fun closed => ?_
    cases closed with
    | false => simp [Turn.follow]
    | true => simp [Turn.follow]
  | _ => rfl

theorem argumentList_succ (depth : Nat) (used : List String) :
    argumentList (depth + 1) used =
      argumentRound depth used >>= Turn.follow (argumentList depth) := by
  simp only [argumentList, argumentRound, bind_assoc]
  refine bind_congr fun name => bind_congr fun value => bind_congr fun _ =>
    bind_congr fun more => ?_
  cases more with
  | false => simp [Turn.follow]
  | true => simp [Turn.follow]

theorem itemList_succ (depth : Nat) :
    itemList (depth + 1) = itemRound depth >>= Turn.follow fun _ => itemList depth := by
  simp only [itemList, itemRound, bind_assoc]
  refine bind_congr fun item => bind_congr fun _ => bind_congr fun more => ?_
  cases more with
  | false => simp [Turn.follow]
  | true => simp [Turn.follow]

theorem entryList_succ (depth : Nat) :
    entryList (depth + 1) = entryRound depth >>= Turn.follow fun _ => entryList depth := by
  simp only [entryList, entryRound, bind_assoc]
  refine bind_congr fun _ => bind_congr fun closed => ?_
  cases closed with
  | false => simp [Turn.follow]
  | true => rfl

end Parse

end MetricScript
