import MetricScript.Script.Token
import MetricScript.Text.Quoted

/-!
# Reading phrases off a list of tokens

A phrase is read off the front of the remaining tokens.  It is done with a value, or it
fails at some token with a message; either way the tokens after it are known, since what
follows a failure is still looked at.  Reading is bounded by a depth of recursion, and
running out of it is an outcome of its own.

A report is a phrase that may also record messages on its way and go on.
-/

namespace MetricScript

/-- A message about the form of a script, with the place and the text of the token that
it is about. -/
structure SyntaxError where
  message : String
  position : Position
  snippet : String
deriving DecidableEq

namespace SyntaxError

/-- The longest token text that is shown whole. -/
def snippetLimit : Nat := 30

/-- A message about a token; of a long token only the beginning is kept. -/
def about (message : String) (token : Token) : SyntaxError :=
  let text := token.text.toList
  let snippet :=
    if text.length > snippetLimit then
      String.ofList (text.take (snippetLimit - 1)) ++ "..."
    else token.text
  ⟨message, token.position, snippet⟩

/-- The message with its place and the quoted token. -/
def text (error : SyntaxError) : String :=
  "Parse error: " ++ error.message ++ " at line " ++ error.position.text ++
    " (" ++ Text.quote error.snippet ++ ")"

/-- The messages, one line each. -/
def joined (errors : List SyntaxError) : String :=
  "\n".intercalate (errors.map text)

end SyntaxError

/-- What comes of reading a phrase. -/
inductive Outcome (α : Type) where
  | done (value : α) (rest : List Token)
  | failed (error : SyntaxError) (rest : List Token)
  | exhausted

/-- A phrase reads a value off the front of the tokens. -/
def Phrase (α : Type) := List Token → Outcome α

namespace Phrase

instance : Monad Phrase where
  pure value := fun tokens => .done value tokens
  bind phrase continuation := fun tokens =>
    match phrase tokens with
    | .done value rest => continuation value rest
    | .failed error rest => .failed error rest
    | .exhausted => .exhausted

/-- No depth of recursion is left. -/
def exhausted {α : Type} : Phrase α := fun _ => .exhausted

/-- Fails without taking a token. -/
def fail {α : Type} (error : SyntaxError) : Phrase α := fun tokens => .failed error tokens

/-- The next token, which stays. -/
def peek : Phrase Token := fun tokens => .done (tokens.headD (.atEnd .start)) tokens

/-- The token after the next one, or the end. -/
def peekSecond : Phrase Token := fun tokens =>
  .done (tokens.tail.headD (.atEnd .start)) tokens

def advance : Phrase Unit := fun tokens => .done () tokens.tail

/-- Takes the next token if it has the kind. -/
def eat (kind : TokenKind) : Phrase Bool := do
  let token ← peek
  if token.kind = kind then
    advance
    pure true
  else pure false

/-- Fails at a token with what was expected instead; an invalid token fails with its own
reason. -/
def unexpected {α : Type} (token : Token) (message : String) : Phrase α :=
  match token.kind with
  | .error reason => fail (.about reason.message token)
  | kind => fail (.about (message ++ ", found " ++ kind.describe) token)

/-- Takes the next token, which must have the kind. -/
def expect (kind : TokenKind) (what : String) : Phrase Token := do
  let token ← peek
  if token.kind = kind then
    advance
    pure token
  else unexpected token ("Expected " ++ what)

def skipNewlines : Phrase Unit := fun tokens =>
  .done () (tokens.dropWhile (·.kind = .newline))

/-- Takes the newlines and semicolons that come next. -/
def skipTerminators : Phrase Unit := fun tokens =>
  .done () (tokens.dropWhile (·.kind.isTerminator))

end Phrase

/-- A phrase together with the messages recorded while it is read. -/
def Report (α : Type) := List Token → List SyntaxError × Outcome α

namespace Report

instance : Monad Report where
  pure value := fun tokens => ([], .done value tokens)
  bind report continuation := fun tokens =>
    match report tokens with
    | (errors, .done value rest) =>
        let (more, outcome) := continuation value rest
        (errors ++ more, outcome)
    | (errors, .failed error rest) => (errors, .failed error rest)
    | (errors, .exhausted) => (errors, .exhausted)

instance : MonadLift Phrase Report where
  monadLift phrase := fun tokens => ([], phrase tokens)

/-- No depth of recursion is left. -/
def exhausted {α : Type} : Report α := fun _ => ([], .exhausted)

/-- Records a message and goes on. -/
def record (error : SyntaxError) : Report Unit := fun tokens => ([error], .done () tokens)

/-- Reads the phrase; a failure is recorded and leaves nothing. -/
def attempt {α : Type} (report : Report α) : Report (Option α) := fun tokens =>
  match report tokens with
  | (errors, .done value rest) => (errors, .done (some value) rest)
  | (errors, .failed error rest) => (errors ++ [error], .done none rest)
  | (errors, .exhausted) => (errors, .exhausted)

/-- Skips to just after the next terminator, or to the next brace that closes a block
opened before, or to the end.  `depth` counts the braces opened while skipping. -/
def resume (depth : Nat) : List Token → List Token
  | [] => []
  | token :: rest =>
      match token.kind with
      | .eof => token :: rest
      | .rightBrace => if depth = 0 then token :: rest else resume (depth - 1) rest
      | .leftBrace => resume (depth + 1) rest
      | .newline | .semicolon => if depth = 0 then rest else resume depth rest
      | _ => resume depth rest

/-- Goes on behind a faulty command. -/
def synchronize : Report Unit := fun tokens => ([], .done () (resume 0 tokens))

end Report

end MetricScript
