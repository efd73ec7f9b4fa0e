import MetricScript.Script.Expr
import MetricScript.Script.Scan
import MetricScript.Script.Phrase
import MetricScript.Number.Decimal

/-!
# Parsing scripts

Binary operators bind, from loosest to tightest: `||`, `&&`, `== !=`, `< <= > >=`, `+ -`,
`* /`; all of them group to the left.  Unary operators bind tighter, and property access
and calls tightest of all.  A command ends at a newline, a semicolon, a closing brace or
the end of the script; newlines inside brackets are skipped.

A faulty command is recorded and parsing goes on behind it, so that all messages about a
script come out together.
-/

namespace MetricScript

/-- A text with its escapes resolved: a backslash before `n`, `t` or `r` stands for a
control character, before any other character for that character. -/
def unescapeList : List Char → List Char
  | [] => []
  | [c] => if c = '\\' then [] else [c]
  | c :: d :: rest =>
      if c = '\\' then
        (match d with
          | 'n' => '\n'
          | 't' => '\t'
          | 'r' => '\r'
          | other => other) :: unescapeList rest
      else c :: unescapeList (d :: rest)

/-- The text of a string token with its escapes resolved. -/
def unescape (raw : String) : String := String.ofList (unescapeList raw.toList)

namespace Parse

open Phrase

/-- The operators of one level of precedence. -/
abbrev Level := List (TokenKind × BinaryOperator)

/-- The levels of the binary operators, the loosest first. -/
def levels : List Level :=
  [[(.logicalOr, .or)],
    [(.logicalAnd, .and)],
    [(.equal, .equal), (.notEqual, .notEqual)],
    [(.less, .less), (.lessEqual, .lessEqual), (.greater, .greater),
      (.greaterEqual, .greaterEqual)],
    [(.plus, .add), (.minus, .subtract)],
    [(.star, .multiply), (.slash, .divide)]]

/-- The unary operator that a token stands for. -/
def unaryOperator? : TokenKind → Option UnaryOperator
  | .minus => some .negate
  | .plus => some .plus
  | .logicalNot => some .not
  | _ => none

/-- The expression of a bare name. -/
def named (token : Token) : Expr :=
  if token.text = "storage" then .storage token.position
  else .property token.position (.global token.position) token.text

/-- The name of a named argument, which is taken with its colon, or nothing.  A name may
not be given twice. -/
def argumentName (used : List String) : Phrase (Option String) := do
  let first ← peek
  let second ← peekSecond
  if first.kind = .identifier && second.kind = .colon then
    advance
    advance
    if first.text ∈ used then fail (.about "Duplicate argument" first)
    else pure (some first.text)
  else pure none

/-- The key of a map entry: a name or a string. -/
def mapKey : Phrase String := do
  let token ← peek
  match token.kind with
  | .identifier =>
      advance
      pure token.text
  | .string =>
      advance
      pure (unescape token.text)
  | _ => unexpected token "Expected a map key"

mutual

def expression : Nat → Phrase Expr
  | 0 => exhausted
  | depth + 1 => binary depth levels
termination_by structural depth => depth

/-- Operands joined by the operators of the given levels and tighter ones. -/
def binary : Nat → List Level → Phrase Expr
  | 0, _ => exhausted
  | depth + 1, [] => unary depth
  | depth + 1, level :: tighter => do
      let left ← binary depth tighter
      operands depth level tighter left
termination_by structural depth => depth

/-- Further operands of one level after the expression to their left. -/
def operands : Nat → Level → List Level → Expr → Phrase Expr
  | 0, _, _, _ => exhausted
  | depth + 1, level, tighter, left => do
      let token ← peek
      match level.lookup token.kind with
      | none => pure left
      | some operator =>
          advance
          let right ← binary depth tighter
          operands depth level tighter (.binary left.position operator left right)
termination_by structural depth => depth

/-- Unary operators before an operand. -/
def unary : Nat → Phrase Expr
  | 0 => exhausted
  | depth + 1 => do
      let token ← peek
      match unaryOperator? token.kind with
      | some operator =>
          advance
          let operand ← unary depth
          pure (.unary token.position operator operand)
      | none =>
          let target ← primary depth
          suffixes depth target
termination_by structural depth => depth

/-- Property accesses and calls after the expression that they apply to. -/
def suffixes : Nat → Expr → Phrase Expr
  | 0, _ => exhausted
  | depth + 1, target => do
      let token ← peek
      match token.kind with
      | .dot =>
          advance
          let name ← expect .identifier "a property name"
          suffixes depth (.property target.position target name.text)
      | .leftParen =>
          advance
          skipNewlines
          let arguments ←
            if ← eat .rightParen then pure [] else argumentList depth []
          suffixes depth (.call target.position target arguments)
      | _ => pure target
termination_by structural depth => depth

/-- The arguments of a call up to its closing parenthesis. -/
def argumentList : Nat → List String → Phrase (List (Option String × Expr))
  | 0, _ => exhausted
  | depth + 1, used => do
      let name ← argumentName used
      let value ← expression depth
      skipNewlines
      if ← eat .comma then
        skipNewlines
        let rest ← argumentList depth (used ++ name.toList)
        pure ((name, value) :: rest)
      else
        let _ ← expect .rightParen "`,` or `)`"
        pure [(name, value)]
termination_by structural depth => depth

/-- A literal, a name, a variable, a group, an array or a map. -/
def primary : Nat → Phrase Expr
  | 0 => exhausted
  | depth + 1 => do
      let token ← peek
      match token.kind with
      | .number =>
          advance
          match Number.read? token.text with
          | some value => pure (.literal token.position (.number value))
          | none => fail (.about "Invalid number" token)
      | .string =>
          advance
          pure (.literal token.position (.string (unescape token.text)))
      | .trueLiteral =>
          advance
          pure (.literal token.position (.boolean true))
      | .falseLiteral =>
          advance
          pure (.literal token.position (.boolean false))
      | .nullLiteral =>
          advance
          pure (.literal token.position .null)
      | .variableName =>
          advance
          pure (.var token.position token.text)
      | .identifier =>
          advance
          pure (named token)
      | .leftParen =>
          advance
          skipNewlines
          let inner ← expression depth
          skipNewlines
          let _ ← expect .rightParen "`)`"
          pure (inner.movedTo token.position)
      | .leftBracket =>
          advance
          skipNewlines
          let items ← if ← eat .rightBracket then pure [] else itemList depth
          pure (.array token.position items)
      | .leftBrace =>
          advance
          let entries ← entryList depth
          pure (.map token.position entries)
      | _ => unexpected token "Expected an expression"
termination_by structural depth => depth

/-- The items of an array up to its closing bracket. -/
def itemList : Nat → Phrase (List Expr)
  | 0 => exhausted
  | depth + 1 => do
      let item ← expression depth
      skipNewlines
      if ← eat .comma then
        skipNewlines
        let rest ← itemList depth
        pure (item :: rest)
      else
        let _ ← expect .rightBracket "`,` or `]`"
        pure [item]
termination_by structural depth => depth

/-- The entries of a map up to its closing brace; commas between them may be missing. -/
def entryList : Nat → Phrase (List (String × Expr))
  | 0 => exhausted
  | depth + 1 => do
      skipNewlines
      if ← eat .rightBrace then pure []
      else
        let key ← mapKey
        let _ ← expect .colon "`:`"
        skipNewlines
        let value ← expression depth
        skipNewlines
        let _ ← eat .comma
        let rest ← entryList depth
        pure ((key, value) :: rest)
termination_by structural depth => depth

end

/-- An assignment or an expression. -/
def simpleCommand (depth : Nat) : Phrase Command := do
  let first ← peek
  let second ← peekSecond
  if second.kind = .colon || second.kind = .assign then
    match first.kind with
    | .variableName =>
        advance
        advance
        let value ← expression depth
        pure (.setVariable first.text value)
    | .identifier =>
        advance
        advance
        let value ← expression depth
        pure (.setOutput first.text value)
    | _ => return .evaluate (← expression depth)
  else return .evaluate (← expression depth)

/-- A simple command must be followed by the end of a command, which is left for later. -/
def commandEnd : Phrase Unit := do
  let token ← peek
  match token.kind with
  | .newline | .semicolon | .rightBrace | .eof => pure ()
  | _ => unexpected token "Expected end of command"

/-- The keyword `else` comes next, perhaps after newlines. -/
def elseFollows : Phrase Bool := fun tokens =>
  match tokens.dropWhile (·.kind = .newline) with
  | token :: _ => .done (token.kind = .elseKeyword) tokens
  | [] => .done false tokens

mutual

def command : Nat → Report Command
  | 0 => Report.exhausted
  | depth + 1 => do
      let token ← peek
      match token.kind with
      | .ifKeyword => conditional depth
      | .whileKeyword =>
          advance
          let condition ← expression depth
          let body ← block depth
          pure (.whileLoop condition body)
      | _ =>
          let result ← simpleCommand depth
          commandEnd
          pure result
termination_by structural depth => depth

/-- A conditional, from its keyword on. -/
def conditional : Nat → Report Command
  | 0 => Report.exhausted
  | depth + 1 => do
      let _ ← expect .ifKeyword "`if`"
      let condition ← expression depth
      let thenBranch ← block depth
      if ← elseFollows then
        skipNewlines
        advance
        let token ← peek
        if token.kind = .ifKeyword then
          let inner ← conditional depth
          pure (.ifElse condition thenBranch [inner])
        else
          let elseBranch ← block depth
          pure (.ifElse condition thenBranch elseBranch)
      else pure (.ifElse condition thenBranch [])
termination_by structural depth => depth

/-- Commands between braces; newlines may stand before the opening one. -/
def block : Nat → Report (List Command)
  | 0 => Report.exhausted
  | depth + 1 => do
      skipNewlines
      let _ ← expect .leftBrace "`\x7b`"
      blockCommands depth
termination_by structural depth => depth

/-- Commands up to the closing brace of a block. -/
def blockCommands : Nat → Report (List Command)
  | 0 => Report.exhausted
  | depth + 1 => do
      skipTerminators
      let token ← peek
      match token.kind with
      | .rightBrace =>
          advance
          pure []
      | .eof => (unexpected token "Expected `\x7d`" : Phrase (List Command))
      | _ =>
          match ← Report.attempt (command depth) with
          | some first =>
              let rest ← blockCommands depth
              pure (first :: rest)
          | none =>
              Report.synchronize
              blockCommands depth
termination_by structural depth => depth

end

/-- The commands of a script up to its end. -/
def scriptCommands : Nat → Report Script
  | 0 => Report.exhausted
  | depth + 1 => do
      skipTerminators
      let token ← peek
      match token.kind with
      | .eof => pure []
      | .rightBrace =>
          advance
          Report.record (.about "Unexpected `\x7d`" token)
          scriptCommands depth
      | _ =>
          match ← Report.attempt (command depth) with
          | some first =>
              let rest ← scriptCommands depth
              pure (first :: rest)
          | none =>
              Report.synchronize
              scriptCommands depth

/-- A depth of recursion that suffices for a list of tokens: between one token and the
next at most a dozen phrases open. -/
def depthFor (tokens : List Token) : Nat := 16 * (tokens.length + 1)

end Parse

/-- What comes of parsing a text. -/
inductive Parsed where
  | script (commands : Script)
  | errors (errors : List SyntaxError)
  /-- The token stream never ends. -/
  | endless

def parseTokens (tokens : List Token) : Parsed :=
  match Parse.scriptCommands (Parse.depthFor tokens) tokens with
  | ([], .done commands _) => .script commands
  | (errors, .done _ _) => .errors errors
  | (errors, .failed error _) => .errors (errors ++ [error])
  | (_, .exhausted) => .endless

def parse (source : String) : Parsed :=
  match tokens? source with
  | some tokens => parseTokens tokens
  | none => .endless

end MetricScript
