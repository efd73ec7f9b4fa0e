/-!
# Tokens

A script is a sequence of tokens.  A token has a kind, the text it stands for and the
place where it begins.  What is wrong in a text below the level of tokens is a token of
its own, so that one faulty place does not hide the tokens after it.
-/

namespace MetricScript

/-- A line and a column, both counted from one; columns count characters. -/
structure Position where
  line : Nat
  column : Nat
deriving DecidableEq, Inhabited

namespace Position

/-- The place of the first character of a text. -/
def start : Position := ⟨1, 1⟩

/-- The place after a character that stands here. -/
def after (position : Position) (c : Char) : Position :=
  if c = '\n' then ⟨position.line + 1, 1⟩ else ⟨position.line, position.column + 1⟩

/-- The place after a run of characters that begins here. -/
def afterAll (position : Position) (text : List Char) : Position :=
  text.foldl after position

/-- Line and column with a colon between them. -/
def text (position : Position) : String :=
  toString position.line ++ ":" ++ toString position.column

end Position

/-- What makes a token invalid. -/
inductive LexError where
  | unknownSymbol
  | unterminatedString
  | unterminatedComment
  | emptyVariable
deriving DecidableEq

namespace LexError

def message : LexError → String
  | unknownSymbol => "Unknown symbol"
  | unterminatedString => "Unterminated string"
  | unterminatedComment => "Unterminated comment"
  | emptyVariable => "Invalid variable name"

/-- The name of the reason in token listings. -/
def name : LexError → String
  | unknownSymbol => "UnknownSymbol"
  | unterminatedString => "UnterminatedString"
  | unterminatedComment => "UnterminatedComment"
  | emptyVariable => "EmptyVariable"

end LexError

inductive TokenKind where
  | number
  | string
  | identifier
  | variableName
  | trueLiteral
  | falseLiteral
  | nullLiteral
  | ifKeyword
  | elseKeyword
  | whileKeyword
  | plus
  | minus
  | star
  | slash
  | assign
  | equal
  | notEqual
  | greater
  | greaterEqual
  | less
  | lessEqual
  | logicalAnd
  | logicalOr
  | logicalNot
  | colon
  | dot
  | comma
  | leftParen
  | rightParen
  | leftBracket
  | rightBracket
  | leftBrace
  | rightBrace
  | newline
  | semicolon
  | eof
  | error (reason : LexError)
deriving DecidableEq

namespace TokenKind

/-- What a message calls a token of this kind. -/
def describe : TokenKind → String
  | number => "number"
  | string => "string"
  | identifier => "identifier"
  | variableName => "variable"
  | trueLiteral | falseLiteral => "boolean"
  | nullLiteral => "null"
  | ifKeyword | elseKeyword | whileKeyword => "keyword"
  | newline => "end of line"
  | semicolon => "`;`"
  | eof => "end of input"
  | error _ => "invalid token"
  | _ => "symbol"

/-- The name of the kind in token listings. -/
def name : TokenKind → String
  | number => "Number"
  | string => "String"
  | identifier => "Identifier"
  | variableName => "Variable"
  | trueLiteral => "True"
  | falseLiteral => "False"
  | nullLiteral => "Null"
  | ifKeyword => "If"
  | elseKeyword => "Else"
  | whileKeyword => "While"
  | plus => "Plus"
  | minus => "Minus"
  | star => "Star"
  | slash => "Slash"
  | assign => "Assign"
  | equal => "Equal"
  | notEqual => "NotEqual"
  | greater => "Greater"
  | greaterEqual => "GreaterEqual"
  | less => "Less"
  | lessEqual => "LessEqual"
  | logicalAnd => "And"
  | logicalOr => "Or"
  | logicalNot => "Not"
  | colon => "Colon"
  | dot => "Dot"
  | comma => "Comma"
  | leftParen => "LParen"
  | rightParen => "RParen"
  | leftBracket => "LBracket"
  | rightBracket => "RBracket"
  | leftBrace => "LBrace"
  | rightBrace => "RBrace"
  | newline => "Newline"
  | semicolon => "Semicolon"
  | eof => "Eof"
  | error reason => "Error(" ++ reason.name ++ ")"

/-- Newlines and semicolons end a command. -/
def isTerminator (kind : TokenKind) : Bool :=
  kind = newline || kind = semicolon

end TokenKind

/-- A token of a script.  The text of a string is what stands between its quotes, still
escaped; the position of a string is that of its opening quote. -/
structure Token where
  kind : TokenKind
  text : String
  position : Position
deriving DecidableEq

/-- The token after the last character of a script. -/
def Token.atEnd (position : Position) : Token := ⟨.eof, "", position⟩

end MetricScript
