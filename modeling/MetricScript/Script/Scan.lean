import MetricScript.Script.Token
import MetricScript.Text.Classes

/-!
# The token stream

Tokens are taken off the front of the remaining text one at a time.  A step first skips
blanks and comments, then reads one lexeme: the characters of the token as they stand in
the source.  The kind and the text of the token follow from the lexeme, and the place of
the next token from its characters.

White space that the language does not skip belongs to no lexeme.  At such a character
the stream goes on for ever with empty identifiers at one place, so a script has a list
of tokens only if it never meets one: `Cursor.tokens?` ends exactly when every step makes
progress.
-/

namespace MetricScript

namespace Scan

/-- The characters that begin a symbol. -/
def isSymbol (c : Char) : Bool :=
  c ∈ "+-/*:.,()[]=&|!\x7b\x7d\n;<>".toList

/-- The characters of identifiers: neither white space nor a symbol, a quote or a dollar
sign. -/
def isIdentifierChar (c : Char) : Bool :=
  !(Text.isBlank c || isSymbol c || c = '"' || c = '$')

/-- The blanks between tokens. -/
def isGapChar (c : Char) : Bool := c = ' ' || c = '\t' || c = '\r'

/-- The digits and points of a number token. -/
def isNumberChar (c : Char) : Bool := ('0' ≤ c && c ≤ '9') || c = '.'

/-- Where skipping blanks and comments ends. -/
inductive Landing where
  /-- At the next lexeme, or at the end of the text. -/
  | found (position : Position) (rest : List Char)
  /-- Inside a comment that is never closed; `text` begins with its opening mark. -/
  | openComment (position : Position) (text : List Char)

/-- Skips blanks and closed comments.  `comment` holds the place and the text of a comment
whose end is being looked for. -/
def skipGap (position : Position) (comment : Option (Position × List Char)) :
    List Char → Landing
  | [] =>
      match comment with
      | none => .found position []
      | some (opening, text) => .openComment opening text
  | [c] =>
      match comment with
      | none => if isGapChar c then .found (position.after c) [] else .found position [c]
      | some (opening, text) => .openComment opening text
  | c :: d :: rest =>
      match comment with
      | none =>
          if isGapChar c then skipGap (position.after c) none (d :: rest)
          else if c = '/' && d = '*' then
            skipGap ((position.after c).after d) (some (position, c :: d :: rest)) rest
          else .found position (c :: d :: rest)
      | some opening =>
          if c = '*' && d = '/' then skipGap ((position.after c).after d) none rest
          else skipGap (position.after c) (some opening) (d :: rest)

/-- Splits a text after an opening quote into the body of the string and what follows its
closing quote.  A backslash takes the next character with it. -/
def splitString : List Char → List Char × Option (List Char)
  | [] => ([], none)
  | [c] => if c = '"' then ([], some []) else ([c], none)
  | c :: d :: rest =>
      if c = '"' then ([], some (d :: rest))
      else if c = '\\' then
        let (body, remaining) := splitString rest
        (c :: d :: body, remaining)
      else
        let (body, remaining) := splitString (d :: rest)
        (c :: body, remaining)

/-- The kind of a symbol of two characters. -/
def pairKind? (first second : Char) : Option TokenKind :=
  match first, second with
  | '=', '=' => some .equal
  | '!', '=' => some .notEqual
  | '<', '=' => some .lessEqual
  | '>', '=' => some .greaterEqual
  | '&', '&' => some .logicalAnd
  | '|', '|' => some .logicalOr
  | _, _ => none

/-- The kind of a symbol of one character. -/
def singleKind (c : Char) : TokenKind :=
  match c with
  | '+' => .plus
  | '-' => .minus
  | '*' => .star
  | '/' => .slash
  | ':' => .colon
  | '.' => .dot
  | ',' => .comma
  | '(' => .leftParen
  | ')' => .rightParen
  | '[' => .leftBracket
  | ']' => .rightBracket
  | '\x7b' => .leftBrace
  | '\x7d' => .rightBrace
  | '=' => .assign
  | '!' => .logicalNot
  | '<' => .less
  | '>' => .greater
  | '\n' => .newline
  | ';' => .semicolon
  | _ => .error .unknownSymbol

/-- The kind of an identifier; a few are keywords. -/
def wordKind (word : String) : TokenKind :=
  match word with
  | "true" => .trueLiteral
  | "false" => .falseLiteral
  | "null" => .nullLiteral
  | "if" => .ifKeyword
  | "else" => .elseKeyword
  | "while" => .whileKeyword
  | _ => .identifier

/-- A token taken off a text: `lexeme ++ rest` is the text. -/
structure Piece where
  kind : TokenKind
  text : List Char
  lexeme : List Char
  rest : List Char

/-- The piece whose token text is its whole lexeme. -/
def Piece.verbatim (kind : TokenKind) (lexeme rest : List Char) : Piece :=
  ⟨kind, lexeme, lexeme, rest⟩

def takeSymbol (first : Char) : List Char → Piece
  | [] => .verbatim (singleKind first) [first] []
  | second :: rest =>
      match pairKind? first second with
      | some kind => .verbatim kind [first, second] rest
      | none => .verbatim (singleKind first) [first] (second :: rest)

/-- Takes a string off the text after its opening quote. -/
def takeString (text : List Char) : Piece :=
  match splitString text with
  | (body, some rest) => ⟨.string, body, '"' :: body ++ ['"'], rest⟩
  | (body, none) => ⟨.error .unterminatedString, body, '"' :: body, []⟩

/-- Takes a variable off the text after its dollar sign. -/
def takeVariable (text : List Char) : Piece :=
  let name := text.takeWhile isIdentifierChar
  let kind := if name.isEmpty then .error .emptyVariable else TokenKind.variableName
  .verbatim kind ('$' :: name) (text.dropWhile isIdentifierChar)

/-- Takes the token off a text that begins with the character `first`. -/
def take (first : Char) (rest : List Char) : Piece :=
  if isSymbol first then takeSymbol first rest
  else if '0' ≤ first && first ≤ '9' then
    .verbatim .number (first :: rest.takeWhile isNumberChar) (rest.dropWhile isNumberChar)
  else if first = '"' then takeString rest
  else if first = '$' then takeVariable rest
  else
    let word := (first :: rest).takeWhile isIdentifierChar
    .verbatim (wordKind (String.ofList word)) word ((first :: rest).dropWhile isIdentifierChar)

end Scan

/-- What is left of a script, and where it begins.  After the end token nothing follows. -/
structure Cursor where
  rest : List Char
  position : Position
  ended : Bool

namespace Cursor

/-- The cursor before the first character of a script. -/
def ofSource (source : String) : Cursor := ⟨source.toList, .start, false⟩

def next? (cursor : Cursor) : Option (Token × Cursor) :=
  if cursor.ended then none
  else match Scan.skipGap cursor.position none cursor.rest with
    | .openComment position text =>
        some (⟨.error .unterminatedComment, String.ofList text, position⟩,
          ⟨[], position.afterAll text, false⟩)
    | .found position [] => some (.atEnd position, ⟨[], position, true⟩)
    | .found position (first :: rest) =>
        let piece := Scan.take first rest
        some (⟨piece.kind, String.ofList piece.text, position⟩,
          ⟨piece.rest, position.afterAll piece.lexeme, false⟩)

/-- The first tokens of the stream, at most `limit` of them. -/
def firstTokens : Nat → Cursor → List Token
  | 0, _ => []
  | limit + 1, cursor =>
      match cursor.next? with
      | some (token, following) => token :: firstTokens limit following
      | none => []

/-- How much of the stream is left: the characters, and one for the end. -/
def size (cursor : Cursor) : Nat :=
  cursor.rest.length + if cursor.ended then 0 else 1

/-- All tokens of the stream with the end token last, or nothing if some step makes no
progress. -/
def tokens? (cursor : Cursor) : Option (List Token) :=
  match cursor.next? with
  | none => some []
  | some (token, following) =>
      if following.size < cursor.size then
        following.tokens?.map (token :: ·)
      else none
termination_by cursor.size

end Cursor

/-- The tokens of a script, the end token last; a script whose token stream never ends
has none. -/
def tokens? (source : String) : Option (List Token) :=
  (Cursor.ofSource source).tokens?

/-- The first tokens of a script, at most `limit` of them. -/
def firstTokens (limit : Nat) (source : String) : List Token :=
  (Cursor.ofSource source).firstTokens limit

end MetricScript
