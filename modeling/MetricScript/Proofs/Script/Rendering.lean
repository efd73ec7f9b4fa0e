import MetricScript.Proofs.Script.Grammar

/-!
# Rendering scripts

How the tree of a script is written down.  A rendering is a list of words: kinds of tokens
with their texts.  It is free in its choice of number texts, in the sign of an assignment
and in redundant parentheses, and fixed in everything else; so it is a relation between
trees and words and not a function.

Not every tree can be written.  `WellFormed` says which ones can: names have to be names,
the global object stands only behind bare names, and a number has to be the value of some
run of digits and points.
-/

namespace MetricScript

/-! ## Trees without places -/

namespace Expr

mutual

/-- The tree with every node at one and the same place. -/
def unplaced : Expr → Expr
  | literal _ value => literal .start value
  | array _ items => array .start (unplacedItems items)
  | map _ entries => map .start (unplacedEntries entries)
  | var _ name => var .start name
  | binary _ operator left right => binary .start operator left.unplaced right.unplaced
  | unary _ operator operand => unary .start operator operand.unplaced
  | property _ target name => property .start target.unplaced name
  | call _ target arguments => call .start target.unplaced (unplacedArguments arguments)
  | global _ => global .start
  | storage _ => storage .start
termination_by structural expression => expression

def unplacedItems : List Expr → List Expr
  | [] => []
  | item :: rest => item.unplaced :: unplacedItems rest
termination_by structural items => items

def unplacedEntries : List (String × Expr) → List (String × Expr)
  | [] => []
  | (key, value) :: rest => (key, value.unplaced) :: unplacedEntries rest
termination_by structural entries => entries

def unplacedArguments : List (Option String × Expr) → List (Option String × Expr)
  | [] => []
  | (name, value) :: rest => (name, value.unplaced) :: unplacedArguments rest
termination_by structural arguments => arguments

end

@[simp]
theorem unplaced_movedTo (place : Position) (value : Expr) :
    (value.movedTo place).unplaced = value.unplaced := by
  cases value <;> rfl

end Expr

namespace Command

mutual

def unplaced : Command → Command
  | setVariable name value => setVariable name value.unplaced
  | setOutput name value => setOutput name value.unplaced
  | evaluate value => evaluate value.unplaced
  | ifElse condition thenBranch elseBranch =>
      ifElse condition.unplaced (unplacedAll thenBranch) (unplacedAll elseBranch)
  | whileLoop condition body => whileLoop condition.unplaced (unplacedAll body)
termination_by structural command => command

def unplacedAll : List Command → List Command
  | [] => []
  | command :: rest => command.unplaced :: unplacedAll rest
termination_by structural commands => commands

end

end Command

namespace Rendering

/-! ## Trees that can be written -/

/-- Names of outputs, properties and arguments. -/
def Identifier (name : String) : Prop :=
  name.toList ≠ [] ∧ (∀ c ∈ name.toList, Scan.isIdentifierChar c) ∧
    (∀ c ∈ name.toList.head?, Number.isDigit c = false) ∧
    name ∉ ["true", "false", "null", "if", "else", "while"]

/-- Names of variables, with their dollar sign. -/
def VariableName (name : String) : Prop :=
  ∃ run, name.toList = '$' :: run ∧ run ≠ [] ∧ ∀ c ∈ run, Scan.isIdentifierChar c

/-- Digits and points, a digit first. -/
def NumberText (text : String) : Prop :=
  ∃ first rest, text.toList = first :: rest ∧ Number.isDigit first ∧
    ∀ c ∈ rest, Scan.isNumberChar c

/-- A number has a text; any other literal can be written at once. -/
def LiteralWellFormed : Literal → Prop
  | .number value => ∃ text, NumberText text ∧ Number.read? text = some value
  | _ => True

mutual

/-- Expressions that can be written. -/
def ExprWellFormed : Expr → Prop
  | .literal _ value => LiteralWellFormed value
  | .array _ items => ItemsWellFormed items
  | .map _ entries => EntriesWellFormed entries
  | .var _ name => VariableName name
  | .binary _ _ left right => ExprWellFormed left ∧ ExprWellFormed right
  | .unary _ _ operand => ExprWellFormed operand
  | .property _ (.global _) name => Identifier name ∧ name ≠ "storage"
  | .property _ target name => ExprWellFormed target ∧ Identifier name
  | .call _ target arguments =>
      ExprWellFormed target ∧ ArgumentsWellFormed arguments ∧
        (Grammar.argumentNames arguments).Nodup
  | .global _ => False
  | .storage _ => True
termination_by structural expression => expression

def ItemsWellFormed : List Expr → Prop
  | [] => True
  | item :: rest => ExprWellFormed item ∧ ItemsWellFormed rest
termination_by structural items => items

/-- All values can be written; a key may be any text. -/
def EntriesWellFormed : List (String × Expr) → Prop
  | [] => True
  | (_, value) :: rest => ExprWellFormed value ∧ EntriesWellFormed rest
termination_by structural entries => entries

/-- All values can be written and all names are names. -/
def ArgumentsWellFormed : List (Option String × Expr) → Prop
  | [] => True
  | (name, value) :: rest =>
      (∀ given ∈ name, Identifier given) ∧ ExprWellFormed value ∧ ArgumentsWellFormed rest
termination_by structural arguments => arguments

end

mutual

def CommandWellFormed : Command → Prop
  | .setVariable name value => VariableName name ∧ ExprWellFormed value
  | .setOutput name value => Identifier name ∧ ExprWellFormed value
  | .evaluate value => ExprWellFormed value
  | .ifElse condition thenBranch elseBranch =>
      ExprWellFormed condition ∧ WellFormed thenBranch ∧ WellFormed elseBranch
  | .whileLoop condition body => ExprWellFormed condition ∧ WellFormed body
termination_by structural command => command

def WellFormed : List Command → Prop
  | [] => True
  | command :: rest => CommandWellFormed command ∧ WellFormed rest
termination_by structural commands => commands

end

/-! ## Words -/

/-- A token without its place. -/
structure Word where
  kind : TokenKind
  text : String

def wordOf (token : Token) : Word := ⟨token.kind, token.text⟩

def spelling : TokenKind → String
  | .trueLiteral => "true"
  | .falseLiteral => "false"
  | .nullLiteral => "null"
  | .ifKeyword => "if"
  | .elseKeyword => "else"
  | .whileKeyword => "while"
  | .plus => "+"
  | .minus => "-"
  | .star => "*"
  | .slash => "/"
  | .assign => "="
  | .equal => "=="
  | .notEqual => "!="
  | .greater => ">"
  | .greaterEqual => ">="
  | .less => "<"
  | .lessEqual => "<="
  | .logicalAnd => "&&"
  | .logicalOr => "||"
  | .logicalNot => "!"
  | .colon => ":"
  | .dot => "."
  | .comma => ","
  | .leftParen => "("
  | .rightParen => ")"
  | .leftBracket => "["
  | .rightBracket => "]"
  | .leftBrace => "\x7b"
  | .rightBrace => "\x7d"
  | .newline => "\n"
  | .semicolon => ";"
  | _ => ""

def fixed (kind : TokenKind) : Word := ⟨kind, spelling kind⟩

/-- A text with a backslash before every backslash and every quote. -/
def escape : List Char → List Char
  | [] => []
  | c :: rest => if c = '\\' ∨ c = '"' then '\\' :: c :: escape rest else c :: escape rest

def quoted (text : String) : Word := ⟨.string, String.ofList (escape text.toList)⟩

def nameWord (name : String) : Word := ⟨.identifier, name⟩

def variableWord (name : String) : Word := ⟨.variableName, name⟩

/-! ## Expressions as words -/

/-- The level of precedence of an operator, the loosest first. -/
def precedence : BinaryOperator → Nat
  | .or => 0
  | .and => 1
  | .equal | .notEqual => 2
  | .less | .lessEqual | .greater | .greaterEqual => 3
  | .add | .subtract => 4
  | .multiply | .divide => 5

/-- How tightly an expression holds together: by its operator, then unary operators, then
everything else. -/
def strength : Expr → Nat
  | .binary _ operator _ _ => precedence operator
  | .unary _ _ _ => 6
  | _ => 7

def operatorKind : BinaryOperator → TokenKind
  | .add => .plus
  | .subtract => .minus
  | .multiply => .star
  | .divide => .slash
  | .equal => .equal
  | .notEqual => .notEqual
  | .less => .less
  | .lessEqual => .lessEqual
  | .greater => .greater
  | .greaterEqual => .greaterEqual
  | .and => .logicalAnd
  | .or => .logicalOr

def unaryKind : UnaryOperator → TokenKind
  | .negate => .minus
  | .plus => .plus
  | .not => .logicalNot

inductive LiteralWritten : Literal → Word → Prop
  | null : LiteralWritten .null (fixed .nullLiteral)
  | true : LiteralWritten (.boolean true) (fixed .trueLiteral)
  | false : LiteralWritten (.boolean false) (fixed .falseLiteral)
  | number {text : String} {value : Float} (htext : NumberText text)
      (hread : Number.read? text = some value) : LiteralWritten (.number value) ⟨.number, text⟩
  | string (text : String) : LiteralWritten (.string text) (quoted text)

mutual

/-- An expression where one of a given strength is due: bare if it is strong enough, or in
parentheses, which are redundant if it is. -/
inductive Written : Nat → Expr → List Word → Prop
  | bare {due : Nat} {value : Expr} {words : List Word} (hdue : due ≤ strength value)
      (hform : Form value words) : Written due value words
  | grouped {due : Nat} {value : Expr} {words : List Word} (hinner : Written 0 value words) :
      Written due value (fixed .leftParen :: (words ++ [fixed .rightParen]))

/-- An expression without parentheses of its own.  The left operand of an operator may be
as strong as the operator, the right one is stronger. -/
inductive Form : Expr → List Word → Prop
  | literal {place : Position} {value : Literal} {word : Word}
      (hvalue : LiteralWritten value word) : Form (.literal place value) [word]
  | array {place : Position} {items : List Expr} {words : List Word}
      (hitems : ItemsWritten items words) :
      Form (.array place items) (fixed .leftBracket :: words)
  | map {place : Position} {entries : List (String × Expr)} {words : List Word}
      (hentries : EntriesWritten entries words) :
      Form (.map place entries) (fixed .leftBrace :: words)
  | var (place : Position) (name : String) : Form (.var place name) [variableWord name]
  | binary {place : Position} {operator : BinaryOperator} {left right : Expr}
      {leftWords rightWords : List Word} (hleft : Written (precedence operator) left leftWords)
      (hright : Written (precedence operator + 1) right rightWords) :
      Form (.binary place operator left right)
        (leftWords ++ fixed (operatorKind operator) :: rightWords)
  | unary {place : Position} {operator : UnaryOperator} {operand : Expr} {words : List Word}
      (hoperand : Written 6 operand words) :
      Form (.unary place operator operand) (fixed (unaryKind operator) :: words)
  | name (place other : Position) (name : String) :
      Form (.property place (.global other) name) [nameWord name]
  | property {place : Position} {target : Expr} {name : String} {words : List Word}
      (htarget : Written 7 target words) :
      Form (.property place target name) (words ++ [fixed .dot, nameWord name])
  | call {place : Position} {target : Expr} {arguments : List (Option String × Expr)}
      {words list : List Word} (htarget : Written 7 target words)
      (harguments : ArgumentsWritten arguments list) :
      Form (.call place target arguments) (words ++ fixed .leftParen :: list)
  | storage (place : Position) : Form (.storage place) [nameWord "storage"]

/-- Items with commas between them, and the closing bracket. -/
inductive ItemsWritten : List Expr → List Word → Prop
  | none : ItemsWritten [] [fixed .rightBracket]
  | last {item : Expr} {words : List Word} (hitem : Written 0 item words) :
      ItemsWritten [item] (words ++ [fixed .rightBracket])
  | next {item : Expr} {items : List Expr} {words rest : List Word}
      (hitem : Written 0 item words) (hmore : items ≠ []) (hrest : ItemsWritten items rest) :
      ItemsWritten (item :: items) (words ++ fixed .comma :: rest)

/-- Entries with commas between them, and the closing brace. -/
inductive EntriesWritten : List (String × Expr) → List Word → Prop
  | none : EntriesWritten [] [fixed .rightBrace]
  | last {key : String} {value : Expr} {words : List Word} (hvalue : Written 0 value words) :
      EntriesWritten [(key, value)]
        (quoted key :: fixed .colon :: (words ++ [fixed .rightBrace]))
  | next {key : String} {value : Expr} {entries : List (String × Expr)} {words rest : List Word}
      (hvalue : Written 0 value words) (hmore : entries ≠ [])
      (hrest : EntriesWritten entries rest) :
      EntriesWritten ((key, value) :: entries)
        (quoted key :: fixed .colon :: (words ++ fixed .comma :: rest))

inductive ArgumentWritten : Option String × Expr → List Word → Prop
  | named {name : String} {value : Expr} {words : List Word} (hvalue : Written 0 value words) :
      ArgumentWritten (some name, value) (nameWord name :: fixed .colon :: words)
  | unnamed {value : Expr} {words : List Word} (hvalue : Written 0 value words) :
      ArgumentWritten (none, value) words

/-- Arguments with commas between them, and the closing parenthesis. -/
inductive ArgumentsWritten : List (Option String × Expr) → List Word → Prop
  | none : ArgumentsWritten [] [fixed .rightParen]
  | last {argument : Option String × Expr} {words : List Word}
      (hargument : ArgumentWritten argument words) :
      ArgumentsWritten [argument] (words ++ [fixed .rightParen])
  | next {argument : Option String × Expr} {arguments : List (Option String × Expr)}
      {words rest : List Word} (hargument : ArgumentWritten argument words)
      (hmore : arguments ≠ []) (hrest : ArgumentsWritten arguments rest) :
      ArgumentsWritten (argument :: arguments) (words ++ fixed .comma :: rest)

end

/-- There is no way to write the global object. -/
theorem Written.not_global {due : Nat} {value : Expr} {words : List Word} :
    Written due value words → value.isGlobal = false
  | .bare _ hform => by cases hform <;> rfl
  | .grouped hinner => hinner.not_global

/-- A well-formed property has a name, and a well-formed target if it is not one of the global
object. -/
theorem wellFormed_property {place : Position} {target : Expr} {name : String}
    (hwell : ExprWellFormed (.property place target name)) (htarget : target.isGlobal = false) :
    ExprWellFormed target ∧ Identifier name := by
  cases target with
  | global => exact nomatch htarget
  | literal | array | map | var | binary | unary | property | call | storage => exact hwell

/-! ## Commands as words -/

def Breaks (words : List Word) : Prop := ∀ word ∈ words, word = fixed .newline

mutual

inductive CommandWritten : Command → List Word → Prop
  | setVariable {name : String} {value : Expr} {sign : TokenKind} {words : List Word}
      (hsign : sign = .colon ∨ sign = .assign) (hvalue : Written 0 value words) :
      CommandWritten (.setVariable name value) (variableWord name :: fixed sign :: words)
  | setOutput {name : String} {value : Expr} {sign : TokenKind} {words : List Word}
      (hsign : sign = .colon ∨ sign = .assign) (hvalue : Written 0 value words) :
      CommandWritten (.setOutput name value) (nameWord name :: fixed sign :: words)
  | evaluate {value : Expr} {words : List Word} (hvalue : Written 0 value words) :
      CommandWritten (.evaluate value) words
  | ifThen {condition : Expr} {thenBranch : List Command} {test block : List Word}
      (hcondition : Written 0 condition test) (hthen : BlockWritten thenBranch block) :
      CommandWritten (.ifElse condition thenBranch []) (fixed .ifKeyword :: (test ++ block))
  | ifElse {condition : Expr} {thenBranch elseBranch : List Command}
      {test block other : List Word} (hcondition : Written 0 condition test)
      (hthen : BlockWritten thenBranch block) (helse : BlockWritten elseBranch other) :
      CommandWritten (.ifElse condition thenBranch elseBranch)
        (fixed .ifKeyword :: (test ++ (block ++ fixed .elseKeyword :: other)))
  | elseIf {condition innerCondition : Expr} {thenBranch innerThen innerElse : List Command}
      {test block other : List Word} (hcondition : Written 0 condition test)
      (hthen : BlockWritten thenBranch block)
      (helse : CommandWritten (.ifElse innerCondition innerThen innerElse) other) :
      CommandWritten
        (.ifElse condition thenBranch [.ifElse innerCondition innerThen innerElse])
        (fixed .ifKeyword :: (test ++ (block ++ fixed .elseKeyword :: other)))
  | whileLoop {condition : Expr} {body : List Command} {test block : List Word}
      (hcondition : Written 0 condition test) (hbody : BlockWritten body block) :
      CommandWritten (.whileLoop condition body) (fixed .whileKeyword :: (test ++ block))

inductive BlockWritten : List Command → List Word → Prop
  | braces {commands : List Command} {words : List Word}
      (hcommands : CommandsWritten commands words) :
      BlockWritten commands (fixed .leftBrace :: (words ++ [fixed .rightBrace]))

inductive CommandsWritten : List Command → List Word → Prop
  | none {breaks : List Word} (hbreaks : Breaks breaks) : CommandsWritten [] breaks
  | next {command : Command} {commands : List Command} {breaks words rest : List Word}
      (hbreaks : Breaks breaks) (hcommand : CommandWritten command words)
      (hseparated : rest = [] ∨ rest.head? = some (fixed .newline))
      (hrest : CommandsWritten commands rest) :
      CommandsWritten (command :: commands) (breaks ++ (words ++ rest))

end

/-! ## Words as a text -/

/-- The characters of a word in a text; a string stands between quotes. -/
def Word.lexeme (word : Word) : List Char :=
  if word.kind = .string then '"' :: (word.text.toList ++ ['"']) else word.text.toList

/-- A text with one blank between two words; beside a newline the blank may be missing. -/
inductive SetOut : List Word → List Char → Prop
  | nothing : SetOut [] []
  | last (word : Word) : SetOut [word] word.lexeme
  | spaced {word next : Word} {rest : List Word} {text : List Char}
      (hrest : SetOut (next :: rest) text) :
      SetOut (word :: next :: rest) (word.lexeme ++ ' ' :: text)
  | joined {word next : Word} {rest : List Word} {text : List Char}
      (hline : word = fixed .newline ∨ next = fixed .newline)
      (hrest : SetOut (next :: rest) text) :
      SetOut (word :: next :: rest) (word.lexeme ++ text)

/-- A text is a rendering of a script if it sets out words that write the script. -/
def Renders (script : Script) (source : String) : Prop :=
  ∃ words, CommandsWritten script words ∧ SetOut words source.toList

end Rendering

end MetricScript
