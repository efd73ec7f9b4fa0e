import MetricScript.Script.Token
import MetricScript.Number.Layout
import MetricScript.Text.Quoted

/-!
# Expressions and commands

The tree of a script.  Every expression knows the place of its first token, which is
where messages point.  A bare name such as `now` is a property of the global object, and
`storage` is a name of its own.
-/

namespace MetricScript

inductive BinaryOperator where
  | add
  | subtract
  | multiply
  | divide
  | equal
  | notEqual
  | less
  | lessEqual
  | greater
  | greaterEqual
  | and
  | or
deriving DecidableEq

def BinaryOperator.symbol : BinaryOperator → String
  | add => "+"
  | subtract => "-"
  | multiply => "*"
  | divide => "/"
  | equal => "=="
  | notEqual => "!="
  | less => "<"
  | lessEqual => "<="
  | greater => ">"
  | greaterEqual => ">="
  | and => "&&"
  | or => "||"

inductive UnaryOperator where
  | negate
  | plus
  | not
deriving DecidableEq

def UnaryOperator.symbol : UnaryOperator → String
  | negate => "-"
  | plus => "+"
  | not => "!"

/-- Values that are written out in a script. -/
inductive Literal where
  | null
  | boolean (value : Bool)
  | number (value : Float)
  | string (value : String)
deriving DecidableEq

/-- Expressions, each with the place of its first token. -/
inductive Expr where
  | literal (position : Position) (value : Literal)
  | array (position : Position) (items : List Expr)
  | map (position : Position) (entries : List (String × Expr))
  /-- A variable, with its dollar sign. -/
  | var (position : Position) (name : String)
  | binary (position : Position) (operator : BinaryOperator) (left right : Expr)
  | unary (position : Position) (operator : UnaryOperator) (operand : Expr)
  | property (position : Position) (target : Expr) (name : String)
  | call (position : Position) (target : Expr) (arguments : List (Option String × Expr))
  /-- The object whose properties are the bare names. -/
  | global (position : Position)
  | storage (position : Position)

namespace Expr

/-- The place of the first token. -/
def position : Expr → Position
  | literal position _ | array position _ | map position _ | var position _
  | binary position _ _ _ | unary position _ _ | property position _ _
  | call position _ _ | global position | storage position => position

/-- The same expression said to begin elsewhere, as a group begins at its parenthesis. -/
def movedTo (place : Position) : Expr → Expr
  | literal _ value => literal place value
  | array _ items => array place items
  | map _ entries => map place entries
  | var _ name => var place name
  | binary _ operator left right => binary place operator left right
  | unary _ operator operand => unary place operator operand
  | property _ target name => property place target name
  | call _ target arguments => call place target arguments
  | global _ => global place
  | storage _ => storage place

/-- The expression is the global object. -/
def isGlobal : Expr → Bool
  | global _ => true
  | _ => false

end Expr

/-- Texts with a comma and a blank between them. -/
def commaSeparated (texts : List String) : String := ", ".intercalate texts

def Literal.text : Literal → String
  | .null => "null"
  | .boolean value => if value then "true" else "false"
  | .number value => Number.text value
  | .string value => Text.quote value

namespace Expr

mutual

/-- An expression close to its source form, as messages show it; parentheses are not
put back. -/
def text : Expr → String
  | literal _ value => value.text
  | array _ items => "[" ++ commaSeparated (itemTexts items) ++ "]"
  | map _ entries => "\x7b" ++ commaSeparated (entryTexts entries) ++ "\x7d"
  | var _ name => name
  | binary _ operator left right =>
      left.text ++ " " ++ operator.symbol ++ " " ++ right.text
  | unary _ operator operand => operator.symbol ++ operand.text
  | property _ target name =>
      if target.isGlobal then name else target.text ++ "." ++ name
  | call _ target arguments =>
      target.text ++ "(" ++ commaSeparated (argumentTexts arguments) ++ ")"
  | global _ => "Global"
  | storage _ => "storage"
termination_by structural expression => expression

def itemTexts : List Expr → List String
  | [] => []
  | item :: rest => item.text :: itemTexts rest
termination_by structural items => items

def entryTexts : List (String × Expr) → List String
  | [] => []
  | (key, value) :: rest => (key ++ ": " ++ value.text) :: entryTexts rest
termination_by structural entries => entries

def argumentTexts : List (Option String × Expr) → List String
  | [] => []
  | (some name, value) :: rest => (name ++ ": " ++ value.text) :: argumentTexts rest
  | (none, value) :: rest => value.text :: argumentTexts rest
termination_by structural arguments => arguments

end

end Expr

inductive Command where
  /-- Binds a variable, whose name keeps its dollar sign. -/
  | setVariable (name : String) (value : Expr)
  /-- Writes an entry of the output table. -/
  | setOutput (name : String) (value : Expr)
  | evaluate (value : Expr)
  | ifElse (condition : Expr) (thenBranch elseBranch : List Command)
  | whileLoop (condition : Expr) (body : List Command)

namespace Command

/-- The expression of a command; of a conditional or a loop its condition. -/
def expression : Command → Expr
  | setVariable _ value | setOutput _ value | evaluate value => value
  | ifElse condition _ _ | whileLoop condition _ => condition

/-- The place that stands for a command. -/
def position (command : Command) : Position := command.expression.position

end Command

abbrev Script := List Command

end MetricScript
