import MetricScript.Proofs.Script.Reading

/-!
# Moving places

Tokens, messages and the trees of scripts at other places.  What stays is everything that is not a
place.  Behind the last token a phrase would see an end token at a place of its own, which does not
move, so a list of tokens moves as a whole only as long as its end is there.
-/

namespace MetricScript

variable {move : Position → Position}

def Token.moved (move : Position → Position) (token : Token) : Token :=
  { token with position := move token.position }

@[simp]
theorem Token.kind_moved (move : Position → Position) (token : Token) :
    (token.moved move).kind = token.kind := rfl

@[simp]
theorem Token.text_moved (move : Position → Position) (token : Token) :
    (token.moved move).text = token.text := rfl

namespace Expr

mutual

/-- The expression with its nodes at other places. -/
def moved (move : Position → Position) : Expr → Expr
  | literal place value => literal (move place) value
  | array place items => array (move place) (movedItems move items)
  | map place entries => map (move place) (movedEntries move entries)
  | var place name => var (move place) name
  | binary place operator left right =>
      binary (move place) operator (left.moved move) (right.moved move)
  | unary place operator operand => unary (move place) operator (operand.moved move)
  | property place target name => property (move place) (target.moved move) name
  | call place target arguments =>
      call (move place) (target.moved move) (movedArguments move arguments)
  | global place => global (move place)
  | storage place => storage (move place)
termination_by structural expression => expression

def movedItems (move : Position → Position) : List Expr → List Expr
  | [] => []
  | item :: rest => item.moved move :: movedItems move rest
termination_by structural items => items

def movedEntries (move : Position → Position) : List (String × Expr) → List (String × Expr)
  | [] => []
  | (key, value) :: rest => (key, value.moved move) :: movedEntries move rest
termination_by structural entries => entries

def movedArguments (move : Position → Position) :
    List (Option String × Expr) → List (Option String × Expr)
  | [] => []
  | (name, value) :: rest => (name, value.moved move) :: movedArguments move rest
termination_by structural arguments => arguments

end

/-- The position of a moved expression is moved. -/
@[simp]
theorem position_moved (move : Position → Position) (value : Expr) :
    (value.moved move).position = move value.position := by
  cases value <;> rfl

theorem moved_movedTo (move : Position → Position) (place : Position) (value : Expr) :
    (value.movedTo place).moved move = (value.moved move).movedTo (move place) := by
  cases value <;> rfl

end Expr

namespace Command

mutual

def moved (move : Position → Position) : Command → Command
  | setVariable name value => setVariable name (value.moved move)
  | setOutput name value => setOutput name (value.moved move)
  | evaluate value => evaluate (value.moved move)
  | ifElse condition thenBranch elseBranch =>
      ifElse (condition.moved move) (movedAll move thenBranch) (movedAll move elseBranch)
  | whileLoop condition body => whileLoop (condition.moved move) (movedAll move body)
termination_by structural command => command

def movedAll (move : Position → Position) : List Command → List Command
  | [] => []
  | command :: rest => command.moved move :: movedAll move rest
termination_by structural commands => commands

end

end Command

def SyntaxError.moved (move : Position → Position) (error : SyntaxError) : SyntaxError :=
  { error with position := move error.position }

/-! ## Token lists with their end -/

/-- The last token is the end. -/
def Closed (tokens : List Token) : Prop := ∃ final ∈ tokens.getLast?, final.kind = .eof

/-- Tokens with an end token behind them are closed. -/
theorem closed_append_eof (own : List Token) {final : Token} (hfinal : final.kind = .eof) :
    Closed (own ++ [final]) := ⟨final, by simp, hfinal⟩

theorem Closed.of_cons {token : Token} {rest : List Token} (hclosed : Closed (token :: rest))
    (hkind : token.kind ≠ .eof) : Closed rest := by
  obtain ⟨final, hmem, hfinal⟩ := hclosed
  cases rest with
  | nil =>
    obtain rfl : token = final := by simpa using hmem
    exact absurd hfinal hkind
  | cons next rest => exact ⟨final, by rwa [List.getLast?_cons_cons] at hmem, hfinal⟩

theorem Closed.tail {tokens : List Token} (hclosed : Closed tokens)
    (hkind : (nextToken tokens).kind ≠ .eof) : Closed tokens.tail := by
  cases tokens with
  | nil => exact absurd rfl hkind
  | cons token rest => exact hclosed.of_cons hkind

/-- Closed tokens have a first one. -/
theorem Closed.eq_cons {tokens : List Token} (hclosed : Closed tokens) :
    tokens = nextToken tokens :: tokens.tail := by
  cases tokens with
  | nil =>
    obtain ⟨_, hmem, _⟩ := hclosed
    cases hmem
  | cons token rest => rfl

/-- The next of the moved tokens is the next token, moved. -/
theorem nextToken_moved {tokens : List Token} (hclosed : Closed tokens) :
    nextToken (tokens.map (Token.moved move)) = (nextToken tokens).moved move := by
  cases tokens with
  | nil =>
    obtain ⟨_, hmem, _⟩ := hclosed
    cases hmem
  | cons token rest => rfl

theorem kind_nextToken_moved (move : Position → Position) (tokens : List Token) :
    (nextToken (tokens.map (Token.moved move))).kind = (nextToken tokens).kind := by
  cases tokens <;> rfl

end MetricScript
