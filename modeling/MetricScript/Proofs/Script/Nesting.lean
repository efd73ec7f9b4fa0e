import Mathlib
import MetricScript.Proofs.Script.Grammar

/-!
# What brackets are open

Which brackets are open at a place of a script can be told from the tokens before it.  Only a brace
may be two things: it opens a map where an operand is due, and a block behind the condition of a
conditional or a loop or behind `else`.  So the head of such a command is followed as well.

The tokens of an expression close what they open, and leave the head as an operand does; the tokens
of a command leave everything as it was.
-/

namespace MetricScript

/-- What a bracket holds. -/
inductive Bracket where
  /-- A group or the arguments of a call. -/
  | paren
  /-- The items of an array. -/
  | square
  /-- The entries of a map. -/
  | map
  /-- The commands of a block. -/
  | block
deriving DecidableEq

/-- How far the head of a conditional or a loop has come. -/
inductive Head where
  /-- There is no such head. -/
  | none
  /-- An operand of its condition is due. -/
  | condition
  /-- Its block may open. -/
  | block
deriving DecidableEq

namespace Head

def operand : Head → Head
  | none => none
  | _ => block

def operator : Head → Head
  | none => none
  | _ => condition

@[simp]
theorem operand_operand (head : Head) : head.operand.operand = head.operand := by
  cases head <;> rfl

@[simp]
theorem operand_operator (head : Head) : head.operator.operand = head.operand := by
  cases head <;> rfl

@[simp]
theorem operator_operand (head : Head) : head.operand.operator = head.operator := by
  cases head <;> rfl

theorem operator_ne_block (head : Head) : head.operator ≠ block := by
  cases head <;> simp [operator]

end Head

/-- The open brackets at a place of a script, the innermost first, and the head that the place is
in. -/
structure Nesting where
  opened : List Bracket
  head : Head
deriving DecidableEq

namespace Nesting

def start : Nesting := ⟨[], .none⟩

/-- No bracket of an expression is open. -/
def Unbracketed (opened : List Bracket) : Prop := ∀ bracket ∈ opened.head?, bracket = .block

instance (opened : List Bracket) : Decidable (Unbracketed opened) :=
  inferInstanceAs (Decidable (∀ bracket ∈ opened.head?, bracket = .block))

/-- The innermost open bracket is this one, and it is a bracket of an expression. -/
def Within (opened : List Bracket) (bracket : Bracket) : Prop :=
  bracket ∈ opened.head? ∧ bracket ≠ .block

def step (nesting : Nesting) : TokenKind → Nesting
  | .leftParen => ⟨.paren :: nesting.opened, nesting.head⟩
  | .leftBracket => ⟨.square :: nesting.opened, nesting.head⟩
  | .leftBrace =>
      if Unbracketed nesting.opened ∧ nesting.head = .block then ⟨.block :: nesting.opened, .none⟩
      else ⟨.map :: nesting.opened, nesting.head⟩
  | .rightParen | .rightBracket | .rightBrace => ⟨nesting.opened.tail, nesting.head.operand⟩
  | .ifKeyword | .whileKeyword => ⟨nesting.opened, .condition⟩
  | .elseKeyword => ⟨nesting.opened, .block⟩
  | .number | .string | .trueLiteral | .falseLiteral | .nullLiteral | .variableName
  | .identifier => ⟨nesting.opened, nesting.head.operand⟩
  | .newline | .semicolon | .comma | .colon | .assign | .eof | .error _ => nesting
  | _ => ⟨nesting.opened, nesting.head.operator⟩

@[simp]
theorem step_leftParen (nesting : Nesting) :
    nesting.step .leftParen = ⟨.paren :: nesting.opened, nesting.head⟩ := rfl

@[simp]
theorem step_leftBracket (nesting : Nesting) :
    nesting.step .leftBracket = ⟨.square :: nesting.opened, nesting.head⟩ := rfl

@[simp]
theorem step_ifKeyword (nesting : Nesting) :
    nesting.step .ifKeyword = ⟨nesting.opened, .condition⟩ := rfl

@[simp]
theorem step_whileKeyword (nesting : Nesting) :
    nesting.step .whileKeyword = ⟨nesting.opened, .condition⟩ := rfl

@[simp]
theorem step_elseKeyword (nesting : Nesting) :
    nesting.step .elseKeyword = ⟨nesting.opened, .block⟩ := rfl

@[simp]
theorem step_comma (nesting : Nesting) : nesting.step .comma = nesting := rfl

@[simp]
theorem step_colon (nesting : Nesting) : nesting.step .colon = nesting := rfl

@[simp]
theorem step_identifier (nesting : Nesting) :
    nesting.step .identifier = ⟨nesting.opened, nesting.head.operand⟩ := rfl

def after (nesting : Nesting) (tokens : List Token) : Nesting :=
  tokens.foldl (fun nesting token => nesting.step token.kind) nesting

@[simp]
theorem after_nil (nesting : Nesting) : nesting.after [] = nesting := rfl

@[simp]
theorem after_cons (nesting : Nesting) (token : Token) (tokens : List Token) :
    nesting.after (token :: tokens) = (nesting.step token.kind).after tokens := rfl

@[simp]
theorem after_append (nesting : Nesting) (left right : List Token) :
    nesting.after (left ++ right) = (nesting.after left).after right := List.foldl_append

/-- A brace would open a map here. -/
def Expects (nesting : Nesting) : Prop := Unbracketed nesting.opened → nesting.head ≠ .block

theorem expects_of_bracket {bracket : Bracket} (hbracket : bracket ≠ .block)
    (opened : List Bracket) (head : Head) : Expects ⟨bracket :: opened, head⟩ :=
  fun hopened => absurd (hopened bracket rfl) hbracket

theorem expects_operator (opened : List Bracket) (head : Head) :
    Expects ⟨opened, head.operator⟩ := fun _ => head.operator_ne_block

theorem expects_none (opened : List Bracket) : Expects ⟨opened, .none⟩ := fun _ => by simp

/-- Where an expression is expected, a brace opens a map. -/
theorem step_map {nesting : Nesting} (hexpects : nesting.Expects) :
    nesting.step .leftBrace = ⟨.map :: nesting.opened, nesting.head⟩ :=
  if_neg fun hblock => hexpects hblock.1 hblock.2

/-- Behind a condition that is complete, a brace opens a block. -/
theorem step_block {opened : List Bracket} (hopened : Unbracketed opened) :
    step ⟨opened, .block⟩ .leftBrace = ⟨.block :: opened, .none⟩ :=
  if_pos ⟨hopened, rfl⟩

theorem unbracketed_start : Unbracketed start.opened := fun _ hmem => by cases hmem

theorem unbracketed_block (opened : List Bracket) : Unbracketed (.block :: opened) := by
  rintro bracket ⟨⟩
  rfl

theorem not_within {opened : List Bracket} (hopened : Unbracketed opened) (bracket : Bracket) :
    ¬ Within opened bracket := fun hwithin => hwithin.2 (hopened bracket hwithin.1)

end Nesting

namespace Grammar

open Nesting (Expects Unbracketed expects_of_bracket expects_operator expects_none)

theorem Newlines.after {breaks : List Token} (hbreaks : Newlines breaks) (nesting : Nesting) :
    nesting.after breaks = nesting := by
  induction breaks with
  | nil => rfl
  | cons token breaks ih =>
    obtain ⟨htoken, hmore⟩ := List.forall_mem_cons.1 hbreaks
    rw [Nesting.after_cons, htoken]
    exact ih hmore

/-- A terminator leaves the nesting as it is. -/
theorem step_of_terminator {kind : TokenKind} (hkind : kind.isTerminator) (nesting : Nesting) :
    nesting.step kind = nesting := by
  have hkind : kind = .newline ∨ kind = .semicolon := by simpa [TokenKind.isTerminator] using hkind
  rcases hkind with rfl | rfl
  · rfl
  · rfl

theorem Terminators.after {ends : List Token} (hends : Terminators ends) (nesting : Nesting) :
    nesting.after ends = nesting := by
  induction ends with
  | nil => rfl
  | cons token ends ih =>
    obtain ⟨htoken, hmore⟩ := List.forall_mem_cons.1 hends
    rw [Nesting.after_cons, step_of_terminator htoken]
    exact ih hmore

theorem OptionalComma.after {commas : List Token} (hcommas : OptionalComma commas)
    (nesting : Nesting) : nesting.after commas = nesting := by
  rcases hcommas with rfl | ⟨comma, hcomma, rfl⟩
  · rfl
  · rw [Nesting.after_cons, hcomma]
    rfl

def isOperator : TokenKind → Bool
  | .plus | .minus | .star | .slash | .equal | .notEqual | .greater | .greaterEqual | .less
  | .lessEqual | .logicalAnd | .logicalOr | .logicalNot => true
  | _ => false

theorem isOperator_of_lookup {level : Parse.Level} {tighter : List Parse.Level} {kind : TokenKind}
    {operator : BinaryOperator} (hlevels : level :: tighter <:+ Parse.levels)
    (hlookup : level.lookup kind = some operator) : isOperator kind := by
  have hkinds : ∀ level ∈ Parse.levels, ∀ entry ∈ level, isOperator entry.1 := by decide
  obtain ⟨before, after, rfl, _⟩ := List.lookup_eq_some_iff.1 hlookup
  exact hkinds _ (hlevels.subset List.mem_cons_self) (kind, operator) (by simp)

theorem isOperator_of_unaryOperator {kind : TokenKind} {operator : UnaryOperator}
    (hsign : Parse.unaryOperator? kind = some operator) : isOperator kind := by
  unfold Parse.unaryOperator? at hsign
  split at hsign
  · rfl
  · rfl
  · rfl
  · cases hsign

theorem step_of_isOperator {kind : TokenKind} (hkind : isOperator kind) (nesting : Nesting) :
    nesting.step kind = ⟨nesting.opened, nesting.head.operator⟩ := by
  cases kind with
  | plus | minus | star | slash | equal | notEqual | greater | greaterEqual | less | lessEqual
  | logicalAnd | logicalOr | logicalNot => rfl
  | _ => cases hkind

theorem LiteralToken.step {token : Token} {value : Literal} (hvalue : LiteralToken token value)
    (nesting : Nesting) : nesting.step token.kind = ⟨nesting.opened, nesting.head.operand⟩ := by
  cases hvalue with
  | number hkind _ | string hkind | true hkind | false hkind | null hkind => rw [hkind]; rfl

theorem KeyToken.step {token : Token} {key : String} (hkey : KeyToken token key)
    (nesting : Nesting) : nesting.step token.kind = ⟨nesting.opened, nesting.head.operand⟩ := by
  cases hkey with
  | name hkind | string hkind => rw [hkind]; rfl

/-! ## Expressions -/

mutual

theorem Binary.after {levels : List Parse.Level} (hlevels : levels <:+ Parse.levels)
    {own : List Token} {value : Expr} : Binary levels own value → ∀ {nesting : Nesting},
      nesting.Expects → nesting.after own = ⟨nesting.opened, nesting.head.operand⟩
  | .operand hvalue => hvalue.after
  | .tighter hvalue => hvalue.after ((List.suffix_cons _ _).trans hlevels)
  | .joined hleft hsign hright => fun hexpects => by
      rw [Nesting.after_append, hleft.after hlevels hexpects, Nesting.after_cons,
        step_of_isOperator (isOperator_of_lookup hlevels hsign),
        hright.after ((List.suffix_cons _ _).trans hlevels) (expects_operator _ _)]
      simp

theorem Unary.after {own : List Token} {value : Expr} : Unary own value → ∀ {nesting : Nesting},
    nesting.Expects → nesting.after own = ⟨nesting.opened, nesting.head.operand⟩
  | .plain hvalue => hvalue.after
  | .signed hsign hvalue => fun _ => by
      rw [Nesting.after_cons, step_of_isOperator (isOperator_of_unaryOperator hsign),
        hvalue.after (expects_operator _ _)]
      simp

theorem Suffixed.after {own : List Token} {value : Expr} :
    Suffixed own value → ∀ {nesting : Nesting},
      nesting.Expects → nesting.after own = ⟨nesting.opened, nesting.head.operand⟩
  | .plain hvalue => hvalue.after
  | .property htarget hdot hname => fun hexpects => by
      rw [Nesting.after_append, htarget.after hexpects]
      simp [hdot, hname, Nesting.step]
  | .call htarget hopening harguments => fun hexpects => by
      rw [Nesting.after_append, htarget.after hexpects, Nesting.after_cons, hopening]
      exact (harguments.after _ _).trans (by simp)

theorem Arguments.after {own : List Token} {arguments : List (Option String × Expr)} :
    Arguments own arguments → ∀ (opened : List Bracket) (head : Head),
      Nesting.after ⟨.paren :: opened, head⟩ own = ⟨opened, head.operand⟩
  | .none hbreaks hclosing => fun opened head => by
      rw [Nesting.after_append, hbreaks.after]
      simp [hclosing, Nesting.step]
  | .some hbreaks harguments _ => fun opened head => by
      rw [Nesting.after_append, hbreaks.after, harguments.after]

theorem Argument.after {own : List Token} {argument : Option String × Expr} :
    Argument own argument → ∀ (opened : List Bracket) (head : Head),
      Nesting.after ⟨.paren :: opened, head⟩ own = ⟨.paren :: opened, head.operand⟩
  | .named hname hcolon hvalue => fun opened head => by
      rw [Nesting.after_cons, Nesting.after_cons, hname, hcolon, Nesting.step_colon,
        Nesting.step_identifier, hvalue.after List.suffix_rfl (expects_of_bracket (by simp) _ _)]
      simp
  | .unnamed hvalue => fun _ _ => hvalue.after List.suffix_rfl (expects_of_bracket (by simp) _ _)

theorem ArgumentList.after {own : List Token} {arguments : List (Option String × Expr)} :
    ArgumentList own arguments → ∀ (opened : List Bracket) (head : Head),
      Nesting.after ⟨.paren :: opened, head⟩ own = ⟨opened, head.operand⟩
  | .last hargument hbreaks hclosing => fun opened head => by
      rw [Nesting.after_append, hargument.after, Nesting.after_append, hbreaks.after]
      simp [hclosing, Nesting.step]
  | .next hargument hbefore hcomma hafter hrest => fun opened head => by
      rw [Nesting.after_append, hargument.after, Nesting.after_append, hbefore.after,
        Nesting.after_cons, hcomma, Nesting.after_append, hafter.after]
      exact (hrest.after _ _).trans (by simp)

/-- Behind an operand the brackets are as they were before it. -/
theorem Primary.after {own : List Token} {value : Expr} :
    Primary own value → ∀ {nesting : Nesting},
      nesting.Expects → nesting.after own = ⟨nesting.opened, nesting.head.operand⟩
  | .literal hvalue => fun _ => hvalue.step _
  | .var hkind | .storage hkind _ | .name hkind _ => fun _ => by
      rw [Nesting.after_cons, hkind]
      rfl
  | .group hopening hbefore hvalue hafter hclosing => fun _ => by
      rw [Nesting.after_cons, hopening, Nesting.step_leftParen, Nesting.after_append, hbefore.after,
        Nesting.after_append, hvalue.after List.suffix_rfl (expects_of_bracket (by simp) _ _),
        Nesting.after_append, hafter.after]
      simp [hclosing, Nesting.step]
  | .array hopening hitems => fun _ => by
      rw [Nesting.after_cons, hopening]
      exact hitems.after _ _
  | .map hopening hentries => fun hexpects => by
      rw [Nesting.after_cons, hopening, Nesting.step_map hexpects]
      exact hentries.after _ _

theorem Items.after {own : List Token} {items : List Expr} :
    Items own items → ∀ (opened : List Bracket) (head : Head),
      Nesting.after ⟨.square :: opened, head⟩ own = ⟨opened, head.operand⟩
  | .none hbreaks hclosing => fun opened head => by
      rw [Nesting.after_append, hbreaks.after]
      simp [hclosing, Nesting.step]
  | .some hbreaks hitems => fun opened head => by
      rw [Nesting.after_append, hbreaks.after, hitems.after]

theorem ItemList.after {own : List Token} {items : List Expr} :
    ItemList own items → ∀ (opened : List Bracket) (head : Head),
      Nesting.after ⟨.square :: opened, head⟩ own = ⟨opened, head.operand⟩
  | .last hitem hbreaks hclosing => fun opened head => by
      rw [Nesting.after_append, hitem.after List.suffix_rfl (expects_of_bracket (by simp) _ _),
        Nesting.after_append, hbreaks.after]
      simp [hclosing, Nesting.step]
  | .next hitem hbefore hcomma hafter hrest => fun opened head => by
      rw [Nesting.after_append, hitem.after List.suffix_rfl (expects_of_bracket (by simp) _ _),
        Nesting.after_append, hbefore.after, Nesting.after_cons, hcomma, Nesting.after_append,
        hafter.after]
      exact (hrest.after _ _).trans (by simp)

/-- Behind the entries of a map the brace of the map is closed. -/
theorem Entries.after {own : List Token} {entries : List (String × Expr)} :
    Entries own entries → ∀ (opened : List Bracket) (head : Head),
      Nesting.after ⟨.map :: opened, head⟩ own = ⟨opened, head.operand⟩
  | .none hbreaks hclosing => fun opened head => by
      rw [Nesting.after_append, hbreaks.after]
      simp [hclosing, Nesting.step]
  | .next hbreaks hkey hcolon hmiddle hvalue hafter hcommas hrest => fun opened head => by
      rw [Nesting.after_append, hbreaks.after, Nesting.after_cons, hkey.step, Nesting.after_cons,
        hcolon, Nesting.step_colon, Nesting.after_append, hmiddle.after, Nesting.after_append,
        hvalue.after List.suffix_rfl (expects_of_bracket (by simp) _ _), Nesting.after_append,
        hafter.after, Nesting.after_append, hcommas.after, hrest.after]
      simp

end

/-! ## Commands -/

theorem step_of_assign {kind : TokenKind} (hsign : kind = .colon ∨ kind = .assign)
    (nesting : Nesting) : nesting.step kind = nesting := by
  rcases hsign with rfl | rfl
  · rfl
  · rfl

theorem Simple.after {own : List Token} {command : Command} (hcommand : Simple own command)
    (opened : List Bracket) : Nesting.after ⟨opened, .none⟩ own = ⟨opened, .none⟩ := by
  cases hcommand with
  | setVariable hname hsign hvalue | setOutput hname hsign hvalue =>
    rw [Nesting.after_cons, Nesting.after_cons, step_of_assign hsign, hname]
    exact hvalue.after List.suffix_rfl (expects_none opened)
  | evaluate hvalue => exact hvalue.after List.suffix_rfl (expects_none opened)

/-- Behind the condition the block may open. -/
theorem condition_after {test : List Token} {condition : Expr}
    (hcondition : Expression test condition) (opened : List Bracket) :
    Nesting.after ⟨opened, .condition⟩ test = ⟨opened, .block⟩ :=
  hcondition.after List.suffix_rfl fun _ => by simp

mutual

/-- Behind a conditional no bracket is open that was not open before. -/
theorem Conditional.after {opened : List Bracket} (hopened : Unbracketed opened) {own : List Token}
    {command : Command} : Conditional own command → ∀ head,
      Nesting.after ⟨opened, head⟩ own = ⟨opened, .none⟩
  | .plain hkeyword hcondition hthen => fun head => by
      rw [Nesting.after_cons, hkeyword, Nesting.step_ifKeyword, Nesting.after_append,
        condition_after hcondition, hthen.after hopened]
  | .otherwise hkeyword hcondition hthen hbreaks hotherwise helse => fun head => by
      rw [Nesting.after_cons, hkeyword, Nesting.step_ifKeyword, Nesting.after_append,
        condition_after hcondition, Nesting.after_append, hthen.after hopened,
        Nesting.after_append, hbreaks.after, Nesting.after_cons, hotherwise,
        Nesting.step_elseKeyword, helse.after hopened]
  | .chained hkeyword hcondition hthen hbreaks hotherwise helse => fun head => by
      rw [Nesting.after_cons, hkeyword, Nesting.step_ifKeyword, Nesting.after_append,
        condition_after hcondition, Nesting.after_append, hthen.after hopened,
        Nesting.after_append, hbreaks.after, Nesting.after_cons, hotherwise,
        Nesting.step_elseKeyword, helse.after hopened]

theorem Block.after {opened : List Bracket} (hopened : Unbracketed opened) {own : List Token}
    {commands : List Command} : Block own commands →
      Nesting.after ⟨opened, .block⟩ own = ⟨opened, .none⟩
  | .braces hbreaks hopening hcommands hclosing => by
      rw [Nesting.after_append, hbreaks.after, Nesting.after_cons, hopening,
        Nesting.step_block hopened, Nesting.after_append,
        hcommands.after (Nesting.unbracketed_block opened)]
      simp [hclosing, Nesting.step, Head.operand]

theorem Compound.after {opened : List Bracket} (hopened : Unbracketed opened) {own : List Token}
    {command : Command} : Compound own command →
      Nesting.after ⟨opened, .none⟩ own = ⟨opened, .none⟩
  | .conditional hcommand => hcommand.after hopened .none
  | .loop hkeyword hcondition hbody => by
      rw [Nesting.after_cons, hkeyword, Nesting.step_whileKeyword, Nesting.after_append,
        condition_after hcondition, hbody.after hopened]

theorem Commands.after {opened : List Bracket} (hopened : Unbracketed opened) {own : List Token}
    {commands : List Command} : Commands own commands →
      Nesting.after ⟨opened, .none⟩ own = ⟨opened, .none⟩
  | .none hends => hends.after _
  | .simple hends hcommand _ hrest => by
      rw [Nesting.after_append, hends.after, Nesting.after_append, hcommand.after,
        hrest.after hopened]
  | .compound hends hcommand hrest => by
      rw [Nesting.after_append, hends.after, Nesting.after_append, hcommand.after hopened,
        hrest.after hopened]

end

end Grammar

end MetricScript
