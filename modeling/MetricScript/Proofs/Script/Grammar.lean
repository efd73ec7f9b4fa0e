import MetricScript.Proofs.Script.Reading

/-!
# The grammar of scripts

Which lists of tokens make up which trees, said by rules and without any reading order.
Each rule names all the tokens that it covers, so a newline or a semicolon can stand only
where a rule has a place for it, and every node of the tree gets the place of the first
token that its rule covers.

Binary operators are joined by the table of levels: the left operand of an operator may
use the operator's own level again, the right operand only tighter ones.
-/

namespace MetricScript.Grammar

/-- The place of the first of some tokens. -/
def anchor (tokens : List Token) : Position := (nextToken tokens).position

def Newlines (tokens : List Token) : Prop := ∀ token ∈ tokens, token.kind = .newline

/-- Newlines and semicolons only. -/
def Terminators (tokens : List Token) : Prop := ∀ token ∈ tokens, token.kind.isTerminator

def OptionalComma (tokens : List Token) : Prop :=
  tokens = [] ∨ ∃ comma : Token, comma.kind = .comma ∧ tokens = [comma]

def argumentNames (arguments : List (Option String × Expr)) : List String :=
  arguments.filterMap Prod.fst

inductive LiteralToken : Token → Literal → Prop
  | number {token : Token} {value : Float} (hkind : token.kind = .number)
      (hread : Number.read? token.text = some value) : LiteralToken token (.number value)
  | string {token : Token} (hkind : token.kind = .string) :
      LiteralToken token (.string (unescape token.text))
  | true {token : Token} (hkind : token.kind = .trueLiteral) : LiteralToken token (.boolean true)
  | false {token : Token} (hkind : token.kind = .falseLiteral) :
      LiteralToken token (.boolean false)
  | null {token : Token} (hkind : token.kind = .nullLiteral) : LiteralToken token .null

inductive KeyToken : Token → String → Prop
  | name {token : Token} (hkind : token.kind = .identifier) : KeyToken token token.text
  | string {token : Token} (hkind : token.kind = .string) : KeyToken token (unescape token.text)

mutual

/-- Operands joined by the operators of some levels. -/
inductive Binary : List Parse.Level → List Token → Expr → Prop
  | operand {own : List Token} {value : Expr} (hvalue : Unary own value) : Binary [] own value
  | tighter {level : Parse.Level} {tighter : List Parse.Level} {own : List Token} {value : Expr}
      (hvalue : Binary tighter own value) : Binary (level :: tighter) own value
  | joined {level : Parse.Level} {tighter : List Parse.Level} {left right : List Token}
      {sign : Token} {operator : BinaryOperator} {leftValue rightValue : Expr}
      (hleft : Binary (level :: tighter) left leftValue)
      (hsign : level.lookup sign.kind = some operator)
      (hright : Binary tighter right rightValue) :
      Binary (level :: tighter) (left ++ sign :: right)
        (.binary (anchor (left ++ sign :: right)) operator leftValue rightValue)

/-- Unary operators before an operand. -/
inductive Unary : List Token → Expr → Prop
  | plain {own : List Token} {value : Expr} (hvalue : Suffixed own value) : Unary own value
  | signed {sign : Token} {operator : UnaryOperator} {own : List Token} {value : Expr}
      (hsign : Parse.unaryOperator? sign.kind = some operator) (hvalue : Unary own value) :
      Unary (sign :: own) (.unary sign.position operator value)

/-- Properties and calls of a value. -/
inductive Suffixed : List Token → Expr → Prop
  | plain {own : List Token} {value : Expr} (hvalue : Primary own value) : Suffixed own value
  | property {own : List Token} {dot name : Token} {target : Expr}
      (htarget : Suffixed own target) (hdot : dot.kind = .dot)
      (hname : name.kind = .identifier) :
      Suffixed (own ++ [dot, name]) (.property (anchor (own ++ [dot, name])) target name.text)
  | call {own list : List Token} {opening : Token} {target : Expr}
      {arguments : List (Option String × Expr)}
      (htarget : Suffixed own target) (hopening : opening.kind = .leftParen)
      (harguments : Arguments list arguments) :
      Suffixed (own ++ opening :: list)
        (.call (anchor (own ++ opening :: list)) target arguments)

/-- Arguments behind an opening parenthesis, with the closing one. -/
inductive Arguments : List Token → List (Option String × Expr) → Prop
  | none {breaks : List Token} {closing : Token} (hbreaks : Newlines breaks)
      (hclosing : closing.kind = .rightParen) : Arguments (breaks ++ [closing]) []
  | some {breaks own : List Token} {arguments : List (Option String × Expr)}
      (hbreaks : Newlines breaks) (harguments : ArgumentList own arguments)
      (hdistinct : (argumentNames arguments).Nodup) : Arguments (breaks ++ own) arguments

inductive Argument : List Token → Option String × Expr → Prop
  | named {name colon : Token} {own : List Token} {value : Expr}
      (hname : name.kind = .identifier) (hcolon : colon.kind = .colon)
      (hvalue : Binary Parse.levels own value) :
      Argument (name :: colon :: own) (some name.text, value)
  | unnamed {own : List Token} {value : Expr} (hvalue : Binary Parse.levels own value) :
      Argument own (none, value)

/-- One or more arguments with commas between them, and the closing parenthesis. -/
inductive ArgumentList : List Token → List (Option String × Expr) → Prop
  | last {own breaks : List Token} {closing : Token} {argument : Option String × Expr}
      (hargument : Argument own argument) (hbreaks : Newlines breaks)
      (hclosing : closing.kind = .rightParen) :
      ArgumentList (own ++ (breaks ++ [closing])) [argument]
  | next {own before after rest : List Token} {comma : Token}
      {argument : Option String × Expr} {arguments : List (Option String × Expr)}
      (hargument : Argument own argument) (hbefore : Newlines before)
      (hcomma : comma.kind = .comma) (hafter : Newlines after)
      (hrest : ArgumentList rest arguments) :
      ArgumentList (own ++ (before ++ comma :: (after ++ rest))) (argument :: arguments)

/-- Values that are written with a token of their own or between brackets. -/
inductive Primary : List Token → Expr → Prop
  | literal {token : Token} {value : Literal} (hvalue : LiteralToken token value) :
      Primary [token] (.literal token.position value)
  | var {token : Token} (hkind : token.kind = .variableName) :
      Primary [token] (.var token.position token.text)
  | storage {token : Token} (hkind : token.kind = .identifier) (htext : token.text = "storage") :
      Primary [token] (.storage token.position)
  | name {token : Token} (hkind : token.kind = .identifier) (htext : token.text ≠ "storage") :
      Primary [token] (.property token.position (.global token.position) token.text)
  | group {opening closing : Token} {before own after : List Token} {value : Expr}
      (hopening : opening.kind = .leftParen) (hbefore : Newlines before)
      (hvalue : Binary Parse.levels own value) (hafter : Newlines after)
      (hclosing : closing.kind = .rightParen) :
      Primary (opening :: (before ++ (own ++ (after ++ [closing]))))
        (value.movedTo opening.position)
  | array {opening : Token} {own : List Token} {items : List Expr}
      (hopening : opening.kind = .leftBracket) (hitems : Items own items) :
      Primary (opening :: own) (.array opening.position items)
  | map {opening : Token} {own : List Token} {entries : List (String × Expr)}
      (hopening : opening.kind = .leftBrace) (hentries : Entries own entries) :
      Primary (opening :: own) (.map opening.position entries)

/-- The items of an array behind its opening bracket, with the closing one. -/
inductive Items : List Token → List Expr → Prop
  | none {breaks : List Token} {closing : Token} (hbreaks : Newlines breaks)
      (hclosing : closing.kind = .rightBracket) : Items (breaks ++ [closing]) []
  | some {breaks own : List Token} {items : List Expr} (hbreaks : Newlines breaks)
      (hitems : ItemList own items) : Items (breaks ++ own) items

/-- One or more items with commas between them, and the closing bracket. -/
inductive ItemList : List Token → List Expr → Prop
  | last {own breaks : List Token} {closing : Token} {item : Expr}
      (hitem : Binary Parse.levels own item) (hbreaks : Newlines breaks)
      (hclosing : closing.kind = .rightBracket) : ItemList (own ++ (breaks ++ [closing])) [item]
  | next {own before after rest : List Token} {comma : Token} {item : Expr} {items : List Expr}
      (hitem : Binary Parse.levels own item) (hbefore : Newlines before)
      (hcomma : comma.kind = .comma) (hafter : Newlines after) (hrest : ItemList rest items) :
      ItemList (own ++ (before ++ comma :: (after ++ rest))) (item :: items)

/-- The entries of a map behind its opening brace, with the closing one. -/
inductive Entries : List Token → List (String × Expr) → Prop
  | none {breaks : List Token} {closing : Token} (hbreaks : Newlines breaks)
      (hclosing : closing.kind = .rightBrace) : Entries (breaks ++ [closing]) []
  | next {breaks middle own after commas rest : List Token} {token colon : Token} {key : String}
      {value : Expr} {entries : List (String × Expr)}
      (hbreaks : Newlines breaks) (hkey : KeyToken token key) (hcolon : colon.kind = .colon)
      (hmiddle : Newlines middle) (hvalue : Binary Parse.levels own value)
      (hafter : Newlines after) (hcommas : OptionalComma commas) (hrest : Entries rest entries) :
      Entries (breaks ++ token :: colon :: (middle ++ (own ++ (after ++ (commas ++ rest)))))
        ((key, value) :: entries)

end

/-- Expressions use all levels of the table. -/
abbrev Expression (own : List Token) (value : Expr) : Prop := Binary Parse.levels own value

/-- Commands that need an end behind them. -/
inductive Simple : List Token → Command → Prop
  | setVariable {name sign : Token} {own : List Token} {value : Expr}
      (hname : name.kind = .variableName) (hsign : sign.kind = .colon ∨ sign.kind = .assign)
      (hvalue : Expression own value) :
      Simple (name :: sign :: own) (.setVariable name.text value)
  | setOutput {name sign : Token} {own : List Token} {value : Expr}
      (hname : name.kind = .identifier) (hsign : sign.kind = .colon ∨ sign.kind = .assign)
      (hvalue : Expression own value) :
      Simple (name :: sign :: own) (.setOutput name.text value)
  | evaluate {own : List Token} {value : Expr} (hvalue : Expression own value) :
      Simple own (.evaluate value)

/-- What may follow a simple command among the commands of a script or of a block: nothing
more, or a newline or a semicolon. -/
def Separated (rest : List Token) : Prop :=
  rest = [] ∨ (nextToken rest).kind.isTerminator = true

def EndsCommand (kind : TokenKind) : Prop :=
  kind.isTerminator ∨ kind = .rightBrace ∨ kind = .eof

mutual

inductive Conditional : List Token → Command → Prop
  | plain {keyword : Token} {test own : List Token} {condition : Expr}
      {thenBranch : List Command} (hkeyword : keyword.kind = .ifKeyword)
      (hcondition : Expression test condition) (hthen : Block own thenBranch) :
      Conditional (keyword :: (test ++ own)) (.ifElse condition thenBranch [])
  | otherwise {keyword otherwise : Token} {test own breaks other : List Token}
      {condition : Expr} {thenBranch elseBranch : List Command}
      (hkeyword : keyword.kind = .ifKeyword) (hcondition : Expression test condition)
      (hthen : Block own thenBranch) (hbreaks : Newlines breaks)
      (hotherwise : otherwise.kind = .elseKeyword) (helse : Block other elseBranch) :
      Conditional (keyword :: (test ++ (own ++ (breaks ++ otherwise :: other))))
        (.ifElse condition thenBranch elseBranch)
  | chained {keyword otherwise : Token} {test own breaks other : List Token}
      {condition : Expr} {thenBranch : List Command} {inner : Command}
      (hkeyword : keyword.kind = .ifKeyword) (hcondition : Expression test condition)
      (hthen : Block own thenBranch) (hbreaks : Newlines breaks)
      (hotherwise : otherwise.kind = .elseKeyword) (helse : Conditional other inner) :
      Conditional (keyword :: (test ++ (own ++ (breaks ++ otherwise :: other))))
        (.ifElse condition thenBranch [inner])

/-- Commands that end with a block and need no end behind them. -/
inductive Compound : List Token → Command → Prop
  | conditional {own : List Token} {command : Command} (hcommand : Conditional own command) :
      Compound own command
  | loop {keyword : Token} {test own : List Token} {condition : Expr} {body : List Command}
      (hkeyword : keyword.kind = .whileKeyword) (hcondition : Expression test condition)
      (hbody : Block own body) :
      Compound (keyword :: (test ++ own)) (.whileLoop condition body)

inductive Block : List Token → List Command → Prop
  | braces {breaks own : List Token} {opening closing : Token} {commands : List Command}
      (hbreaks : Newlines breaks) (hopening : opening.kind = .leftBrace)
      (hcommands : Commands own commands) (hclosing : closing.kind = .rightBrace) :
      Block (breaks ++ opening :: (own ++ [closing])) commands

inductive Commands : List Token → List Command → Prop
  | none {ends : List Token} (hends : Terminators ends) : Commands ends []
  | simple {ends own rest : List Token} {command : Command} {commands : List Command}
      (hends : Terminators ends) (hcommand : Simple own command) (hseparated : Separated rest)
      (hrest : Commands rest commands) : Commands (ends ++ (own ++ rest)) (command :: commands)
  | compound {ends own rest : List Token} {command : Command} {commands : List Command}
      (hends : Terminators ends) (hcommand : Compound own command)
      (hrest : Commands rest commands) : Commands (ends ++ (own ++ rest)) (command :: commands)

end

/-- The tokens of a script: those of its commands, and the end. -/
inductive Script : List Token → MetricScript.Script → Prop
  | commands {own : List Token} {final : Token} {commands : MetricScript.Script}
      (hcommands : Commands own commands) (hfinal : final.kind = .eof) :
      Script (own ++ [final]) commands

/-! ## Every node begins at its first token -/

/-- The anchor of a derivation is the position of its first token. -/
theorem anchor_append {own : List Token} (hown : own ≠ []) (rest : List Token) :
    anchor (own ++ rest) = anchor own := by
  rw [anchor, anchor, nextToken_append_of_ne_nil hown]

@[simp]
theorem position_movedTo (place : Position) (value : Expr) :
    (value.movedTo place).position = place := by
  cases value <;> rfl

theorem Primary.anchored {own : List Token} {value : Expr} (hvalue : Primary own value) :
    own ≠ [] ∧ value.position = anchor own := by
  cases hvalue with
  | group => exact ⟨List.cons_ne_nil _ _, position_movedTo _ _⟩
  | literal | var | storage | name | array | map => exact ⟨List.cons_ne_nil _ _, rfl⟩

mutual

theorem Suffixed.anchored {own : List Token} {value : Expr} :
    Suffixed own value → own ≠ [] ∧ value.position = anchor own
  | .plain hvalue => hvalue.anchored
  | .property _ _ _ | .call _ _ _ => ⟨by simp, rfl⟩

theorem Unary.anchored {own : List Token} {value : Expr} :
    Unary own value → own ≠ [] ∧ value.position = anchor own
  | .plain hvalue => hvalue.anchored
  | .signed _ _ => ⟨by simp, rfl⟩

theorem Binary.anchored {levels : List Parse.Level} {own : List Token} {value : Expr} :
    Binary levels own value → own ≠ [] ∧ value.position = anchor own
  | .operand hvalue => hvalue.anchored
  | .tighter hvalue => hvalue.anchored
  | .joined _ _ _ => ⟨by simp, rfl⟩

end

/-! ## How phrases begin -/

def beginsExpression : TokenKind → Bool
  | .number | .string | .trueLiteral | .falseLiteral | .nullLiteral | .variableName
  | .identifier | .leftParen | .leftBracket | .leftBrace | .minus | .plus | .logicalNot => true
  | _ => false

def beginsCommand (kind : TokenKind) : Bool :=
  beginsExpression kind || kind = .ifKeyword || kind = .whileKeyword

theorem Primary.begins {own : List Token} {value : Expr} (hvalue : Primary own value) :
    beginsExpression (nextToken own).kind := by
  cases hvalue with
  | literal hvalue =>
    cases hvalue with
    | number hkind _ | string hkind | true hkind | false hkind | null hkind =>
      simp [hkind, beginsExpression]
  | var hkind | storage hkind _ | name hkind _ => simp [hkind, beginsExpression]
  | group hopening | array hopening | map hopening => simp [hopening, beginsExpression]

theorem beginsExpression_of_unaryOperator {kind : TokenKind} {operator : UnaryOperator}
    (hsign : Parse.unaryOperator? kind = some operator) : beginsExpression kind := by
  unfold Parse.unaryOperator? at hsign
  split at hsign
  · rfl
  · rfl
  · rfl
  · exact nomatch hsign

mutual

theorem Suffixed.begins {own : List Token} {value : Expr} :
    Suffixed own value → beginsExpression (nextToken own).kind
  | .plain hvalue => hvalue.begins
  | .property htarget _ _ => by
      rw [nextToken_append_of_ne_nil htarget.anchored.1]
      exact htarget.begins
  | .call htarget _ _ => by
      rw [nextToken_append_of_ne_nil htarget.anchored.1]
      exact htarget.begins

theorem Unary.begins {own : List Token} {value : Expr} :
    Unary own value → beginsExpression (nextToken own).kind
  | .plain hvalue => hvalue.begins
  | .signed hsign _ => beginsExpression_of_unaryOperator hsign

theorem Binary.begins {levels : List Parse.Level} {own : List Token} {value : Expr} :
    Binary levels own value → beginsExpression (nextToken own).kind
  | .operand hvalue => hvalue.begins
  | .tighter hvalue => hvalue.begins
  | .joined hleft _ _ => by
      rw [nextToken_append_of_ne_nil hleft.anchored.1]
      exact hleft.begins

end

theorem Simple.begins {own : List Token} {command : Command} (hcommand : Simple own command) :
    own ≠ [] ∧ beginsCommand (nextToken own).kind := by
  cases hcommand with
  | setVariable hname | setOutput hname => simp [hname, beginsCommand, beginsExpression]
  | evaluate hvalue =>
    exact ⟨hvalue.anchored.1, by simp [beginsCommand, hvalue.begins]⟩

theorem Compound.begins {own : List Token} {command : Command}
    (hcommand : Compound own command) : own ≠ [] ∧ beginsCommand (nextToken own).kind := by
  cases hcommand with
  | conditional hcommand =>
    cases hcommand with
    | plain hkeyword | otherwise hkeyword | chained hkeyword => simp [hkeyword, beginsCommand]
  | loop hkeyword => simp [hkeyword, beginsCommand]

/-- Commands begin with a newline, a semicolon or a command. -/
theorem Commands.begins {own : List Token} {commands : List Command}
    (hcommands : Commands own commands) (hown : own ≠ []) :
    (nextToken own).kind.isTerminator ∨ beginsCommand (nextToken own).kind := by
  have hends {ends : List Token} (hends : Terminators ends) (hne : ends ≠ []) :
      (nextToken ends).kind.isTerminator := by
    cases ends with
    | nil => exact absurd rfl hne
    | cons token ends => exact hends token List.mem_cons_self
  have hfront {ends own rest : List Token} (hterminators : Terminators ends) (hown : own ≠ [])
      (hbegins : beginsCommand (nextToken own).kind) :
      (nextToken (ends ++ (own ++ rest))).kind.isTerminator ∨
        beginsCommand (nextToken (ends ++ (own ++ rest))).kind := by
    by_cases hne : ends = []
    · subst hne
      rw [List.nil_append, nextToken_append_of_ne_nil hown]
      exact .inr hbegins
    · rw [nextToken_append_of_ne_nil hne]
      exact .inl (hends hterminators hne)
  cases hcommands with
  | none hterminators => exact .inl (hends hterminators hown)
  | simple hterminators hcommand =>
    exact hfront hterminators hcommand.begins.1 hcommand.begins.2
  | compound hterminators hcommand =>
    exact hfront hterminators hcommand.begins.1 hcommand.begins.2

/-! ## No rule covers an invalid token -/

/-- Kinds of tokens that stand for something in a script. -/
def isValid : TokenKind → Bool
  | .eof | .error _ => false
  | _ => true

def AllValid (tokens : List Token) : Prop := ∀ token ∈ tokens, isValid token.kind

@[simp]
theorem allValid_nil : AllValid [] := fun _ hmem => nomatch hmem

@[simp]
theorem allValid_cons (token : Token) (rest : List Token) :
    AllValid (token :: rest) ↔ isValid token.kind ∧ AllValid rest :=
  List.forall_mem_cons

@[simp]
theorem allValid_append (left right : List Token) :
    AllValid (left ++ right) ↔ AllValid left ∧ AllValid right :=
  List.forall_mem_append

theorem valid_of_kind {kind expected : TokenKind} (hkind : kind = expected)
    (hvalid : isValid expected := by rfl) : isValid kind :=
  hkind ▸ hvalid

theorem Newlines.allValid {tokens : List Token} (hbreaks : Newlines tokens) : AllValid tokens :=
  fun token hmem => valid_of_kind (hbreaks token hmem)

theorem Terminators.allValid {tokens : List Token} (hends : Terminators tokens) :
    AllValid tokens := by
  intro token hmem
  have hkind : token.kind = .newline ∨ token.kind = .semicolon := by
    simpa [TokenKind.isTerminator] using hends token hmem
  rcases hkind with hkind | hkind
  · exact valid_of_kind hkind
  · exact valid_of_kind hkind

theorem OptionalComma.allValid {tokens : List Token} (hcommas : OptionalComma tokens) :
    AllValid tokens := by
  rcases hcommas with rfl | ⟨comma, hkind, rfl⟩
  · simp
  · simpa using valid_of_kind hkind

theorem LiteralToken.valid {token : Token} {value : Literal} (hvalue : LiteralToken token value) :
    isValid token.kind := by
  cases hvalue with
  | number hkind _ | string hkind | true hkind | false hkind | null hkind =>
    exact valid_of_kind hkind

theorem KeyToken.valid {token : Token} {key : String} (hkey : KeyToken token key) :
    isValid token.kind := by
  cases hkey with
  | name hkind | string hkind => exact valid_of_kind hkind

/-- The table of levels has no entry for the end or for an invalid token. -/
theorem valid_of_lookup {level : Parse.Level} {kind : TokenKind} {operator : BinaryOperator}
    (hlevel : level ∈ Parse.levels) (hlookup : level.lookup kind = some operator) :
    isValid kind := by
  have hkinds : ∀ level ∈ Parse.levels, ∀ entry ∈ level, isValid entry.1 := by decide
  obtain ⟨before, after, rfl, _⟩ := List.lookup_eq_some_iff.1 hlookup
  exact hkinds _ hlevel (kind, operator) (by simp)

/-- A sign is no error token. -/
theorem valid_of_unaryOperator {kind : TokenKind} {operator : UnaryOperator}
    (hsign : Parse.unaryOperator? kind = some operator) : isValid kind := by
  cases kind with
  | eof | error => simp [Parse.unaryOperator?] at hsign
  | _ => rfl

mutual

theorem Binary.allValid {levels : List Parse.Level} {own : List Token} {value : Expr}
    (hlevels : levels <:+ Parse.levels) : Binary levels own value → AllValid own
  | .operand hvalue => hvalue.allValid
  | .tighter hvalue => hvalue.allValid ((List.suffix_cons _ _).trans hlevels)
  | .joined hleft hsign hright => by
      have htighter := (List.suffix_cons _ _).trans hlevels
      have hlevel := hlevels.subset List.mem_cons_self
      simpa using ⟨hleft.allValid hlevels, valid_of_lookup hlevel hsign,
        hright.allValid htighter⟩

theorem Unary.allValid {own : List Token} {value : Expr} : Unary own value → AllValid own
  | .plain hvalue => hvalue.allValid
  | .signed hsign hvalue => by
      simpa using ⟨valid_of_unaryOperator hsign, hvalue.allValid⟩

theorem Suffixed.allValid {own : List Token} {value : Expr} : Suffixed own value → AllValid own
  | .plain hvalue => hvalue.allValid
  | .property htarget hdot hname => by
      simpa using ⟨htarget.allValid, valid_of_kind hdot, valid_of_kind hname⟩
  | .call htarget hopening harguments => by
      simpa using ⟨htarget.allValid, valid_of_kind hopening, harguments.allValid⟩

theorem Arguments.allValid {own : List Token} {arguments : List (Option String × Expr)} :
    Arguments own arguments → AllValid own
  | .none hbreaks hclosing => by simpa using ⟨hbreaks.allValid, valid_of_kind hclosing⟩
  | .some hbreaks harguments _ => by simpa using ⟨hbreaks.allValid, harguments.allValid⟩

theorem Argument.allValid {own : List Token} {argument : Option String × Expr} :
    Argument own argument → AllValid own
  | .named hname hcolon hvalue => by
      simpa using ⟨valid_of_kind hname, valid_of_kind hcolon,
        hvalue.allValid List.suffix_rfl⟩
  | .unnamed hvalue => hvalue.allValid List.suffix_rfl

theorem ArgumentList.allValid {own : List Token} {arguments : List (Option String × Expr)} :
    ArgumentList own arguments → AllValid own
  | .last hargument hbreaks hclosing => by
      simpa using ⟨hargument.allValid, hbreaks.allValid, valid_of_kind hclosing⟩
  | .next hargument hbefore hcomma hafter hrest => by
      simpa using ⟨hargument.allValid, hbefore.allValid, valid_of_kind hcomma,
        hafter.allValid, hrest.allValid⟩

theorem Primary.allValid {own : List Token} {value : Expr} : Primary own value → AllValid own
  | .literal hvalue => by simpa using hvalue.valid
  | .var hkind | .storage hkind _ | .name hkind _ => by simpa using valid_of_kind hkind
  | .group hopening hbefore hvalue hafter hclosing => by
      simpa using ⟨valid_of_kind hopening, hbefore.allValid, hvalue.allValid List.suffix_rfl,
        hafter.allValid, valid_of_kind hclosing⟩
  | .array hopening hitems => by simpa using ⟨valid_of_kind hopening, hitems.allValid⟩
  | .map hopening hentries => by simpa using ⟨valid_of_kind hopening, hentries.allValid⟩

theorem Items.allValid {own : List Token} {items : List Expr} : Items own items → AllValid own
  | .none hbreaks hclosing => by simpa using ⟨hbreaks.allValid, valid_of_kind hclosing⟩
  | .some hbreaks hitems => by simpa using ⟨hbreaks.allValid, hitems.allValid⟩

theorem ItemList.allValid {own : List Token} {items : List Expr} :
    ItemList own items → AllValid own
  | .last hitem hbreaks hclosing => by
      simpa using ⟨hitem.allValid List.suffix_rfl, hbreaks.allValid, valid_of_kind hclosing⟩
  | .next hitem hbefore hcomma hafter hrest => by
      simpa using ⟨hitem.allValid List.suffix_rfl, hbefore.allValid, valid_of_kind hcomma,
        hafter.allValid, hrest.allValid⟩

theorem Entries.allValid {own : List Token} {entries : List (String × Expr)} :
    Entries own entries → AllValid own
  | .none hbreaks hclosing => by simpa using ⟨hbreaks.allValid, valid_of_kind hclosing⟩
  | .next hbreaks hkey hcolon hmiddle hvalue hafter hcommas hrest => by
      simpa using ⟨hbreaks.allValid, hkey.valid, valid_of_kind hcolon, hmiddle.allValid,
        hvalue.allValid List.suffix_rfl, hafter.allValid, hcommas.allValid, hrest.allValid⟩

end

theorem Simple.allValid {own : List Token} {command : Command} (hcommand : Simple own command) :
    AllValid own := by
  have hassign {sign : Token} (hsign : sign.kind = .colon ∨ sign.kind = .assign) :
      isValid sign.kind := hsign.elim (valid_of_kind ·) (valid_of_kind ·)
  cases hcommand with
  | setVariable hname hsign hvalue | setOutput hname hsign hvalue =>
    simpa using ⟨valid_of_kind hname, hassign hsign, hvalue.allValid List.suffix_rfl⟩
  | evaluate hvalue => exact hvalue.allValid List.suffix_rfl

mutual

theorem Conditional.allValid {own : List Token} {command : Command} :
    Conditional own command → AllValid own
  | .plain hkeyword hcondition hthen => by
      simpa using ⟨valid_of_kind hkeyword, hcondition.allValid List.suffix_rfl, hthen.allValid⟩
  | .otherwise hkeyword hcondition hthen hbreaks hotherwise helse => by
      simpa using ⟨valid_of_kind hkeyword, hcondition.allValid List.suffix_rfl, hthen.allValid,
        hbreaks.allValid, valid_of_kind hotherwise, helse.allValid⟩
  | .chained hkeyword hcondition hthen hbreaks hotherwise helse => by
      simpa using ⟨valid_of_kind hkeyword, hcondition.allValid List.suffix_rfl, hthen.allValid,
        hbreaks.allValid, valid_of_kind hotherwise, helse.allValid⟩

theorem Compound.allValid {own : List Token} {command : Command} :
    Compound own command → AllValid own
  | .conditional hcommand => hcommand.allValid
  | .loop hkeyword hcondition hbody => by
      simpa using ⟨valid_of_kind hkeyword, hcondition.allValid List.suffix_rfl, hbody.allValid⟩

theorem Block.allValid {own : List Token} {commands : List Command} :
    Block own commands → AllValid own
  | .braces hbreaks hopening hcommands hclosing => by
      simpa using ⟨hbreaks.allValid, valid_of_kind hopening, hcommands.allValid,
        valid_of_kind hclosing⟩

theorem Commands.allValid {own : List Token} {commands : List Command} :
    Commands own commands → AllValid own
  | .none hends => hends.allValid
  | .simple hends hcommand _ hrest => by
      simpa using ⟨hends.allValid, hcommand.allValid, hrest.allValid⟩
  | .compound hends hcommand hrest => by
      simpa using ⟨hends.allValid, hcommand.allValid, hrest.allValid⟩

end

end MetricScript.Grammar
