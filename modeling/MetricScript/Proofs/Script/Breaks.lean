import Mathlib
import MetricScript.Proofs.Script.ExpressionReading
import MetricScript.Proofs.Script.Nesting

/-!
# Newlines within brackets

Within the brackets of an expression newlines are skipped at some places only: around commas, behind
an opening bracket and before a closing one, in a map also behind the colon and before the next key.
Inside an operand, around an operator, before an argument's colon or behind it they are not.  So
whether a newline may stand at a place is a matter of the innermost bracket and of the two tokens
around it.

Here it is shown that the newlines which the grammar covers stand at such places.
-/

namespace MetricScript

namespace Grammar

/-! ## The tokens around a place -/

/-- Kinds of tokens behind which newlines are skipped. -/
def opensBreak : TokenKind → Bool
  | .newline | .comma | .leftParen | .leftBracket | .leftBrace => true
  | _ => false

/-- Kinds of tokens before which newlines are skipped. -/
def closesBreak : TokenKind → Bool
  | .newline | .comma | .rightParen | .rightBracket | .rightBrace => true
  | _ => false

def endsOperand : TokenKind → Bool
  | .number | .string | .trueLiteral | .falseLiteral | .nullLiteral | .variableName | .identifier
  | .rightParen | .rightBracket | .rightBrace => true
  | _ => false

def isKey : TokenKind → Bool
  | .identifier | .string => true
  | _ => false

/-- The kind of the last of some tokens, which stand behind one of this kind. -/
def lastKind (before : TokenKind) (own : List Token) : TokenKind :=
  own.foldl (fun _ token => token.kind) before

/-- The kind of the first of some tokens, which stand before one of this kind. -/
def firstKind (own : List Token) (behind : TokenKind) : TokenKind :=
  own.foldr (fun token _ => token.kind) behind

@[simp]
theorem lastKind_nil (before : TokenKind) : lastKind before [] = before := rfl

/-- The kind before what follows is that of the last token. -/
@[simp]
theorem lastKind_cons (before : TokenKind) (token : Token) (own : List Token) :
    lastKind before (token :: own) = lastKind token.kind own := rfl

@[simp]
theorem lastKind_append (before : TokenKind) (left right : List Token) :
    lastKind before (left ++ right) = lastKind (lastKind before left) right := List.foldl_append

@[simp]
theorem firstKind_nil (behind : TokenKind) : firstKind [] behind = behind := rfl

@[simp]
theorem firstKind_cons (token : Token) (own : List Token) (behind : TokenKind) :
    firstKind (token :: own) behind = token.kind := rfl

@[simp]
theorem firstKind_append (left right : List Token) (behind : TokenKind) :
    firstKind (left ++ right) behind = firstKind left (firstKind right behind) := List.foldr_append

theorem firstKind_newlines {breaks : List Token} (hbreaks : Newlines breaks) (behind : TokenKind) :
    firstKind breaks behind = .newline ∨ firstKind breaks behind = behind := by
  cases breaks with
  | nil => exact .inr rfl
  | cons token breaks => exact .inl (hbreaks token List.mem_cons_self)

theorem lastKind_newlines {breaks : List Token} (hbreaks : Newlines breaks) (before : TokenKind) :
    lastKind before breaks = before ∨ opensBreak (lastKind before breaks) := by
  rcases List.eq_nil_or_concat breaks with rfl | ⟨others, token, rfl⟩
  · exact .inl rfl
  · exact .inr (by simp [hbreaks token (by simp), opensBreak])

theorem Unary.starts {own : List Token} {value : Expr} (hvalue : Unary own value)
    (behind : TokenKind) : beginsExpression (firstKind own behind) := by
  obtain ⟨token, own, rfl⟩ := List.exists_cons_of_ne_nil hvalue.anchored.1
  exact hvalue.begins

theorem Binary.starts {levels : List Parse.Level} {own : List Token} {value : Expr}
    (hvalue : Binary levels own value) (behind : TokenKind) :
    beginsExpression (firstKind own behind) := by
  obtain ⟨token, own, rfl⟩ := List.exists_cons_of_ne_nil hvalue.anchored.1
  exact hvalue.begins

/-- Behind a value the entries of a map go on with a newline, with a key or with the end. -/
theorem Entries.starts {own : List Token} {entries : List (String × Expr)}
    (hentries : Entries own entries) (behind : TokenKind) :
    closesBreak (firstKind own behind) ∨ isKey (firstKind own behind) := by
  obtain ⟨breaks, token, more, rfl, hbreaks, htoken⟩ := hentries.begins
  rw [firstKind_append, firstKind_cons]
  rcases firstKind_newlines hbreaks token.kind with hfirst | hfirst
  · exact .inl (by rw [hfirst]; rfl)
  · rw [hfirst]
    rcases htoken with hkind | hkind | hkind
    · exact .inl (by rw [hkind]; rfl)
    · exact .inr (by rw [hkind]; rfl)
    · exact .inr (by rw [hkind]; rfl)

theorem LiteralToken.endsOperand {token : Token} {value : Literal}
    (hvalue : LiteralToken token value) : Grammar.endsOperand token.kind := by
  cases hvalue with
  | number hkind _ | string hkind | true hkind | false hkind | null hkind => rw [hkind]; rfl

theorem KeyToken.isKey {token : Token} {key : String} (hkey : KeyToken token key) :
    Grammar.isKey token.kind := by
  cases hkey with
  | name hkind | string hkind => rw [hkind]; rfl

theorem KeyToken.endsOperand {token : Token} {key : String} (hkey : KeyToken token key) :
    Grammar.endsOperand token.kind := by
  cases hkey with
  | name hkind | string hkind => rw [hkind]; rfl

/-! ## How expressions end -/

mutual

theorem Binary.ends {levels : List Parse.Level} {own : List Token} {value : Expr} :
    Binary levels own value → ∀ before, endsOperand (lastKind before own)
  | .operand hvalue => hvalue.ends
  | .tighter hvalue => hvalue.ends
  | .joined _ _ hright => fun _ => by
      rw [lastKind_append, lastKind_cons]
      exact hright.ends _

theorem Unary.ends {own : List Token} {value : Expr} :
    Unary own value → ∀ before, endsOperand (lastKind before own)
  | .plain hvalue => hvalue.ends
  | .signed _ hvalue => fun _ => hvalue.ends _

theorem Suffixed.ends {own : List Token} {value : Expr} :
    Suffixed own value → ∀ before, endsOperand (lastKind before own)
  | .plain hvalue => hvalue.ends
  | .property _ _ hname => fun _ => by simp [hname, endsOperand]
  | .call _ _ harguments => fun _ => by
      rw [lastKind_append, lastKind_cons]
      exact harguments.ends _

theorem Arguments.ends {own : List Token} {arguments : List (Option String × Expr)} :
    Arguments own arguments → ∀ before, endsOperand (lastKind before own)
  | .none _ hclosing => fun _ => by simp [hclosing, endsOperand]
  | .some _ harguments _ => fun _ => by
      rw [lastKind_append]
      exact harguments.ends _

theorem ArgumentList.ends {own : List Token} {arguments : List (Option String × Expr)} :
    ArgumentList own arguments → ∀ before, endsOperand (lastKind before own)
  | .last _ _ hclosing => fun _ => by simp [hclosing, endsOperand]
  | .next _ _ _ _ hrest => fun _ => by
      rw [lastKind_append, lastKind_append, lastKind_cons, lastKind_append]
      exact hrest.ends _

theorem Primary.ends {own : List Token} {value : Expr} :
    Primary own value → ∀ before, endsOperand (lastKind before own)
  | .literal hvalue => fun _ => hvalue.endsOperand
  | .var hkind | .storage hkind _ | .name hkind _ => fun _ => by simp [hkind, endsOperand]
  | .group _ _ _ _ hclosing => fun _ => by simp [hclosing, endsOperand]
  | .array _ hitems => fun _ => hitems.ends _
  | .map _ hentries => fun _ => hentries.ends _

theorem Items.ends {own : List Token} {items : List Expr} :
    Items own items → ∀ before, endsOperand (lastKind before own)
  | .none _ hclosing => fun _ => by simp [hclosing, endsOperand]
  | .some _ hitems => fun _ => by
      rw [lastKind_append]
      exact hitems.ends _

theorem ItemList.ends {own : List Token} {items : List Expr} :
    ItemList own items → ∀ before, endsOperand (lastKind before own)
  | .last _ _ hclosing => fun _ => by simp [hclosing, endsOperand]
  | .next _ _ _ _ hrest => fun _ => by
      rw [lastKind_append, lastKind_append, lastKind_cons, lastKind_append]
      exact hrest.ends _

theorem Entries.ends {own : List Token} {entries : List (String × Expr)} :
    Entries own entries → ∀ before, endsOperand (lastKind before own)
  | .none _ hclosing => fun _ => by simp [hclosing, endsOperand]
  | .next _ _ _ _ _ _ _ hrest => fun _ => by
      simp only [lastKind_append, lastKind_cons]
      exact hrest.ends _

end

end Grammar

open Grammar

/-! ## The places -/

/-- Between these neighbours, directly within the bracket, newlines are skipped. -/
def Bracket.Breaks (bracket : Bracket) (before behind : TokenKind) : Prop :=
  opensBreak before ∨ closesBreak behind ∨
    bracket = .map ∧ (before = .colon ∨ endsOperand before ∧ isKey behind)

instance (bracket : Bracket) (before behind : TokenKind) :
    Decidable (bracket.Breaks before behind) :=
  inferInstanceAs (Decidable (_ ∨ _ ∨ _ ∧ (_ ∨ _ ∧ _)))

namespace Nesting

/-- Of some tokens between these neighbours, every newline within the bracket of an expression
stands where newlines are skipped. -/
def Tidy (nesting : Nesting) (before : TokenKind) : List Token → TokenKind → Prop
  | [], _ => True
  | token :: own, behind =>
      (token.kind = .newline → ∀ bracket, Within nesting.opened bracket →
        bracket.Breaks before (firstKind own behind)) ∧
      Tidy (nesting.step token.kind) token.kind own behind

theorem tidy_nil (nesting : Nesting) (before behind : TokenKind) :
    nesting.Tidy before [] behind := trivial

theorem tidy_cons {token : Token} (hkind : token.kind ≠ .newline) {nesting : Nesting}
    {before behind : TokenKind} {own : List Token} :
    nesting.Tidy before (token :: own) behind ↔
      (nesting.step token.kind).Tidy token.kind own behind :=
  and_iff_right fun hnewline => absurd hnewline hkind

theorem tidy_append {nesting : Nesting} {before behind : TokenKind} {left right : List Token} :
    nesting.Tidy before (left ++ right) behind ↔
      nesting.Tidy before left (firstKind right behind) ∧
        (nesting.after left).Tidy (lastKind before left) right behind := by
  induction left generalizing nesting before with
  | nil => exact (and_iff_right trivial).symm
  | cons token left ih =>
    rw [List.cons_append, Tidy, Tidy, ih, firstKind_append, and_assoc]
    rfl

/-- Newlines are tidy where one of them is. -/
theorem tidy_newlines {breaks : List Token} (hbreaks : Newlines breaks) {nesting : Nesting}
    {before behind : TokenKind} (hplace : ∀ bracket, Within nesting.opened bracket →
      bracket.Breaks before behind) : nesting.Tidy before breaks behind := by
  induction breaks generalizing before with
  | nil => trivial
  | cons token breaks ih =>
    obtain ⟨htoken, hmore⟩ := List.forall_mem_cons.1 hbreaks
    refine ⟨fun _ bracket hwithin => ?_, ?_⟩
    · rcases firstKind_newlines hmore behind with hfirst | hfirst
      · exact .inr (.inl (by rw [hfirst]; rfl))
      · rw [hfirst]
        exact hplace bracket hwithin
    · rw [htoken]
      exact ih hmore fun bracket _ => .inl rfl

/-- Where no bracket of an expression is open, all newlines and semicolons are tidy. -/
theorem tidy_terminators {ends : List Token} (hends : Terminators ends) {nesting : Nesting}
    (hopened : Unbracketed nesting.opened) {before behind : TokenKind} :
    nesting.Tidy before ends behind := by
  induction ends generalizing before with
  | nil => trivial
  | cons token ends ih =>
    obtain ⟨htoken, hmore⟩ := List.forall_mem_cons.1 hends
    refine ⟨fun _ bracket hwithin => absurd hwithin (not_within hopened bracket), ?_⟩
    rw [step_of_terminator htoken]
    exact ih hmore

end Nesting

/-! ## The grammar puts newlines there only -/

namespace Grammar

open Nesting (Expects Unbracketed Tidy tidy_nil tidy_cons tidy_append tidy_newlines tidy_terminators
  expects_of_bracket expects_operator expects_none)

theorem ne_newline_of_isOperator {kind : TokenKind} (hkind : isOperator kind) :
    kind ≠ .newline := by
  rintro rfl
  cases hkind

theorem ne_newline_of_isKey {kind : TokenKind} (hkind : isKey kind) : kind ≠ .newline := by
  rintro rfl
  cases hkind

theorem ne_newline_of_assign {kind : TokenKind} (hsign : kind = .colon ∨ kind = .assign) :
    kind ≠ .newline := by
  rcases hsign with rfl | rfl
  · simp
  · simp

/-- One token that is no newline is tidy. -/
theorem tidy_token {token : Token} (hkind : token.kind ≠ .newline) {nesting : Nesting}
    {before behind : TokenKind} : nesting.Tidy before [token] behind :=
  (tidy_cons hkind).2 (tidy_nil _ _ _)

/-- Newlines before a closing bracket are tidy. -/
theorem tidy_closing {breaks : List Token} {closing : Token} (hbreaks : Newlines breaks)
    (hcloses : closesBreak closing.kind) (hkind : closing.kind ≠ .newline) {nesting : Nesting}
    {before behind : TokenKind} : nesting.Tidy before (breaks ++ [closing]) behind :=
  tidy_append.2 ⟨tidy_newlines hbreaks fun _ _ => .inr (.inl hcloses), tidy_token hkind⟩

mutual

/-- The newlines of an expression are tidy, whatever is around it: it neither begins nor ends with
one. -/
theorem Binary.tidy {levels : List Parse.Level} (hlevels : levels <:+ Parse.levels)
    {own : List Token} {value : Expr} : Binary levels own value → ∀ {nesting : Nesting},
      nesting.Expects → ∀ before behind, nesting.Tidy before own behind
  | .operand hvalue => hvalue.tidy
  | .tighter hvalue => hvalue.tidy ((List.suffix_cons _ _).trans hlevels)
  | .joined hleft hsign hright => fun hexpects before behind => by
      have hoperator := isOperator_of_lookup hlevels hsign
      rw [tidy_append, hleft.after hlevels hexpects, tidy_cons (ne_newline_of_isOperator hoperator),
        step_of_isOperator hoperator]
      exact ⟨hleft.tidy hlevels hexpects _ _, hright.tidy ((List.suffix_cons _ _).trans hlevels)
        (expects_operator _ _) _ _⟩

theorem Unary.tidy {own : List Token} {value : Expr} :
    Unary own value → ∀ {nesting : Nesting},
      nesting.Expects → ∀ before behind, nesting.Tidy before own behind
  | .plain hvalue => hvalue.tidy
  | .signed hsign hvalue => fun _ before behind => by
      have hoperator := isOperator_of_unaryOperator hsign
      rw [tidy_cons (ne_newline_of_isOperator hoperator), step_of_isOperator hoperator]
      exact hvalue.tidy (expects_operator _ _) _ _

theorem Suffixed.tidy {own : List Token} {value : Expr} :
    Suffixed own value → ∀ {nesting : Nesting},
      nesting.Expects → ∀ before behind, nesting.Tidy before own behind
  | .plain hvalue => hvalue.tidy
  | .property htarget hdot hname => fun hexpects before behind => by
      rw [tidy_append, tidy_cons (by simp [hdot])]
      exact ⟨htarget.tidy hexpects _ _, tidy_token (by simp [hname])⟩
  | .call htarget hopening harguments => fun hexpects before behind => by
      rw [tidy_append, tidy_cons (by simp [hopening]), hopening]
      exact ⟨htarget.tidy hexpects _ _, harguments.tidy _ _ _⟩

theorem Arguments.tidy {own : List Token} {arguments : List (Option String × Expr)} :
    Arguments own arguments → ∀ (opened : List Bracket) (head : Head) (behind : TokenKind),
      Tidy ⟨.paren :: opened, head⟩ .leftParen own behind
  | .none hbreaks hclosing => fun opened head behind =>
      tidy_closing hbreaks (by rw [hclosing]; rfl) (by simp [hclosing])
  | .some hbreaks harguments _ => fun opened head behind => by
      rw [tidy_append, hbreaks.after]
      exact ⟨tidy_newlines hbreaks fun _ _ => .inl rfl, harguments.tidy _ _ _ _⟩

theorem Argument.tidy {own : List Token} {argument : Option String × Expr} :
    Argument own argument → ∀ (opened : List Bracket) (head : Head) (before behind : TokenKind),
      Tidy ⟨.paren :: opened, head⟩ before own behind
  | .named hname hcolon hvalue => fun opened head before behind => by
      rw [tidy_cons (by simp [hname]), tidy_cons (by simp [hcolon]), hname, hcolon]
      exact hvalue.tidy List.suffix_rfl (expects_of_bracket (by simp) _ _) _ _
  | .unnamed hvalue => fun opened head =>
      hvalue.tidy List.suffix_rfl (expects_of_bracket (by simp) _ _)

/-- All newlines of an argument list stand where they may be skipped. -/
theorem ArgumentList.tidy {own : List Token} {arguments : List (Option String × Expr)} :
    ArgumentList own arguments → ∀ (opened : List Bracket) (head : Head)
      (before behind : TokenKind), Tidy ⟨.paren :: opened, head⟩ before own behind
  | .last hargument hbreaks hclosing => fun opened head before behind =>
      tidy_append.2 ⟨hargument.tidy _ _ _ _,
        tidy_closing hbreaks (by rw [hclosing]; rfl) (by simp [hclosing])⟩
  | .next hargument hbefore hcomma hafter hrest => fun opened head before behind => by
      rw [tidy_append, tidy_append, tidy_cons (by simp [hcomma]), tidy_append, hargument.after,
        hbefore.after, hcomma, Nesting.step_comma, hafter.after]
      exact ⟨hargument.tidy _ _ _ _,
        tidy_newlines hbefore fun _ _ => .inr (.inl (by simp [hcomma, closesBreak])),
        tidy_newlines hafter fun _ _ => .inl rfl, hrest.tidy _ _ _ _⟩

/-- All newlines of an operand stand where they may be skipped. -/
theorem Primary.tidy {own : List Token} {value : Expr} :
    Primary own value → ∀ {nesting : Nesting},
      nesting.Expects → ∀ before behind, nesting.Tidy before own behind
  | .literal hvalue => fun _ _ _ =>
      tidy_token (by rintro hkind; simpa [hkind, endsOperand] using hvalue.endsOperand)
  | .var hkind | .storage hkind _ | .name hkind _ => fun _ _ _ => tidy_token (by simp [hkind])
  | .group hopening hbefore hvalue hafter hclosing => fun _ before behind => by
      rw [tidy_cons (by simp [hopening]), hopening, tidy_append, tidy_append, hbefore.after]
      exact ⟨tidy_newlines hbefore fun _ _ => .inl rfl,
        hvalue.tidy List.suffix_rfl (expects_of_bracket (by simp) _ _) _ _,
        tidy_closing hafter (by rw [hclosing]; rfl) (by simp [hclosing])⟩
  | .array hopening hitems => fun _ before behind => by
      rw [tidy_cons (by simp [hopening]), hopening]
      exact hitems.tidy _ _ _
  | .map hopening hentries => fun hexpects before behind => by
      rw [tidy_cons (by simp [hopening]), hopening, Nesting.step_map hexpects]
      exact hentries.tidy _ _ (.inl rfl) _

theorem Items.tidy {own : List Token} {items : List Expr} :
    Items own items → ∀ (opened : List Bracket) (head : Head) (behind : TokenKind),
      Tidy ⟨.square :: opened, head⟩ .leftBracket own behind
  | .none hbreaks hclosing => fun opened head behind =>
      tidy_closing hbreaks (by rw [hclosing]; rfl) (by simp [hclosing])
  | .some hbreaks hitems => fun opened head behind => by
      rw [tidy_append, hbreaks.after]
      exact ⟨tidy_newlines hbreaks fun _ _ => .inl rfl, hitems.tidy _ _ _ _⟩

theorem ItemList.tidy {own : List Token} {items : List Expr} :
    ItemList own items → ∀ (opened : List Bracket) (head : Head) (before behind : TokenKind),
      Tidy ⟨.square :: opened, head⟩ before own behind
  | .last hitem hbreaks hclosing => fun opened head before behind =>
      tidy_append.2 ⟨hitem.tidy List.suffix_rfl (expects_of_bracket (by simp) _ _) _ _,
        tidy_closing hbreaks (by rw [hclosing]; rfl) (by simp [hclosing])⟩
  | .next hitem hbefore hcomma hafter hrest => fun opened head before behind => by
      have hexpects : Expects ⟨.square :: opened, head⟩ := expects_of_bracket (by simp) _ _
      rw [tidy_append, tidy_append, tidy_cons (by simp [hcomma]), tidy_append,
        hitem.after List.suffix_rfl hexpects, hbefore.after, hcomma, Nesting.step_comma,
        hafter.after]
      exact ⟨hitem.tidy List.suffix_rfl hexpects _ _,
        tidy_newlines hbefore fun _ _ => .inr (.inl (by simp [hcomma, closesBreak])),
        tidy_newlines hafter fun _ _ => .inl rfl, hrest.tidy _ _ _ _⟩

/-- The entries follow something behind which newlines are skipped, or a value. -/
theorem Entries.tidy {own : List Token} {entries : List (String × Expr)} :
    Entries own entries → ∀ (opened : List Bracket) (head : Head) {before : TokenKind},
      opensBreak before ∨ endsOperand before → ∀ behind : TokenKind,
      Tidy ⟨.map :: opened, head⟩ before own behind
  | .none hbreaks hclosing => fun opened head _ _ behind =>
      tidy_closing hbreaks (by rw [hclosing]; rfl) (by simp [hclosing])
  | .next hbreaks hkey hcolon hmiddle hvalue hafter hcommas hrest =>
      fun opened head before hbefore behind => by
      have hexpects : Expects ⟨.map :: opened, head.operand⟩ := expects_of_bracket (by simp) _ _
      rw [tidy_append, tidy_cons (ne_newline_of_isKey hkey.isKey), tidy_cons (by simp [hcolon]),
        tidy_append, tidy_append, tidy_append, tidy_append, hbreaks.after, hkey.step, hcolon,
        Nesting.step_colon, hmiddle.after, hvalue.after List.suffix_rfl hexpects, hafter.after,
        hcommas.after]
      have hmap {bracket : Bracket} (hwithin : Nesting.Within (.map :: opened) bracket) :
          bracket = .map := (Option.some.inj hwithin.1).symm
      refine ⟨tidy_newlines hbreaks fun bracket hwithin => ?_,
        tidy_newlines hmiddle fun bracket hwithin => .inr (.inr ⟨hmap hwithin, .inl rfl⟩),
        hvalue.tidy List.suffix_rfl hexpects _ _,
        tidy_newlines hafter fun bracket hwithin => ?_, ?_, hrest.tidy _ _ ?_ _⟩
      · rcases hbefore with hopens | hends
        · exact .inl hopens
        · exact .inr (.inr ⟨hmap hwithin, .inr ⟨hends, hkey.isKey⟩⟩)
      · -- The comma may be missing, and then the next key follows the value.
        rcases hcommas with rfl | ⟨comma, hcomma, rfl⟩
        · rcases hrest.starts behind with hcloses | hnext
          · exact .inr (.inl hcloses)
          · exact .inr (.inr ⟨hmap hwithin, .inr ⟨hvalue.ends _, hnext⟩⟩)
        · exact .inr (.inl (by simp [hcomma, closesBreak]))
      · rcases hcommas with rfl | ⟨comma, hcomma, rfl⟩
        · exact tidy_nil _ _ _
        · exact tidy_token (by simp [hcomma])
      · rcases hcommas with rfl | ⟨comma, hcomma, rfl⟩
        · refine (lastKind_newlines hafter _).symm.imp_right fun hlast => ?_
          rw [lastKind_nil, hlast]
          exact hvalue.ends _
        · exact .inl (by simp [hcomma, opensBreak])

end

theorem Simple.tidy {own : List Token} {command : Command} (hcommand : Simple own command)
    (opened : List Bracket) (before behind : TokenKind) :
    Tidy ⟨opened, .none⟩ before own behind := by
  cases hcommand with
  | setVariable hname hsign hvalue | setOutput hname hsign hvalue =>
    rw [tidy_cons (by simp [hname]), hname, tidy_cons (ne_newline_of_assign hsign),
      step_of_assign hsign]
    exact hvalue.tidy List.suffix_rfl (expects_none opened) _ _
  | evaluate hvalue => exact hvalue.tidy List.suffix_rfl (expects_none opened) _ _

theorem Newlines.terminators {breaks : List Token} (hbreaks : Newlines breaks) :
    Terminators breaks := fun token hmem => by simp [hbreaks token hmem, TokenKind.isTerminator]

mutual

/-- Around the expressions of a conditional no bracket of an expression is open. -/
theorem Conditional.tidy {opened : List Bracket} (hopened : Unbracketed opened) {own : List Token}
    {command : Command} : Conditional own command → ∀ (head : Head) (before behind : TokenKind),
      Tidy ⟨opened, head⟩ before own behind
  | .plain hkeyword hcondition hthen => fun head before behind => by
      rw [tidy_cons (by simp [hkeyword]), hkeyword, Nesting.step_ifKeyword, tidy_append,
        condition_after hcondition]
      exact ⟨hcondition.tidy List.suffix_rfl (fun _ => by simp) _ _, hthen.tidy hopened _ _⟩
  | .otherwise hkeyword hcondition hthen hbreaks hotherwise helse => fun head before behind => by
      rw [tidy_cons (by simp [hkeyword]), hkeyword, Nesting.step_ifKeyword, tidy_append,
        condition_after hcondition, tidy_append, hthen.after hopened, tidy_append, hbreaks.after,
        tidy_cons (by simp [hotherwise]), hotherwise, Nesting.step_elseKeyword]
      exact ⟨hcondition.tidy List.suffix_rfl (fun _ => by simp) _ _, hthen.tidy hopened _ _,
        tidy_terminators hbreaks.terminators hopened, helse.tidy hopened _ _⟩
  | .chained hkeyword hcondition hthen hbreaks hotherwise helse => fun head before behind => by
      rw [tidy_cons (by simp [hkeyword]), hkeyword, Nesting.step_ifKeyword, tidy_append,
        condition_after hcondition, tidy_append, hthen.after hopened, tidy_append, hbreaks.after,
        tidy_cons (by simp [hotherwise]), hotherwise, Nesting.step_elseKeyword]
      exact ⟨hcondition.tidy List.suffix_rfl (fun _ => by simp) _ _, hthen.tidy hopened _ _,
        tidy_terminators hbreaks.terminators hopened, helse.tidy hopened _ _ _⟩

theorem Block.tidy {opened : List Bracket} (hopened : Unbracketed opened) {own : List Token}
    {commands : List Command} : Block own commands → ∀ before behind : TokenKind,
      Tidy ⟨opened, .block⟩ before own behind
  | .braces hbreaks hopening hcommands hclosing => fun before behind => by
      have hblock := Nesting.unbracketed_block opened
      rw [tidy_append, hbreaks.after, tidy_cons (by simp [hopening]), hopening,
        Nesting.step_block hopened, tidy_append]
      exact ⟨tidy_terminators hbreaks.terminators hopened, hcommands.tidy hblock _ _,
        tidy_token (by simp [hclosing])⟩

theorem Compound.tidy {opened : List Bracket} (hopened : Unbracketed opened) {own : List Token}
    {command : Command} : Compound own command → ∀ before behind : TokenKind,
      Tidy ⟨opened, .none⟩ before own behind
  | .conditional hcommand => hcommand.tidy hopened .none
  | .loop hkeyword hcondition hbody => fun before behind => by
      rw [tidy_cons (by simp [hkeyword]), hkeyword, Nesting.step_whileKeyword, tidy_append,
        condition_after hcondition]
      exact ⟨hcondition.tidy List.suffix_rfl (fun _ => by simp) _ _, hbody.tidy hopened _ _⟩

theorem Commands.tidy {opened : List Bracket} (hopened : Unbracketed opened) {own : List Token}
    {commands : List Command} : Commands own commands → ∀ before behind : TokenKind,
      Tidy ⟨opened, .none⟩ before own behind
  | .none hends => fun _ _ => tidy_terminators hends hopened
  | .simple hends hcommand _ hrest => fun before behind => by
      rw [tidy_append, tidy_append, hends.after, hcommand.after]
      exact ⟨tidy_terminators hends hopened, hcommand.tidy _ _ _, hrest.tidy hopened _ _⟩
  | .compound hends hcommand hrest => fun before behind => by
      rw [tidy_append, tidy_append, hends.after, hcommand.after hopened]
      exact ⟨tidy_terminators hends hopened, hcommand.tidy hopened _ _, hrest.tidy hopened _ _⟩

end

/-- Within a bracket of an expression the commands of a script have newlines at the places only
where newlines are skipped. -/
theorem Commands.breaks {left right : List Token} {line : Token} {commands : List Command}
    (hcommands : Commands (left ++ line :: right) commands) (hline : line.kind = .newline)
    {bracket : Bracket} (hwithin : Nesting.Within (Nesting.start.after left).opened bracket)
    (before behind : TokenKind) :
    bracket.Breaks (lastKind before left) (firstKind right behind) :=
  (tidy_append.1 (hcommands.tidy Nesting.unbracketed_start before behind)).2.1 hline bracket
    hwithin

end Grammar

end MetricScript
