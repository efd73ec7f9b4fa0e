import Mathlib
import MetricScript.Proofs.Script.Breaks

/-!
# Putting newlines in

A newline is put in before some token, directly within a bracket of an expression and where newlines
are skipped there.  The tokens still make up the same tree: the newline stands in a place that the
rule of the bracket has for it.
-/

namespace MetricScript

open Grammar
open Nesting (Within Unbracketed not_within)

/-! ## Places where newlines are not skipped -/

namespace Grammar

theorem opensBreak_of_endsOperand {kind : TokenKind} (hkind : endsOperand kind) :
    opensBreak kind = false ∧ kind ≠ .colon := by
  cases kind <;> simp_all [endsOperand, opensBreak]

theorem closesBreak_of_beginsExpression {kind : TokenKind} (hkind : beginsExpression kind) :
    closesBreak kind = false := by
  cases kind <;> simp_all [beginsExpression, closesBreak]

theorem skips_of_isOperator {kind : TokenKind} (hkind : isOperator kind) :
    opensBreak kind = false ∧ closesBreak kind = false ∧ endsOperand kind = false ∧
      isKey kind = false ∧ kind ≠ .colon := by
  cases kind <;> simp_all [isOperator, opensBreak, closesBreak, endsOperand, isKey]

end Grammar

namespace Bracket

/-- Behind an operand newlines are skipped before some tokens only. -/
theorem not_breaks_behind {bracket : Bracket} {before behind : TokenKind}
    (hbefore : endsOperand before) (hcloses : closesBreak behind = false)
    (hkey : isKey behind = false) : ¬ bracket.Breaks before behind := by
  obtain ⟨hopens, hcolon⟩ := opensBreak_of_endsOperand hbefore
  simp [Breaks, hopens, hcloses, hkey, hcolon]

/-- Before an operand newlines are skipped behind some tokens only. -/
theorem not_breaks_before {bracket : Bracket} {before behind : TokenKind}
    (hopens : opensBreak before = false) (hends : endsOperand before = false)
    (hcolon : bracket = .map → before ≠ .colon) (hcloses : closesBreak behind = false) :
    ¬ bracket.Breaks before behind := by
  simp only [Breaks, hopens, hends, hcloses, Bool.false_eq_true, false_and, false_or, or_false]
  exact fun hbreaks => hcolon hbreaks.1 hbreaks.2

end Bracket

namespace Nesting

/-- Between these neighbours newlines are skipped here. -/
def Skips (nesting : Nesting) (before behind : TokenKind) : Prop :=
  ∃ bracket, Within nesting.opened bracket ∧ bracket.Breaks before behind

theorem not_skips {nesting : Nesting} (hopened : Unbracketed nesting.opened)
    (before behind : TokenKind) : ¬ nesting.Skips before behind :=
  fun ⟨bracket, hwithin, _⟩ => not_within hopened bracket hwithin

/-! ## A newline put in -/

/-- The line is put in before one of the tokens, where newlines are skipped. -/
inductive Broken (line : Token) : Nesting → TokenKind → List Token → List Token → Prop where
  | here {nesting : Nesting} {before : TokenKind} {token : Token} {own : List Token}
      (hskips : nesting.Skips before token.kind) :
      Broken line nesting before (token :: own) (line :: token :: own)
  | there {nesting : Nesting} {before : TokenKind} {token : Token} {own own' : List Token}
      (hmore : Broken line (nesting.step token.kind) token.kind own own') :
      Broken line nesting before (token :: own) (token :: own')

namespace Broken

variable {line : Token} {nesting : Nesting} {before : TokenKind}

/-- A newline is put in at one place where it may be skipped. -/
theorem of_split {left right : List Token} {token : Token}
    (hskips : (nesting.after left).Skips (lastKind before left) token.kind) :
    Broken line nesting before (left ++ token :: right) (left ++ line :: token :: right) := by
  induction left generalizing nesting before with
  | nil => exact .here hskips
  | cons first left ih => exact .there (ih hskips)

theorem of_cons {token : Token} {own broken : List Token}
    (hbroken : Broken line nesting before (token :: own) broken) :
    (broken = line :: token :: own ∧ nesting.Skips before token.kind) ∨
      ∃ own', broken = token :: own' ∧
        Broken line (nesting.step token.kind) token.kind own own' := by
  cases hbroken with
  | here hskips => exact .inl ⟨rfl, hskips⟩
  | there hmore => exact .inr ⟨_, rfl, hmore⟩

theorem not_nil {broken : List Token} : ¬ Broken line nesting before [] broken := nofun

theorem of_singleton {token : Token} {broken : List Token}
    (hbroken : Broken line nesting before [token] broken) :
    broken = [line, token] ∧ nesting.Skips before token.kind := by
  rcases hbroken.of_cons with hhere | ⟨_, -, hmore⟩
  · exact hhere
  · exact absurd hmore not_nil

/-- A newline in a text of two halves is in one of them, or between them. -/
theorem of_append {left right broken : List Token}
    (hbroken : Broken line nesting before (left ++ right) broken) :
    (∃ left', broken = left' ++ right ∧ Broken line nesting before left left') ∨
      ∃ right', broken = left ++ right' ∧
        Broken line (nesting.after left) (lastKind before left) right right' := by
  induction left generalizing nesting before broken with
  | nil => exact .inr ⟨_, rfl, hbroken⟩
  | cons token left ih =>
    rcases of_cons hbroken with ⟨rfl, hskips⟩ | ⟨own', rfl, hmore⟩
    · exact .inl ⟨_, rfl, .here hskips⟩
    · rcases ih hmore with ⟨left', rfl, hleft⟩ | ⟨right', rfl, hright⟩
      · exact .inl ⟨_, rfl, .there hleft⟩
      · exact .inr ⟨_, rfl, hright⟩

/-- A line that is put in among newlines or right behind them is one of them. -/
theorem of_newlines {breaks own broken : List Token} (hline : line.kind = .newline)
    (hbreaks : Newlines breaks) (hbroken : Broken line nesting before (breaks ++ own) broken) :
    ∃ breaks' own', broken = breaks' ++ own' ∧ Newlines breaks' ∧
      (own' = own ∨ own' ≠ line :: own ∧
        Broken line nesting (lastKind before breaks) own own') := by
  induction breaks generalizing nesting before broken with
  | nil =>
    by_cases hfront : broken = line :: own
    · exact ⟨[line], own, hfront, List.forall_mem_singleton.2 hline, .inl rfl⟩
    · exact ⟨[], broken, rfl, hbreaks, .inr ⟨hfront, hbroken⟩⟩
  | cons token breaks ih =>
    obtain ⟨htoken, hmore⟩ := List.forall_mem_cons.1 hbreaks
    rcases of_cons hbroken with ⟨rfl, -⟩ | ⟨own', rfl, hbehind⟩
    · exact ⟨line :: token :: breaks, own, rfl, List.forall_mem_cons.2 ⟨hline, hbreaks⟩, .inl rfl⟩
    · rw [htoken] at hbehind
      obtain ⟨breaks', own', rfl, hbreaks', hown⟩ := ih hmore hbehind
      refine ⟨token :: breaks', own', rfl, List.forall_mem_cons.2 ⟨htoken, hbreaks'⟩, ?_⟩
      rwa [lastKind_cons, htoken]

/-- Newlines and a closing bracket stay that. -/
theorem of_closing {breaks broken : List Token} {closing : Token} (hline : line.kind = .newline)
    (hbreaks : Newlines breaks)
    (hbroken : Broken line nesting before (breaks ++ [closing]) broken) :
    ∃ breaks', broken = breaks' ++ [closing] ∧ Newlines breaks' := by
  obtain ⟨breaks', own', rfl, hbreaks', rfl | ⟨hne, hown⟩⟩ := of_newlines hline hbreaks hbroken
  · exact ⟨breaks', rfl, hbreaks'⟩
  · exact absurd hown.of_singleton.1 hne

/-- A line is put into an element, around the comma behind it or into what follows. -/
theorem of_separated {own front back rest broken : List Token} {comma : Token}
    (hline : line.kind = .newline) (hfront : Newlines front) (hback : Newlines back)
    (hbroken : Broken line nesting before (own ++ (front ++ comma :: (back ++ rest))) broken) :
    (∃ own', broken = own' ++ (front ++ comma :: (back ++ rest)) ∧
      Broken line nesting before own own') ∨
      ∃ front' back' rest', broken = own ++ (front' ++ comma :: (back' ++ rest')) ∧
        Newlines front' ∧ Newlines back' ∧ (rest' = rest ∨ rest' ≠ line :: rest ∧
          Broken line ((nesting.after own).step comma.kind) (lastKind comma.kind back) rest
            rest') := by
  rcases of_append hbroken with hown | ⟨_, rfl, hbehind⟩
  · exact .inl hown
  obtain ⟨front', _, rfl, hfront', rfl | ⟨hne, hcomma⟩⟩ := of_newlines hline hfront hbehind
  · exact .inr ⟨front', back, rest, rfl, hfront', hback, .inl rfl⟩
  obtain ⟨_, rfl, hmore⟩ := (of_cons hcomma).resolve_left fun hhere => hne hhere.1
  obtain ⟨back', rest', rfl, hback', hrest⟩ := of_newlines hline hback hmore
  exact .inr ⟨front', back', rest', rfl, hfront', hback', hrest⟩

/-- Where no bracket of an expression is open, no line is put in before the first token. -/
theorem of_cons_unbracketed {token : Token} {own broken : List Token}
    (hopened : Unbracketed nesting.opened)
    (hbroken : Broken line nesting before (token :: own) broken) :
    ∃ own', broken = token :: own' ∧ Broken line (nesting.step token.kind) token.kind own own' :=
  hbroken.of_cons.resolve_left fun hfront => not_skips hopened _ _ hfront.2

/-- Where no bracket of an expression is open, no line is put in among newlines and semicolons. -/
theorem of_terminators {ends own broken : List Token} (hends : Terminators ends)
    (hopened : Unbracketed nesting.opened)
    (hbroken : Broken line nesting before (ends ++ own) broken) :
    ∃ own', broken = ends ++ own' ∧ Broken line nesting (lastKind before ends) own own' := by
  induction ends generalizing nesting before broken with
  | nil => exact ⟨broken, rfl, hbroken⟩
  | cons token ends ih =>
    obtain ⟨htoken, hmore⟩ := List.forall_mem_cons.1 hends
    obtain ⟨own', rfl, hbehind⟩ := of_cons_unbracketed hopened hbroken
    rw [step_of_terminator htoken] at hbehind
    obtain ⟨own', rfl, hown⟩ := ih hmore hopened hbehind
    exact ⟨own', rfl, hown⟩

/-- Before the other branch of a conditional no line is put in. -/
theorem of_else {opened : List Bracket} {breaks own broken : List Token} {otherwise : Token}
    (hbreaks : Newlines breaks) (hnesting : nesting = ⟨opened, .none⟩)
    (hotherwise : otherwise.kind = .elseKeyword) (hopened : Unbracketed opened)
    (hbroken : Broken line nesting before (breaks ++ otherwise :: own) broken) :
    ∃ own', broken = breaks ++ otherwise :: own' ∧
      Broken line ⟨opened, .block⟩ .elseKeyword own own' := by
  subst hnesting
  obtain ⟨_, rfl, hbehind⟩ := hbroken.of_terminators hbreaks.terminators hopened
  obtain ⟨own', rfl, hown⟩ := hbehind.of_cons_unbracketed hopened
  rw [hotherwise] at hown
  exact ⟨own', rfl, hown⟩

end Broken

end Nesting

namespace Grammar

open Nesting (Broken Expects expects_of_bracket expects_operator expects_none)

variable {line : Token}

/-! ## Expressions -/

/-- What is behind a value is not seen at the place of its tree. -/
theorem anchor_of_anchored {own : List Token} {value : Expr}
    (hown : own ≠ [] ∧ value.position = anchor own) (rest : List Token) :
    anchor (own ++ rest) = value.position := by
  rw [anchor_append hown.1, hown.2]

mutual

/-- A line that is put into an expression leaves its tree, or it stands before the first token: that
place belongs to the bracket around the expression. -/
theorem Binary.broken (hline : line.kind = .newline) {levels : List Parse.Level}
    (hlevels : levels <:+ Parse.levels) {own : List Token} {value : Expr} :
    Binary levels own value → ∀ {nesting : Nesting}, nesting.Expects →
      ∀ {before : TokenKind} {broken : List Token}, Broken line nesting before own broken →
        Binary levels broken value ∨
          broken = line :: own ∧ ∀ behind, nesting.Skips before (firstKind own behind)
  | .operand hvalue => fun hexpects _ _ hbroken =>
      (hvalue.broken hline hexpects hbroken).imp_left .operand
  | .tighter hvalue => fun hexpects _ _ hbroken =>
      (hvalue.broken hline ((List.suffix_cons _ _).trans hlevels) hexpects hbroken).imp_left
        .tighter
  | .joined hleft hsign hright => fun hexpects before broken hbroken => by
      have hoperator := isOperator_of_lookup hlevels hsign
      obtain ⟨hopens, hcloses, hends, hkey, hcolon⟩ := skips_of_isOperator hoperator
      rcases hbroken.of_append with ⟨left', rfl, hfirst⟩ | ⟨_, rfl, hbehind⟩
      · -- The left operand begins where it did, so the tree keeps its place.
        rcases hleft.broken hline hlevels hexpects hfirst with hleft' | ⟨rfl, hskips⟩
        · rw [anchor_of_anchored hleft.anchored, ← anchor_of_anchored hleft'.anchored]
          exact .inl (.joined hleft' hsign hright)
        · refine .inr ⟨rfl, fun behind => ?_⟩
          rw [firstKind_append]
          exact hskips _
      · -- Newlines are skipped neither before the operator nor behind it.
        rcases hbehind.of_cons with ⟨-, _, -, hbreaks⟩ | ⟨right', rfl, hsecond⟩
        · exact absurd hbreaks (Bracket.not_breaks_behind (hleft.ends _) hcloses hkey)
        · rw [step_of_isOperator hoperator] at hsecond
          rcases hright.broken hline ((List.suffix_cons _ _).trans hlevels)
            (expects_operator _ _) hsecond with hright' | ⟨-, hskips⟩
          · rw [anchor_append hleft.anchored.1, ← anchor_append hleft.anchored.1]
            exact .inl (.joined hleft hsign hright')
          · obtain ⟨_, -, hbreaks⟩ := hskips .eof
            exact absurd hbreaks (Bracket.not_breaks_before hopens hends (fun _ => hcolon)
              (closesBreak_of_beginsExpression (hright.starts _)))

/-- A newline that may be skipped leaves an operand derived, or it stands in front of the operand.
-/
theorem Unary.broken (hline : line.kind = .newline) {own : List Token} {value : Expr} :
    Unary own value → ∀ {nesting : Nesting}, nesting.Expects →
      ∀ {before : TokenKind} {broken : List Token}, Broken line nesting before own broken →
        Unary broken value ∨
          broken = line :: own ∧ ∀ behind, nesting.Skips before (firstKind own behind)
  | .plain hvalue => fun hexpects _ _ hbroken =>
      (hvalue.broken hline hexpects hbroken).imp_left .plain
  | .signed hsign hvalue => fun hexpects before broken hbroken => by
      have hoperator := isOperator_of_unaryOperator hsign
      obtain ⟨hopens, -, hends, -, hcolon⟩ := skips_of_isOperator hoperator
      rcases hbroken.of_cons with ⟨rfl, hskips⟩ | ⟨own', rfl, hbehind⟩
      · exact .inr ⟨rfl, fun _ => hskips⟩
      · rw [step_of_isOperator hoperator] at hbehind
        rcases hvalue.broken hline (expects_operator _ _) hbehind with hvalue' | ⟨-, hskips⟩
        · exact .inl (.signed hsign hvalue')
        · obtain ⟨_, -, hbreaks⟩ := hskips .eof
          exact absurd hbreaks (Bracket.not_breaks_before hopens hends (fun _ => hcolon)
            (closesBreak_of_beginsExpression (hvalue.starts _)))

theorem Suffixed.broken (hline : line.kind = .newline) {own : List Token} {value : Expr} :
    Suffixed own value → ∀ {nesting : Nesting}, nesting.Expects →
      ∀ {before : TokenKind} {broken : List Token}, Broken line nesting before own broken →
        Suffixed broken value ∨
          broken = line :: own ∧ ∀ behind, nesting.Skips before (firstKind own behind)
  | .plain hvalue => fun hexpects _ _ hbroken =>
      (hvalue.broken hline hexpects hbroken).imp_left .plain
  | .property htarget hdot hname => fun hexpects before broken hbroken => by
      rcases hbroken.of_append with ⟨own', rfl, hfirst⟩ | ⟨_, rfl, hbehind⟩
      · rcases htarget.broken hline hexpects hfirst with htarget' | ⟨rfl, hskips⟩
        · rw [anchor_of_anchored htarget.anchored, ← anchor_of_anchored htarget'.anchored]
          exact .inl (.property htarget' hdot hname)
        · refine .inr ⟨rfl, fun behind => ?_⟩
          rw [firstKind_append]
          exact hskips _
      · rcases hbehind.of_cons with ⟨-, _, -, hbreaks⟩ | ⟨_, rfl, hsecond⟩
        · rw [hdot] at hbreaks
          exact absurd hbreaks (Bracket.not_breaks_behind (htarget.ends _) rfl rfl)
        · obtain ⟨_, _, -, hbreaks⟩ := hsecond.of_singleton
          rw [hdot, hname] at hbreaks
          exact absurd hbreaks (Bracket.not_breaks_before rfl rfl (by simp) rfl)
  | .call htarget hopening harguments => fun hexpects before broken hbroken => by
      rcases hbroken.of_append with ⟨own', rfl, hfirst⟩ | ⟨_, rfl, hbehind⟩
      · rcases htarget.broken hline hexpects hfirst with htarget' | ⟨rfl, hskips⟩
        · rw [anchor_of_anchored htarget.anchored, ← anchor_of_anchored htarget'.anchored]
          exact .inl (.call htarget' hopening harguments)
        · refine .inr ⟨rfl, fun behind => ?_⟩
          rw [firstKind_append]
          exact hskips _
      · rcases hbehind.of_cons with ⟨-, _, -, hbreaks⟩ | ⟨list', rfl, hsecond⟩
        · rw [hopening] at hbreaks
          exact absurd hbreaks (Bracket.not_breaks_behind (htarget.ends _) rfl rfl)
        · rw [hopening] at hsecond
          rw [anchor_append htarget.anchored.1, ← anchor_append htarget.anchored.1]
          exact .inl (.call htarget hopening (harguments.broken hline hsecond))

theorem Arguments.broken (hline : line.kind = .newline) {own : List Token}
    {arguments : List (Option String × Expr)} :
    Arguments own arguments → ∀ {opened : List Bracket} {head : Head} {before : TokenKind}
      {broken : List Token}, Broken line ⟨.paren :: opened, head⟩ before own broken →
        Arguments broken arguments
  | .none hbreaks hclosing => fun hbroken => by
      obtain ⟨breaks', rfl, hbreaks'⟩ := hbroken.of_closing hline hbreaks
      exact .none hbreaks' hclosing
  | .some hbreaks harguments hdistinct => fun hbroken => by
      obtain ⟨breaks', own', rfl, hbreaks', rfl | ⟨hne, hbehind⟩⟩ :=
        hbroken.of_newlines hline hbreaks
      · exact .some hbreaks' harguments hdistinct
      · exact .some hbreaks' ((harguments.broken hline hbehind).resolve_right hne) hdistinct

theorem Argument.broken (hline : line.kind = .newline) {own : List Token}
    {argument : Option String × Expr} :
    Argument own argument → ∀ {opened : List Bracket} {head : Head} {before : TokenKind}
      {broken : List Token}, Broken line ⟨.paren :: opened, head⟩ before own broken →
        Argument broken argument ∨ broken = line :: own
  | .named hname hcolon hvalue => fun hbroken => by
      rcases hbroken.of_cons with ⟨rfl, -⟩ | ⟨_, rfl, hbehind⟩
      · exact .inr rfl
      · rcases hbehind.of_cons with ⟨-, _, -, hbreaks⟩ | ⟨own', rfl, hsecond⟩
        · rw [hname, hcolon] at hbreaks
          exact absurd hbreaks (Bracket.not_breaks_behind rfl rfl rfl)
        · rw [hname, hcolon] at hsecond
          rcases hvalue.broken hline List.suffix_rfl (expects_of_bracket (by simp) _ _) hsecond with
            hvalue' | ⟨-, hskips⟩
          · exact .inl (.named hname hcolon hvalue')
          · -- Behind the colon newlines are skipped in maps only.
            obtain ⟨bracket, hwithin, hbreaks⟩ := hskips .eof
            obtain rfl : Bracket.paren = bracket := Option.some.inj hwithin.1
            exact absurd hbreaks (Bracket.not_breaks_before rfl rfl (by simp)
              (closesBreak_of_beginsExpression (hvalue.starts _)))
  | .unnamed hvalue => fun hbroken =>
      (hvalue.broken hline List.suffix_rfl (expects_of_bracket (by simp) _ _) hbroken).imp
        .unnamed And.left

theorem ArgumentList.broken (hline : line.kind = .newline) {own : List Token}
    {arguments : List (Option String × Expr)} :
    ArgumentList own arguments → ∀ {opened : List Bracket} {head : Head} {before : TokenKind}
      {broken : List Token}, Broken line ⟨.paren :: opened, head⟩ before own broken →
        ArgumentList broken arguments ∨ broken = line :: own
  | .last hargument hbreaks hclosing => fun hbroken => by
      rcases hbroken.of_append with ⟨own', rfl, hfirst⟩ | ⟨_, rfl, hbehind⟩
      · rcases hargument.broken hline hfirst with hargument' | rfl
        · exact .inl (.last hargument' hbreaks hclosing)
        · exact .inr rfl
      · obtain ⟨breaks', rfl, hbreaks'⟩ := hbehind.of_closing hline hbreaks
        exact .inl (.last hargument hbreaks' hclosing)
  | .next hargument hbefore hcomma hafter hrest => fun hbroken => by
      rcases hbroken.of_separated hline hbefore hafter with
        ⟨own', rfl, hown⟩ | ⟨before', after', rest', rfl, hbefore', hafter', hbehind⟩
      · rcases hargument.broken hline hown with hargument' | rfl
        · exact .inl (.next hargument' hbefore hcomma hafter hrest)
        · exact .inr rfl
      · rw [hargument.after, hcomma] at hbehind
        rcases hbehind with rfl | ⟨hne, hmore⟩
        · exact .inl (.next hargument hbefore' hcomma hafter' hrest)
        · exact .inl (.next hargument hbefore' hcomma hafter'
            ((hrest.broken hline hmore).resolve_right hne))

theorem Primary.broken (hline : line.kind = .newline) {own : List Token} {value : Expr} :
    Primary own value → ∀ {nesting : Nesting}, nesting.Expects →
      ∀ {before : TokenKind} {broken : List Token}, Broken line nesting before own broken →
        Primary broken value ∨
          broken = line :: own ∧ ∀ behind, nesting.Skips before (firstKind own behind)
  | .literal _ | .var _ | .storage _ _ | .name _ _ => fun _ _ _ hbroken =>
      .inr (hbroken.of_singleton.imp_right fun hskips _ => hskips)
  | .group hopening hbefore hvalue hafter hclosing => fun _ before broken hbroken => by
      rcases hbroken.of_cons with ⟨rfl, hskips⟩ | ⟨_, rfl, hbehind⟩
      · exact .inr ⟨rfl, fun _ => hskips⟩
      · obtain ⟨before', _, rfl, hbefore', rfl | ⟨hne, hsecond⟩⟩ :=
          hbehind.of_newlines hline hbefore
        · exact .inl (.group hopening hbefore' hvalue hafter hclosing)
        · rw [hopening] at hsecond
          rcases hsecond.of_append with ⟨own', rfl, hown⟩ | ⟨_, rfl, hthird⟩
          · rcases hvalue.broken hline List.suffix_rfl (expects_of_bracket (by simp) _ _) hown with
              hvalue' | ⟨rfl, -⟩
            · exact .inl (.group hopening hbefore' hvalue' hafter hclosing)
            · exact absurd rfl hne
          · obtain ⟨after', rfl, hafter'⟩ := hthird.of_closing hline hafter
            exact .inl (.group hopening hbefore' hvalue hafter' hclosing)
  | .array hopening hitems => fun _ before broken hbroken => by
      rcases hbroken.of_cons with ⟨rfl, hskips⟩ | ⟨own', rfl, hbehind⟩
      · exact .inr ⟨rfl, fun _ => hskips⟩
      · rw [hopening] at hbehind
        exact .inl (.array hopening (hitems.broken hline hbehind))
  | .map hopening hentries => fun hexpects before broken hbroken => by
      rcases hbroken.of_cons with ⟨rfl, hskips⟩ | ⟨own', rfl, hbehind⟩
      · exact .inr ⟨rfl, fun _ => hskips⟩
      · rw [hopening, Nesting.step_map hexpects] at hbehind
        exact .inl (.map hopening (hentries.broken hline hbehind))

theorem Items.broken (hline : line.kind = .newline) {own : List Token} {items : List Expr} :
    Items own items → ∀ {opened : List Bracket} {head : Head} {before : TokenKind}
      {broken : List Token}, Broken line ⟨.square :: opened, head⟩ before own broken →
        Items broken items
  | .none hbreaks hclosing => fun hbroken => by
      obtain ⟨breaks', rfl, hbreaks'⟩ := hbroken.of_closing hline hbreaks
      exact .none hbreaks' hclosing
  | .some hbreaks hitems => fun hbroken => by
      obtain ⟨breaks', own', rfl, hbreaks', rfl | ⟨hne, hbehind⟩⟩ :=
        hbroken.of_newlines hline hbreaks
      · exact .some hbreaks' hitems
      · exact .some hbreaks' ((hitems.broken hline hbehind).resolve_right hne)

theorem ItemList.broken (hline : line.kind = .newline) {own : List Token} {items : List Expr} :
    ItemList own items → ∀ {opened : List Bracket} {head : Head} {before : TokenKind}
      {broken : List Token}, Broken line ⟨.square :: opened, head⟩ before own broken →
        ItemList broken items ∨ broken = line :: own
  | .last hitem hbreaks hclosing => fun hbroken => by
      rcases hbroken.of_append with ⟨own', rfl, hfirst⟩ | ⟨_, rfl, hbehind⟩
      · rcases hitem.broken hline List.suffix_rfl (expects_of_bracket (by simp) _ _) hfirst with
          hitem' | ⟨rfl, -⟩
        · exact .inl (.last hitem' hbreaks hclosing)
        · exact .inr rfl
      · obtain ⟨breaks', rfl, hbreaks'⟩ := hbehind.of_closing hline hbreaks
        exact .inl (.last hitem hbreaks' hclosing)
  | .next hitem hbefore hcomma hafter hrest => fun hbroken => by
      have hexpects {opened : List Bracket} {head : Head} :
          Expects ⟨.square :: opened, head⟩ := expects_of_bracket (by simp) _ _
      rcases hbroken.of_separated hline hbefore hafter with
        ⟨own', rfl, hown⟩ | ⟨before', after', rest', rfl, hbefore', hafter', hbehind⟩
      · rcases hitem.broken hline List.suffix_rfl hexpects hown with hitem' | ⟨rfl, -⟩
        · exact .inl (.next hitem' hbefore hcomma hafter hrest)
        · exact .inr rfl
      · rw [hitem.after List.suffix_rfl hexpects, hcomma] at hbehind
        rcases hbehind with rfl | ⟨hne, hmore⟩
        · exact .inl (.next hitem hbefore' hcomma hafter' hrest)
        · exact .inl (.next hitem hbefore' hcomma hafter'
            ((hrest.broken hline hmore).resolve_right hne))

/-- A newline that may be skipped leaves the entries of a map derived. -/
theorem Entries.broken (hline : line.kind = .newline) {own : List Token}
    {entries : List (String × Expr)} :
    Entries own entries → ∀ {opened : List Bracket} {head : Head} {before : TokenKind}
      {broken : List Token}, Broken line ⟨.map :: opened, head⟩ before own broken →
        Entries broken entries
  | .none hbreaks hclosing => fun hbroken => by
      obtain ⟨breaks', rfl, hbreaks'⟩ := hbroken.of_closing hline hbreaks
      exact .none hbreaks' hclosing
  | .next hbreaks hkey hcolon hmiddle hvalue hafter hcommas hrest => fun hbroken => by
      have hexpects {opened : List Bracket} {head : Head} :
          Expects ⟨.map :: opened, head⟩ := expects_of_bracket (by simp) _ _
      obtain ⟨breaks', _, rfl, hbreaks', rfl | ⟨hne, hfirst⟩⟩ := hbroken.of_newlines hline hbreaks
      · exact .next hbreaks' hkey hcolon hmiddle hvalue hafter hcommas hrest
      obtain ⟨_, rfl, hsecond⟩ := hfirst.of_cons.resolve_left fun hfront => hne hfront.1
      rcases hsecond.of_cons with ⟨-, _, -, hbreaks⟩ | ⟨_, rfl, hthird⟩
      · rw [hcolon] at hbreaks
        exact absurd hbreaks (Bracket.not_breaks_behind hkey.endsOperand rfl rfl)
      rw [hkey.step, hcolon, Nesting.step_colon] at hthird
      obtain ⟨middle', _, rfl, hmiddle', rfl | ⟨hne, hfourth⟩⟩ := hthird.of_newlines hline hmiddle
      · exact .next hbreaks' hkey hcolon hmiddle' hvalue hafter hcommas hrest
      rcases hfourth.of_append with ⟨own', rfl, hown⟩ | ⟨_, rfl, hfifth⟩
      · rcases hvalue.broken hline List.suffix_rfl hexpects hown with hvalue' | ⟨rfl, -⟩
        · exact .next hbreaks' hkey hcolon hmiddle' hvalue' hafter hcommas hrest
        · exact absurd rfl hne
      rw [hvalue.after List.suffix_rfl hexpects] at hfifth
      obtain ⟨after', _, rfl, hafter', rfl | ⟨hne, hsixth⟩⟩ := hfifth.of_newlines hline hafter
      · exact .next hbreaks' hkey hcolon hmiddle' hvalue hafter' hcommas hrest
      rcases hcommas with rfl | ⟨comma, hcomma, rfl⟩
      · exact .next hbreaks' hkey hcolon hmiddle' hvalue hafter' (.inl rfl)
          (hrest.broken hline hsixth)
      · obtain ⟨rest', rfl, hseventh⟩ := hsixth.of_cons.resolve_left fun hfront => hne hfront.1
        rw [hcomma] at hseventh
        exact .next hbreaks' hkey hcolon hmiddle' hvalue hafter' (.inr ⟨comma, hcomma, rfl⟩)
          (hrest.broken hline hseventh)

end

/-! ## Commands -/

/-- Where no bracket of an expression is open, a line is not put in before one. -/
theorem Binary.broken_unbracketed (hline : line.kind = .newline) {own : List Token} {value : Expr}
    (hvalue : Expression own value) {nesting : Nesting} (hopened : Unbracketed nesting.opened)
    (hexpects : nesting.Expects) {before : TokenKind} {broken : List Token}
    (hbroken : Broken line nesting before own broken) : Expression broken value :=
  (hvalue.broken hline List.suffix_rfl hexpects hbroken).resolve_right fun hfront =>
    Nesting.not_skips hopened _ _ (hfront.2 .eof)

/-- A newline that may be skipped leaves a simple command derived. -/
theorem Simple.broken (hline : line.kind = .newline) {own : List Token} {command : Command}
    (hcommand : Simple own command) {opened : List Bracket} (hopened : Unbracketed opened)
    {before : TokenKind} {broken : List Token}
    (hbroken : Broken line ⟨opened, .none⟩ before own broken) : Simple broken command := by
  -- A name, a sign and a value.
  have hassignment {name sign : Token} {value broken : List Token} {expr : Expr}
      (hsign : sign.kind = .colon ∨ sign.kind = .assign) (hvalue : Expression value expr)
      (hstep : Nesting.step ⟨opened, .none⟩ name.kind = ⟨opened, .none⟩)
      (hbroken : Broken line ⟨opened, .none⟩ before (name :: sign :: value) broken) :
      ∃ value', broken = name :: sign :: value' ∧ Expression value' expr := by
    obtain ⟨_, rfl, hbehind⟩ := hbroken.of_cons_unbracketed hopened
    rw [hstep] at hbehind
    obtain ⟨value', rfl, hsecond⟩ := hbehind.of_cons_unbracketed hopened
    rw [step_of_assign hsign] at hsecond
    exact ⟨value', rfl, hvalue.broken_unbracketed hline hopened (expects_none opened) hsecond⟩
  cases hcommand with
  | setVariable hname hsign hvalue =>
    obtain ⟨value', rfl, hvalue'⟩ := hassignment hsign hvalue (by rw [hname]; rfl) hbroken
    exact .setVariable hname hsign hvalue'
  | setOutput hname hsign hvalue =>
    obtain ⟨value', rfl, hvalue'⟩ := hassignment hsign hvalue (by rw [hname]; rfl) hbroken
    exact .setOutput hname hsign hvalue'
  | evaluate hvalue =>
    exact .evaluate (hvalue.broken_unbracketed hline hopened (expects_none opened) hbroken)

/-- Where no bracket of an expression is open, tokens begin as before. -/
theorem Separated.broken {own : List Token} (hown : Separated own) {nesting : Nesting}
    (hopened : Unbracketed nesting.opened) {before : TokenKind} {broken : List Token}
    (hbroken : Broken line nesting before own broken) : Separated broken := by
  rcases hown with rfl | hfirst
  · exact absurd hbroken Broken.not_nil
  · cases own with
    | nil => exact absurd hbroken Broken.not_nil
    | cons token own =>
      obtain ⟨own', rfl, -⟩ := hbroken.of_cons_unbracketed hopened
      exact .inr hfirst

/-- Behind the keyword of a conditional or a loop a line is put into the condition, or behind it. -/
theorem broken_condition (hline : line.kind = .newline) {keyword : Token} {test own : List Token}
    {condition : Expr} (hkeyword : keyword.kind = .ifKeyword ∨ keyword.kind = .whileKeyword)
    (hcondition : Expression test condition) {opened : List Bracket}
    (hopened : Unbracketed opened) {head : Head} {before : TokenKind} {broken : List Token}
    (hbroken : Broken line ⟨opened, head⟩ before (keyword :: (test ++ own)) broken) :
    (∃ test', broken = keyword :: (test' ++ own) ∧ Expression test' condition) ∨
      ∃ own', broken = keyword :: (test ++ own') ∧
        Broken line ⟨opened, .block⟩ (lastKind keyword.kind test) own own' := by
  obtain ⟨_, rfl, hbehind⟩ := hbroken.of_cons_unbracketed hopened
  have hstep : Nesting.step ⟨opened, head⟩ keyword.kind = ⟨opened, .condition⟩ := by
    rcases hkeyword with hkind | hkind <;> rw [hkind] <;> rfl
  rw [hstep] at hbehind
  rcases hbehind.of_append with ⟨test', rfl, htest⟩ | ⟨own', rfl, hown⟩
  · exact .inl ⟨test', rfl,
      hcondition.broken_unbracketed hline hopened (fun _ => by simp) htest⟩
  · rw [condition_after hcondition] at hown
    exact .inr ⟨own', rfl, hown⟩

mutual

/-- A line that is put into a conditional leaves its tree. -/
theorem Conditional.broken (hline : line.kind = .newline) {opened : List Bracket}
    (hopened : Unbracketed opened) {own : List Token} {command : Command} :
    Conditional own command → ∀ {head : Head} {before : TokenKind} {broken : List Token},
      Broken line ⟨opened, head⟩ before own broken → Conditional broken command
  | .plain hkeyword hcondition hthen => fun hbroken => by
      rcases broken_condition hline (.inl hkeyword) hcondition hopened hbroken with
        ⟨test', rfl, hcondition'⟩ | ⟨own', rfl, hown⟩
      · exact .plain hkeyword hcondition' hthen
      · exact .plain hkeyword hcondition (hthen.broken hline hopened hown)
  | .otherwise hkeyword hcondition hthen hbreaks hotherwise helse => fun hbroken => by
      rcases broken_condition hline (.inl hkeyword) hcondition hopened hbroken with
        ⟨test', rfl, hcondition'⟩ | ⟨_, rfl, hbehind⟩
      · exact .otherwise hkeyword hcondition' hthen hbreaks hotherwise helse
      rcases hbehind.of_append with ⟨own', rfl, hown⟩ | ⟨_, rfl, hrest⟩
      · exact .otherwise hkeyword hcondition (hthen.broken hline hopened hown) hbreaks hotherwise
          helse
      obtain ⟨other', rfl, hother⟩ := hrest.of_else hbreaks (hthen.after hopened) hotherwise hopened
      exact .otherwise hkeyword hcondition hthen hbreaks hotherwise
        (helse.broken hline hopened hother)
  | .chained hkeyword hcondition hthen hbreaks hotherwise helse => fun hbroken => by
      rcases broken_condition hline (.inl hkeyword) hcondition hopened hbroken with
        ⟨test', rfl, hcondition'⟩ | ⟨_, rfl, hbehind⟩
      · exact .chained hkeyword hcondition' hthen hbreaks hotherwise helse
      rcases hbehind.of_append with ⟨own', rfl, hown⟩ | ⟨_, rfl, hrest⟩
      · exact .chained hkeyword hcondition (hthen.broken hline hopened hown) hbreaks hotherwise
          helse
      obtain ⟨other', rfl, hother⟩ := hrest.of_else hbreaks (hthen.after hopened) hotherwise hopened
      exact .chained hkeyword hcondition hthen hbreaks hotherwise
        (helse.broken hline hopened hother)

theorem Block.broken (hline : line.kind = .newline) {opened : List Bracket}
    (hopened : Unbracketed opened) {own : List Token} {commands : List Command} :
    Block own commands → ∀ {before : TokenKind} {broken : List Token},
      Broken line ⟨opened, .block⟩ before own broken → Block broken commands
  | .braces hbreaks hopening hcommands hclosing => fun hbroken => by
      have hblock := Nesting.unbracketed_block opened
      obtain ⟨_, rfl, hfirst⟩ := hbroken.of_terminators hbreaks.terminators hopened
      obtain ⟨_, rfl, hsecond⟩ := hfirst.of_cons_unbracketed hopened
      rw [hopening, Nesting.step_block hopened] at hsecond
      rcases hsecond.of_append with ⟨own', rfl, hown⟩ | ⟨_, rfl, hlast⟩
      · exact .braces hbreaks hopening (hcommands.broken hline hblock hown) hclosing
      · rw [hcommands.after hblock] at hlast
        exact absurd hlast.of_singleton.2 (Nesting.not_skips hblock _ _)

theorem Compound.broken (hline : line.kind = .newline) {opened : List Bracket}
    (hopened : Unbracketed opened) {own : List Token} {command : Command} :
    Compound own command → ∀ {before : TokenKind} {broken : List Token},
      Broken line ⟨opened, .none⟩ before own broken → Compound broken command
  | .conditional hcommand => fun hbroken => .conditional (hcommand.broken hline hopened hbroken)
  | .loop hkeyword hcondition hbody => fun hbroken => by
      rcases broken_condition hline (.inr hkeyword) hcondition hopened hbroken with
        ⟨test', rfl, hcondition'⟩ | ⟨own', rfl, hown⟩
      · exact .loop hkeyword hcondition' hbody
      · exact .loop hkeyword hcondition (hbody.broken hline hopened hown)

/-- A newline that may be skipped leaves commands derived: it lies in one of them or is a
terminator. -/
theorem Commands.broken (hline : line.kind = .newline) {opened : List Bracket}
    (hopened : Unbracketed opened) {own : List Token} {commands : List Command} :
    Commands own commands → ∀ {before : TokenKind} {broken : List Token},
      Broken line ⟨opened, .none⟩ before own broken → Commands broken commands
  | .none hends => fun hbroken => by
      rw [← List.append_nil own] at hbroken
      obtain ⟨_, -, hnothing⟩ := hbroken.of_terminators hends hopened
      exact absurd hnothing Broken.not_nil
  | .simple hends hcommand hseparated hrest => fun hbroken => by
      obtain ⟨_, rfl, hfirst⟩ := hbroken.of_terminators hends hopened
      rcases hfirst.of_append with ⟨own', rfl, hown⟩ | ⟨rest', rfl, hbehind⟩
      · exact .simple hends (hcommand.broken hline hopened hown) hseparated hrest
      · rw [hcommand.after] at hbehind
        exact .simple hends hcommand (hseparated.broken hopened hbehind)
          (hrest.broken hline hopened hbehind)
  | .compound hends hcommand hrest => fun hbroken => by
      obtain ⟨_, rfl, hfirst⟩ := hbroken.of_terminators hends hopened
      rcases hfirst.of_append with ⟨own', rfl, hown⟩ | ⟨rest', rfl, hbehind⟩
      · exact .compound hends (hcommand.broken hline hopened hown) hrest
      · rw [hcommand.after hopened] at hbehind
        exact .compound hends hcommand (hrest.broken hline hopened hbehind)

end

end Grammar

end MetricScript
