import MetricScript.Proofs.Script.Grammar
import MetricScript.Proofs.Script.Scanning

/-!
# The parser accepts only its grammar

What each phrase reads is derived by the rule of the same name: if reading is done, the
tokens split into those that the phrase took, which the rules cover completely, and those
that are left.  The loops of the parser carry the derivation of what stands to their left.
-/

namespace MetricScript.Grammar

open Phrase

/-- The newlines at the front of some tokens are what skipping takes. -/
theorem exists_newlines (tokens : List Token) :
    ∃ breaks, Newlines breaks ∧ tokens = breaks ++ tokens.dropWhile (·.kind = .newline) := by
  refine ⟨tokens.takeWhile (·.kind = .newline), ?_, (List.takeWhile_append_dropWhile).symm⟩
  intro token hmem
  simpa using List.mem_takeWhile_imp hmem

/-- The terminators at the front of some tokens are what skipping takes. -/
theorem exists_terminators (tokens : List Token) :
    ∃ ends, Terminators ends ∧ tokens = ends ++ tokens.dropWhile (·.kind.isTerminator) := by
  refine ⟨tokens.takeWhile (·.kind.isTerminator), ?_, (List.takeWhile_append_dropWhile).symm⟩
  intro token hmem
  simpa using List.mem_takeWhile_imp hmem

/-- A token that is looked at and is not the end is the first of the tokens. -/
theorem exists_cons {tokens : List Token} {kind : TokenKind}
    (hkind : (nextToken tokens).kind = kind) (hend : kind ≠ .eof) :
    ∃ token following, tokens = token :: following ∧ token.kind = kind := by
  cases tokens with
  | nil => exact absurd hkind.symm hend
  | cons token following => exact ⟨token, following, rfl, hkind⟩

theorem exists_cons_of_valid {tokens : List Token} (hvalid : isValid (nextToken tokens).kind) :
    ∃ token following, tokens = token :: following := by
  cases tokens with
  | nil => exact nomatch hvalid
  | cons token following => exact ⟨token, following, rfl⟩

/-- An expectation that is met took one token. -/
theorem exists_of_expect {kind : TokenKind} {what : String} {tokens rest : List Token}
    {token : Token} (hdone : expect kind what tokens = .done token rest) (hend : kind ≠ .eof) :
    tokens = token :: rest ∧ token.kind = kind := by
  obtain ⟨rfl, hkind, rfl⟩ := expect_eq_done hdone
  exact ⟨eq_cons_of_nextToken hkind hend, hkind⟩

/-- A value that is read off one token. -/
theorem exists_of_advance {α : Type} {kind : TokenKind} {tokens rest : List Token}
    {read value : α} (hkind : (nextToken tokens).kind = kind) (hend : kind ≠ .eof)
    (hdone : (do advance; pure read : Phrase α) tokens = .done value rest) :
    ∃ token, tokens = token :: rest ∧ token.kind = kind ∧ value = read := by
  obtain ⟨token, following, rfl, hkind⟩ := exists_cons hkind hend
  obtain ⟨rfl, rfl⟩ := Outcome.done.inj hdone
  exact ⟨token, rfl, hkind, rfl⟩

/-- In round brackets stands a phrase, and newlines may stand around it. -/
theorem parenthesized_sound {α β : Type} {inner : Phrase α} {make : α → β} {what : String}
    {tokens rest : List Token} {value : β}
    (hdone : (do
      skipNewlines
      let content ← inner
      skipNewlines
      let _ ← expect .rightParen what
      pure (make content) : Phrase β) tokens = .done value rest) :
    ∃ before inside content after closing, Newlines before ∧ Newlines after ∧
      closing.kind = .rightParen ∧ tokens = before ++ inside ∧
      inner inside = .done content (after ++ closing :: rest) ∧ value = make content := by
  obtain ⟨before, hbefore, htokens⟩ := exists_newlines tokens
  rw [skipNewlines_bind] at hdone
  obtain ⟨content, middle, hinner, hmore⟩ := bind_eq_done hdone
  obtain ⟨after, hafter, hmiddle⟩ := exists_newlines middle
  rw [skipNewlines_bind] at hmore
  obtain ⟨closing, final, hexpect, hfinal⟩ := bind_eq_done hmore
  obtain ⟨hlast, hclosing⟩ := exists_of_expect hexpect (by decide)
  obtain ⟨rfl, rfl⟩ := Outcome.done.inj hfinal
  rw [hmiddle, hlast] at hinner
  exact ⟨before, _, content, after, closing, hbefore, hafter, hclosing, htokens, hinner, rfl⟩

/-- Behind an opening bracket stand newlines, and then the closing bracket or a list. -/
theorem bracketed_sound {α β : Type} {closingKind : TokenKind} {list : Phrase (List β)}
    {continuation : List β → Phrase α} {tokens rest : List Token} {value : α}
    (hclosingKind : closingKind ≠ .eof)
    (hdone : (do
      skipNewlines
      let items ← if ← eat closingKind then pure [] else list
      continuation items : Phrase α) tokens = .done value rest) :
    ∃ breaks inside, Newlines breaks ∧ tokens = breaks ++ inside ∧
      ((∃ closing following, closing.kind = closingKind ∧ inside = closing :: following ∧
        continuation [] following = .done value rest) ∨
      ∃ items following, list inside = .done items following ∧
        continuation items following = .done value rest) := by
  obtain ⟨breaks, hbreaks, htokens⟩ := exists_newlines tokens
  rw [skipNewlines_bind, eat_bind] at hdone
  refine ⟨breaks, _, hbreaks, htokens, ?_⟩
  split at hdone
  · next hkind =>
    obtain ⟨closing, following, hinside, hclosing⟩ := exists_cons hkind hclosingKind
    rw [hinside] at hdone ⊢
    exact .inl ⟨closing, following, hclosing, rfl, hdone⟩
  · exact .inr (bind_eq_done hdone)

/-- Between two items of a list stands a comma, behind the last one the closing bracket, and
newlines may stand around both. -/
theorem separator_sound {α : Type} {closingKind : TokenKind} {what : String}
    {others final : Phrase α} {tokens rest : List Token} {value : α}
    (hclosingKind : closingKind ≠ .eof)
    (hdone : (do
      skipNewlines
      if ← eat .comma then
        skipNewlines
        others
      else
        let _ ← expect closingKind what
        final : Phrase α) tokens = .done value rest) :
    (∃ before comma after inside, Newlines before ∧ comma.kind = .comma ∧ Newlines after ∧
      tokens = before ++ comma :: (after ++ inside) ∧ others inside = .done value rest) ∨
    (∃ breaks closing inside, Newlines breaks ∧ closing.kind = closingKind ∧
      tokens = breaks ++ closing :: inside ∧ final inside = .done value rest) := by
  obtain ⟨breaks, hbreaks, htokens⟩ := exists_newlines tokens
  rw [skipNewlines_bind, eat_bind] at hdone
  generalize tokens.dropWhile (·.kind = .newline) = inside at hdone htokens
  subst htokens
  split at hdone
  · next hkind =>
    obtain ⟨comma, following, rfl, hcomma⟩ := exists_cons hkind (by decide)
    obtain ⟨after, hafter, hfollowing⟩ := exists_newlines following
    exact .inl ⟨breaks, comma, after, following.dropWhile (·.kind = .newline), hbreaks, hcomma,
      hafter, by rw [← hfollowing], hdone⟩
  · obtain ⟨closing, middle, hfirst, hmore⟩ := bind_eq_done hdone
    obtain ⟨rfl, hclosing⟩ := exists_of_expect hfirst hclosingKind
    exact .inr ⟨breaks, closing, middle, hbreaks, hclosing, rfl, hmore⟩

/-- A comma that may be missing. -/
theorem optionalComma_sound {α : Type} {others : Phrase α} {tokens rest : List Token} {value : α}
    (hdone : (do
      let _ ← eat .comma
      others : Phrase α) tokens = .done value rest) :
    ∃ commas inside, OptionalComma commas ∧ tokens = commas ++ inside ∧
      others inside = .done value rest := by
  rw [eat_bind] at hdone
  split at hdone
  · next hkind =>
    obtain ⟨comma, following, rfl, hcomma⟩ := exists_cons hkind (by decide)
    exact ⟨[comma], following, .inr ⟨comma, hcomma, rfl⟩, rfl, hdone⟩
  · exact ⟨[], tokens, .inl rfl, rfl, hdone⟩

theorem named_sound {token : Token} (hkind : token.kind = .identifier) :
    Primary [token] (Parse.named token) := by
  unfold Parse.named
  split
  · next htext => exact .storage hkind htext
  · next htext => exact .name hkind htext

/-- An argument name that was read is a name and a colon, and new; else nothing was consumed. -/
theorem argumentName_sound {used : List String} {tokens rest : List Token}
    {name : Option String} (hdone : Parse.argumentName used tokens = .done name rest) :
    (name = none ∧ tokens = rest) ∨
      ∃ token colon : Token, token.kind = .identifier ∧ colon.kind = .colon ∧
        name = some token.text ∧ token.text ∉ used ∧ tokens = token :: colon :: rest := by
  simp only [Parse.argumentName, peek_bind, peekSecond_bind, choice_apply, advance_bind] at hdone
  split at hdone
  · next hkinds =>
    obtain ⟨hname, hcolon⟩ : (nextToken tokens).kind = .identifier ∧
        (nextToken tokens.tail).kind = .colon := by simpa using hkinds
    obtain ⟨token, following, rfl, hname⟩ := exists_cons hname (by decide)
    obtain ⟨colon, following, rfl, hcolon⟩ := exists_cons hcolon (by decide)
    split at hdone
    · exact nomatch hdone
    · next hnew =>
      obtain ⟨rfl, rfl⟩ := Outcome.done.inj hdone
      exact .inr ⟨token, colon, hname, hcolon, rfl, hnew, rfl⟩
  · obtain ⟨rfl, rfl⟩ := Outcome.done.inj hdone
    exact .inl ⟨rfl, rfl⟩

/-- A map key that was read is one token. -/
theorem mapKey_sound {tokens rest : List Token} {key : String}
    (hdone : Parse.mapKey tokens = .done key rest) :
    ∃ token, KeyToken token key ∧ tokens = token :: rest := by
  simp only [Parse.mapKey, peek_bind] at hdone
  generalize hkind : (nextToken tokens).kind = kind at hdone
  split at hdone
  · obtain ⟨token, rfl, hkind, rfl⟩ := exists_of_advance hkind (by decide) hdone
    exact ⟨token, .name hkind, rfl⟩
  · obtain ⟨token, rfl, hkind, rfl⟩ := exists_of_advance hkind (by decide) hdone
    exact ⟨token, .string hkind, rfl⟩
  · exact absurd hdone (unexpected_ne_done _ _ _ _ _)

/-- A name that is new before new names. -/
theorem argumentNames_fresh {used : List String} {name : Option String} {value : Expr}
    {arguments : List (Option String × Expr)} (hnew : ∀ given, name = some given → given ∉ used)
    (hdistinct : (argumentNames arguments).Nodup)
    (hunused : ∀ other ∈ argumentNames arguments, other ∉ used ++ name.toList) :
    (argumentNames ((name, value) :: arguments)).Nodup ∧
      ∀ other ∈ argumentNames ((name, value) :: arguments), other ∉ used := by
  cases name with
  | none => exact ⟨hdistinct, fun other hmem => by simpa using hunused other hmem⟩
  | some given =>
    have hgiven : given ∉ argumentNames arguments := fun hmem => by
      simpa using hunused given hmem
    refine ⟨List.nodup_cons.2 ⟨hgiven, hdistinct⟩, fun other hmem => ?_⟩
    rcases List.mem_cons.1 hmem with rfl | hmem
    · exact hnew other rfl
    · exact fun hused => hunused other hmem (List.mem_append_left _ hused)

theorem argumentNames_single {used : List String} {name : Option String} (value : Expr)
    (hnew : ∀ given, name = some given → given ∉ used) :
    (argumentNames [(name, value)]).Nodup ∧
      ∀ other ∈ argumentNames [(name, value)], other ∉ used :=
  argumentNames_fresh hnew List.nodup_nil fun _ hmem => nomatch hmem

mutual

/-- The tokens consumed by an expression are a derivation of it. -/
theorem expression_sound (depth : Nat) {tokens rest : List Token} {value : Expr}
    (hdone : Parse.expression depth tokens = .done value rest) :
    ∃ own, tokens = own ++ rest ∧ Expression own value := by
  match depth with
  | 0 => exact nomatch hdone
  | depth + 1 => exact binary_sound depth Parse.levels List.suffix_rfl hdone
termination_by structural depth

/-- So are those of one level of operators. -/
theorem binary_sound (depth : Nat) (levels : List Parse.Level)
    (hlevels : levels <:+ Parse.levels) {tokens rest : List Token}
    {value : Expr} (hdone : Parse.binary depth levels tokens = .done value rest) :
    ∃ own, tokens = own ++ rest ∧ Binary levels own value := by
  match depth, levels with
  | 0, _ => exact nomatch hdone
  | depth + 1, [] =>
    obtain ⟨own, rfl, hvalue⟩ := unary_sound depth hdone
    exact ⟨own, rfl, .operand hvalue⟩
  | depth + 1, level :: tighter =>
    have htighter := (List.suffix_cons level tighter).trans hlevels
    obtain ⟨left, middle, hfirst, hmore⟩ := bind_eq_done hdone
    obtain ⟨own, rfl, hleft⟩ := binary_sound depth tighter htighter hfirst
    obtain ⟨more, rfl, hvalue⟩ := operands_sound depth hlevels (.tighter hleft) hmore
    exact ⟨own ++ more, by simp, hvalue⟩
termination_by structural depth

/-- The operands behind a first one continue its derivation. -/
theorem operands_sound (depth : Nat) {level : Parse.Level} {tighter : List Parse.Level}
    (hlevels : level :: tighter <:+ Parse.levels)
    {before tokens rest : List Token} {left value : Expr}
    (hleft : Binary (level :: tighter) before left)
    (hdone : Parse.operands depth level tighter left tokens = .done value rest) :
    ∃ own, tokens = own ++ rest ∧ Binary (level :: tighter) (before ++ own) value := by
  match depth with
  | 0 => exact nomatch hdone
  | depth + 1 =>
    simp only [Parse.operands, peek_bind] at hdone
    generalize hsign : level.lookup (nextToken tokens).kind = found at hdone
    split at hdone
    · obtain ⟨rfl, rfl⟩ := Outcome.done.inj hdone
      exact ⟨[], rfl, by simpa using hleft⟩
    · have htighter := (List.suffix_cons level tighter).trans hlevels
      obtain ⟨sign, following, rfl⟩ :=
        exists_cons_of_valid (valid_of_lookup (hlevels.subset List.mem_cons_self) hsign)
      rw [advance_cons] at hdone
      obtain ⟨right, middle, hfirst, hmore⟩ := bind_eq_done hdone
      obtain ⟨own, rfl, hright⟩ := binary_sound depth tighter htighter hfirst
      have hjoined := Binary.joined hleft hsign hright
      rw [anchor_append hleft.anchored.1, ← hleft.anchored.2] at hjoined
      obtain ⟨more, rfl, hvalue⟩ := operands_sound depth hlevels hjoined hmore
      exact ⟨sign :: own ++ more, by simp, by simpa using hvalue⟩
termination_by structural depth

theorem unary_sound (depth : Nat) {tokens rest : List Token} {value : Expr}
    (hdone : Parse.unary depth tokens = .done value rest) :
    ∃ own, tokens = own ++ rest ∧ Unary own value := by
  match depth with
  | 0 => exact nomatch hdone
  | depth + 1 =>
    simp only [Parse.unary, peek_bind] at hdone
    generalize hsign : Parse.unaryOperator? (nextToken tokens).kind = found at hdone
    split at hdone
    · obtain ⟨sign, following, rfl⟩ := exists_cons_of_valid (valid_of_unaryOperator hsign)
      rw [advance_cons] at hdone
      obtain ⟨operand, middle, hfirst, hmore⟩ := bind_eq_done hdone
      obtain ⟨own, rfl, hoperand⟩ := unary_sound depth hfirst
      obtain ⟨rfl, rfl⟩ := Outcome.done.inj hmore
      exact ⟨sign :: own, rfl, .signed hsign hoperand⟩
    · obtain ⟨target, middle, hfirst, hmore⟩ := bind_eq_done hdone
      obtain ⟨own, rfl, htarget⟩ := primary_sound depth hfirst
      obtain ⟨more, rfl, hvalue⟩ := suffixes_sound depth (.plain htarget) hmore
      exact ⟨own ++ more, by simp, .plain hvalue⟩
termination_by structural depth

/-- Calls and properties continue the derivation of their target. -/
theorem suffixes_sound (depth : Nat) {before tokens rest : List Token} {target value : Expr}
    (htarget : Suffixed before target)
    (hdone : Parse.suffixes depth target tokens = .done value rest) :
    ∃ own, tokens = own ++ rest ∧ Suffixed (before ++ own) value := by
  match depth with
  | 0 => exact nomatch hdone
  | depth + 1 =>
    simp only [Parse.suffixes, peek_bind] at hdone
    generalize hkind : (nextToken tokens).kind = kind at hdone
    split at hdone
    · -- a property
      obtain ⟨dot, following, rfl, hdot⟩ := exists_cons hkind (by decide)
      rw [advance_cons] at hdone
      obtain ⟨name, middle, hfirst, hmore⟩ := bind_eq_done hdone
      obtain ⟨rfl, hname⟩ := exists_of_expect hfirst (by decide)
      have hproperty := Suffixed.property htarget hdot hname
      rw [anchor_append htarget.anchored.1, ← htarget.anchored.2] at hproperty
      obtain ⟨more, rfl, hvalue⟩ := suffixes_sound depth hproperty hmore
      exact ⟨dot :: name :: more, rfl, by simpa using hvalue⟩
    · -- a call
      obtain ⟨opening, following, rfl, hopening⟩ := exists_cons hkind (by decide)
      rw [advance_cons] at hdone
      obtain ⟨breaks, inside, hbreaks, rfl,
        ⟨closing, following, hclosing, rfl, hmore⟩ | ⟨arguments, following, hfirst, hmore⟩⟩ :=
        bracketed_sound (by decide) hdone
      · have hcall := Suffixed.call htarget hopening (.none hbreaks hclosing)
        rw [anchor_append htarget.anchored.1, ← htarget.anchored.2] at hcall
        obtain ⟨more, rfl, hvalue⟩ := suffixes_sound depth hcall hmore
        exact ⟨opening :: (breaks ++ [closing]) ++ more, by simp, by simpa using hvalue⟩
      · obtain ⟨own, rfl, harguments, hdistinct, _⟩ := argumentList_sound depth hfirst
        have hcall := Suffixed.call htarget hopening (.some hbreaks harguments hdistinct)
        rw [anchor_append htarget.anchored.1, ← htarget.anchored.2] at hcall
        obtain ⟨more, rfl, hvalue⟩ := suffixes_sound depth hcall hmore
        exact ⟨opening :: (breaks ++ own) ++ more, by simp, by simpa using hvalue⟩
    · obtain ⟨rfl, rfl⟩ := Outcome.done.inj hdone
      exact ⟨[], rfl, by simpa using htarget⟩
termination_by structural depth

theorem argumentList_sound (depth : Nat) {used : List String} {tokens rest : List Token}
    {arguments : List (Option String × Expr)}
    (hdone : Parse.argumentList depth used tokens = .done arguments rest) :
    ∃ own, tokens = own ++ rest ∧ ArgumentList own arguments ∧
      (argumentNames arguments).Nodup ∧ ∀ name ∈ argumentNames arguments, name ∉ used := by
  match depth with
  | 0 => exact nomatch hdone
  | depth + 1 =>
    obtain ⟨name, middle, hname, hnamed⟩ := bind_eq_done hdone
    obtain ⟨value, following, hfirst, hmore⟩ := bind_eq_done hnamed
    obtain ⟨own, rfl, hvalue⟩ := expression_sound depth hfirst
    obtain ⟨argument, rfl, hargument, hnew⟩ :
        ∃ argument, tokens = argument ++ following ∧ Argument argument (name, value) ∧
          ∀ given, name = some given → given ∉ used := by
      rcases argumentName_sound hname with
        ⟨rfl, rfl⟩ | ⟨token, colon, hidentifier, hcolon, rfl, hunused, rfl⟩
      · exact ⟨own, rfl, .unnamed hvalue, fun _ hnone => nomatch hnone⟩
      · refine ⟨token :: colon :: own, rfl, .named hidentifier hcolon hvalue, ?_⟩
        rintro given ⟨rfl⟩
        exact hunused
    rcases separator_sound (by decide) hmore with
      ⟨before, comma, after, inside, hbefore, hcomma, hafter, rfl, hothers⟩ |
      ⟨breaks, closing, inside, hbreaks, hclosing, rfl, hfinal⟩
    · obtain ⟨others, middle, hsecond, hfinal⟩ := bind_eq_done hothers
      obtain ⟨list, rfl, hlist, hdistinct, hunused⟩ := argumentList_sound depth hsecond
      obtain ⟨rfl, rfl⟩ := Outcome.done.inj hfinal
      exact ⟨_, by simp, .next hargument hbefore hcomma hafter hlist,
        argumentNames_fresh hnew hdistinct hunused⟩
    · obtain ⟨rfl, rfl⟩ := Outcome.done.inj hfinal
      exact ⟨_, by simp, .last hargument hbreaks hclosing,
        argumentNames_single _ hnew⟩
termination_by structural depth

/-- The tokens consumed by an operand are a derivation of it. -/
theorem primary_sound (depth : Nat) {tokens rest : List Token} {value : Expr}
    (hdone : Parse.primary depth tokens = .done value rest) :
    ∃ own, tokens = own ++ rest ∧ Primary own value := by
  match depth with
  | 0 => exact nomatch hdone
  | depth + 1 =>
    simp only [Parse.primary, peek_bind] at hdone
    generalize hkind : (nextToken tokens).kind = kind at hdone
    split at hdone
    · obtain ⟨token, following, rfl, hkind⟩ := exists_cons hkind (by decide)
      rw [advance_cons] at hdone
      generalize hread : Number.read? (nextToken (token :: following)).text = found at hdone
      split at hdone
      · obtain ⟨rfl, rfl⟩ := Outcome.done.inj hdone
        exact ⟨[token], rfl, .literal (.number hkind hread)⟩
      · exact nomatch hdone
    · obtain ⟨token, rfl, hkind, rfl⟩ := exists_of_advance hkind (by decide) hdone
      exact ⟨[token], rfl, .literal (.string hkind)⟩
    · obtain ⟨token, rfl, hkind, rfl⟩ := exists_of_advance hkind (by decide) hdone
      exact ⟨[token], rfl, .literal (.true hkind)⟩
    · obtain ⟨token, rfl, hkind, rfl⟩ := exists_of_advance hkind (by decide) hdone
      exact ⟨[token], rfl, .literal (.false hkind)⟩
    · obtain ⟨token, rfl, hkind, rfl⟩ := exists_of_advance hkind (by decide) hdone
      exact ⟨[token], rfl, .literal (.null hkind)⟩
    · obtain ⟨token, rfl, hkind, rfl⟩ := exists_of_advance hkind (by decide) hdone
      exact ⟨[token], rfl, .var hkind⟩
    · obtain ⟨token, rfl, hkind, rfl⟩ := exists_of_advance hkind (by decide) hdone
      exact ⟨[token], rfl, named_sound hkind⟩
    · -- a group
      obtain ⟨opening, following, rfl, hopening⟩ := exists_cons hkind (by decide)
      rw [advance_cons] at hdone
      obtain ⟨before, inside, content, after, closing, hbefore, hafter, hclosing, rfl, hfirst,
        rfl⟩ := parenthesized_sound hdone
      obtain ⟨own, rfl, hinner⟩ := expression_sound depth hfirst
      exact ⟨opening :: (before ++ (own ++ (after ++ [closing]))), by simp,
        .group hopening hbefore hinner hafter hclosing⟩
    · -- an array
      obtain ⟨opening, following, rfl, hopening⟩ := exists_cons hkind (by decide)
      rw [advance_cons] at hdone
      obtain ⟨breaks, inside, hbreaks, rfl,
        ⟨closing, following, hclosing, rfl, hmore⟩ | ⟨items, following, hfirst, hmore⟩⟩ :=
        bracketed_sound (by decide) hdone
      · obtain ⟨rfl, rfl⟩ := Outcome.done.inj hmore
        exact ⟨opening :: (breaks ++ [closing]), by simp,
          .array hopening (.none hbreaks hclosing)⟩
      · obtain ⟨own, rfl, hitems⟩ := itemList_sound depth hfirst
        obtain ⟨rfl, rfl⟩ := Outcome.done.inj hmore
        exact ⟨opening :: (breaks ++ own), by simp, .array hopening (.some hbreaks hitems)⟩
    · -- a map
      obtain ⟨opening, following, rfl, hopening⟩ := exists_cons hkind (by decide)
      rw [advance_cons] at hdone
      obtain ⟨entries, middle, hfirst, hmore⟩ := bind_eq_done hdone
      obtain ⟨own, rfl, hentries⟩ := entryList_sound depth hfirst
      obtain ⟨rfl, rfl⟩ := Outcome.done.inj hmore
      exact ⟨opening :: own, rfl, .map hopening hentries⟩
    · exact absurd hdone (unexpected_ne_done _ _ _ _ _)
termination_by structural depth

theorem itemList_sound (depth : Nat) {tokens rest : List Token} {items : List Expr}
    (hdone : Parse.itemList depth tokens = .done items rest) :
    ∃ own, tokens = own ++ rest ∧ ItemList own items := by
  match depth with
  | 0 => exact nomatch hdone
  | depth + 1 =>
    obtain ⟨item, following, hfirst, hmore⟩ := bind_eq_done hdone
    obtain ⟨own, rfl, hitem⟩ := expression_sound depth hfirst
    rcases separator_sound (by decide) hmore with
      ⟨before, comma, after, inside, hbefore, hcomma, hafter, rfl, hothers⟩ |
      ⟨breaks, closing, inside, hbreaks, hclosing, rfl, hfinal⟩
    · obtain ⟨others, middle, hsecond, hfinal⟩ := bind_eq_done hothers
      obtain ⟨list, rfl, hlist⟩ := itemList_sound depth hsecond
      obtain ⟨rfl, rfl⟩ := Outcome.done.inj hfinal
      exact ⟨_, by simp, .next hitem hbefore hcomma hafter hlist⟩
    · obtain ⟨rfl, rfl⟩ := Outcome.done.inj hfinal
      exact ⟨_, by simp, .last hitem hbreaks hclosing⟩
termination_by structural depth

theorem entryList_sound (depth : Nat) {tokens rest : List Token}
    {entries : List (String × Expr)}
    (hdone : Parse.entryList depth tokens = .done entries rest) :
    ∃ own, tokens = own ++ rest ∧ Entries own entries := by
  match depth with
  | 0 => exact nomatch hdone
  | depth + 1 =>
    obtain ⟨breaks, hbreaks, htokens⟩ := exists_newlines tokens
    rw [Parse.entryList, skipNewlines_bind, eat_bind] at hdone
    generalize tokens.dropWhile (·.kind = .newline) = inside at hdone htokens
    subst htokens
    split at hdone
    · next hkind =>
      obtain ⟨closing, following, rfl, hclosing⟩ := exists_cons hkind (by decide)
      obtain ⟨rfl, rfl⟩ := Outcome.done.inj hdone
      exact ⟨breaks ++ [closing], by simp, .none hbreaks hclosing⟩
    · obtain ⟨key, afterKey, hfirst, hkeyed⟩ := bind_eq_done hdone
      obtain ⟨token, hkey, rfl⟩ := mapKey_sound hfirst
      obtain ⟨colon, afterColon, hsecond, hmore⟩ := bind_eq_done hkeyed
      obtain ⟨rfl, hcolon⟩ := exists_of_expect hsecond (by decide)
      obtain ⟨middle, hmiddle, hsplit⟩ := exists_newlines afterColon
      rw [skipNewlines_bind] at hmore
      obtain ⟨value, afterValue, hthird, hvalued⟩ := bind_eq_done hmore
      obtain ⟨own, hinside, hvalue⟩ := expression_sound depth hthird
      obtain ⟨after, hafter, hnewlines⟩ := exists_newlines afterValue
      rw [skipNewlines_bind] at hvalued
      generalize afterValue.dropWhile (·.kind = .newline) = following at hvalued hnewlines
      obtain ⟨commas, others, hcommas, rfl, hothers⟩ := optionalComma_sound hvalued
      obtain ⟨list, final, hfourth, hfinal⟩ := bind_eq_done hothers
      obtain ⟨last, rfl, hlist⟩ := entryList_sound depth hfourth
      obtain ⟨rfl, rfl⟩ := Outcome.done.inj hfinal
      refine ⟨_, ?_, .next hbreaks hkey hcolon hmiddle hvalue hafter hcommas hlist⟩
      rw [hsplit, hinside, hnewlines]
      simp
termination_by structural depth

end

/-- An assignment takes the name, the sign and an expression. -/
theorem assignment_sound {depth : Nat} {kind : TokenKind} {make : Expr → Command}
    {tokens rest : List Token} {command : Command} (hend : kind ≠ .eof)
    (hkind : (nextToken tokens).kind = kind)
    (hassign : (nextToken tokens.tail).kind = .colon ∨ (nextToken tokens.tail).kind = .assign)
    (hdone : (do
      advance
      advance
      let value ← Parse.expression depth
      pure (make value) : Phrase Command) tokens = .done command rest) :
    ∃ name sign own value, tokens = name :: sign :: own ++ rest ∧ name.kind = kind ∧
      (sign.kind = .colon ∨ sign.kind = .assign) ∧ Expression own value ∧
      command = make value := by
  obtain ⟨name, following, rfl, hname⟩ := exists_cons hkind hend
  cases following with
  | nil => simp [Token.atEnd] at hassign
  | cons sign middle =>
    rw [advance_cons, advance_cons] at hdone
    obtain ⟨value, last, hfirst, hmore⟩ := bind_eq_done hdone
    obtain ⟨own, rfl, hvalue⟩ := expression_sound depth hfirst
    obtain ⟨rfl, rfl⟩ := Outcome.done.inj hmore
    exact ⟨name, sign, own, value, rfl, hname, hassign, hvalue, rfl⟩

/-- The tokens consumed by a simple command are a derivation of it. -/
theorem simpleCommand_sound {depth : Nat} {tokens rest : List Token} {command : Command}
    (hdone : Parse.simpleCommand depth tokens = .done command rest) :
    ∃ own, tokens = own ++ rest ∧ Simple own command := by
  have hevaluate {command : Command}
      (hdone : (do return .evaluate (← Parse.expression depth) : Phrase Command) tokens =
        .done command rest) : ∃ own, tokens = own ++ rest ∧ Simple own command := by
    obtain ⟨value, middle, hfirst, hmore⟩ := bind_eq_done hdone
    obtain ⟨own, rfl, hvalue⟩ := expression_sound depth hfirst
    obtain ⟨rfl, rfl⟩ := Outcome.done.inj hmore
    exact ⟨own, rfl, .evaluate hvalue⟩
  simp only [Parse.simpleCommand, peek_bind, peekSecond_bind, choice_apply] at hdone
  split at hdone
  · next hassign =>
    have hassign : (nextToken tokens.tail).kind = .colon ∨
        (nextToken tokens.tail).kind = .assign := by simpa using hassign
    generalize hkind : (nextToken tokens).kind = kind at hdone
    split at hdone
    · obtain ⟨name, sign, own, value, rfl, hname, hsign, hvalue, rfl⟩ :=
        assignment_sound (by decide) hkind hassign hdone
      exact ⟨name :: sign :: own, rfl, .setVariable hname hsign hvalue⟩
    · obtain ⟨name, sign, own, value, rfl, hname, hsign, hvalue, rfl⟩ :=
        assignment_sound (by decide) hkind hassign hdone
      exact ⟨name :: sign :: own, rfl, .setOutput hname hsign hvalue⟩
    · exact hevaluate hdone
  · exact hevaluate hdone

theorem commandEnd_sound {tokens rest : List Token}
    (hdone : Parse.commandEnd tokens = .done () rest) :
    tokens = rest ∧ EndsCommand (nextToken tokens).kind := by
  simp only [Parse.commandEnd, peek_bind] at hdone
  generalize (nextToken tokens).kind = kind at hdone ⊢
  split at hdone
  · exact ⟨(Outcome.done.inj hdone).2, .inl rfl⟩
  · exact ⟨(Outcome.done.inj hdone).2, .inl rfl⟩
  · exact ⟨(Outcome.done.inj hdone).2, .inr (.inl rfl)⟩
  · exact ⟨(Outcome.done.inj hdone).2, .inr (.inr rfl)⟩
  · exact absurd hdone (unexpected_ne_done _ _ _ _ _)

/-- Where a command ended, commands go on only after a newline or a semicolon. -/
theorem separated_of_endsCommand {own rest : List Token} {commands : List Command}
    (hcommands : Commands own commands) (hends : EndsCommand (nextToken (own ++ rest)).kind) :
    Separated own := by
  by_cases hown : own = []
  · exact .inl hown
  · rw [nextToken_append_of_ne_nil hown] at hends
    refine .inr ?_
    rcases hcommands.begins hown with hterminator | hbegins
    · exact hterminator
    · rcases hends with hterminator | hbrace | heof
      · exact hterminator
      · simp [hbrace, beginsCommand, beginsExpression] at hbegins
      · simp [heof, beginsCommand, beginsExpression] at hbegins

/-- A command before some commands, as the parser finds it. -/
theorem Commands.cons {ends own list rest : List Token} {command : Command}
    {commands : List Command} (hlist : Commands list commands) (hends : Terminators ends)
    (hcommand : Compound own command ∨
      Simple own command ∧ EndsCommand (nextToken (list ++ rest)).kind) :
    Commands (ends ++ (own ++ list)) (command :: commands) := by
  rcases hcommand with hcompound | ⟨hsimple, hend⟩
  · exact .compound hends hcompound hlist
  · exact .simple hends hsimple (separated_of_endsCommand hlist hend) hlist

/-- The lookahead consumes nothing, and what it finds is an `else` behind newlines. -/
theorem elseFollows_sound {tokens rest : List Token} {found : Bool}
    (hdone : Parse.elseFollows tokens = .done found rest) :
    tokens = rest ∧ (found = true →
      ∃ breaks otherwise following, Newlines breaks ∧ otherwise.kind = .elseKeyword ∧
        tokens = breaks ++ otherwise :: following ∧
        tokens.dropWhile (·.kind = .newline) = otherwise :: following) := by
  obtain ⟨breaks, hbreaks, htokens⟩ := exists_newlines tokens
  unfold Parse.elseFollows at hdone
  split at hdone
  · next otherwise following hdrop =>
    obtain ⟨rfl, rfl⟩ := Outcome.done.inj hdone
    refine ⟨rfl, fun hkind => ⟨breaks, otherwise, following, hbreaks, by simpa using hkind, ?_,
      hdrop⟩⟩
    rw [← hdrop]
    exact htokens
  · obtain ⟨rfl, rfl⟩ := Outcome.done.inj hdone
    exact ⟨rfl, fun hfalse => nomatch hfalse⟩

mutual

/-- The tokens consumed without a message by a command are a derivation of it. -/
theorem command_sound (depth : Nat) {tokens rest : List Token} {command : Command}
    (hdone : Parse.command depth tokens = ([], .done command rest)) :
    ∃ own, tokens = own ++ rest ∧
      (Compound own command ∨ Simple own command ∧ EndsCommand (nextToken rest).kind) := by
  match depth with
  | 0 => exact nomatch hdone
  | depth + 1 =>
    rw [Parse.command, Report.peek_bind] at hdone
    generalize hkind : (nextToken tokens).kind = kind at hdone
    split at hdone
    · obtain ⟨own, rfl, hcommand⟩ := conditional_sound depth hdone
      exact ⟨own, rfl, .inl (.conditional hcommand)⟩
    · obtain ⟨keyword, following, rfl, hkeyword⟩ := exists_cons hkind (by decide)
      rw [Report.advance_cons] at hdone
      obtain ⟨condition, middle, hfirst, hmore⟩ := Report.lift_bind_eq_done hdone
      obtain ⟨test, rfl, hcondition⟩ := expression_sound depth hfirst
      obtain ⟨body, last, hsecond, hfinal⟩ := Report.bind_eq_done hmore
      obtain ⟨own, rfl, hbody⟩ := block_sound depth hsecond
      obtain ⟨rfl, rfl⟩ := Outcome.done.inj (Prod.mk.inj hfinal).2
      exact ⟨keyword :: (test ++ own), by simp, .inl (.loop hkeyword hcondition hbody)⟩
    · obtain ⟨simple, middle, hfirst, hmore⟩ := Report.lift_bind_eq_done hdone
      obtain ⟨own, rfl, hcommand⟩ := simpleCommand_sound hfirst
      obtain ⟨_, last, hsecond, hfinal⟩ := Report.lift_bind_eq_done hmore
      obtain ⟨rfl, hends⟩ := commandEnd_sound hsecond
      obtain ⟨rfl, rfl⟩ := Outcome.done.inj (Prod.mk.inj hfinal).2
      exact ⟨own, rfl, .inr ⟨hcommand, hends⟩⟩
termination_by structural depth

theorem conditional_sound (depth : Nat) {tokens rest : List Token} {command : Command}
    (hdone : Parse.conditional depth tokens = ([], .done command rest)) :
    ∃ own, tokens = own ++ rest ∧ Conditional own command := by
  match depth with
  | 0 => exact nomatch hdone
  | depth + 1 =>
    obtain ⟨keyword, afterKeyword, hexpect, hmore⟩ := Report.lift_bind_eq_done hdone
    obtain ⟨rfl, hkeyword⟩ := exists_of_expect hexpect (by decide)
    obtain ⟨condition, afterTest, hfirst, htested⟩ := Report.lift_bind_eq_done hmore
    obtain ⟨test, rfl, hcondition⟩ := expression_sound depth hfirst
    obtain ⟨thenBranch, afterThen, hsecond, hbranched⟩ := Report.bind_eq_done htested
    obtain ⟨own, rfl, hthen⟩ := block_sound depth hsecond
    obtain ⟨found, middle, helse, hfound⟩ := Report.lift_bind_eq_done hbranched
    obtain ⟨rfl, hotherwise⟩ := elseFollows_sound helse
    rw [Report.choice_apply] at hfound
    split at hfound
    · next htrue =>
      obtain ⟨breaks, otherwise, following, hbreaks, hkind, rfl, hdrop⟩ := hotherwise htrue
      rw [Report.skipNewlines_bind, hdrop, Report.advance_cons, Report.peek_bind,
        Report.choice_apply] at hfound
      split at hfound
      · obtain ⟨inner, last, hthird, hfinal⟩ := Report.bind_eq_done hfound
        obtain ⟨other, rfl, hinner⟩ := conditional_sound depth hthird
        obtain ⟨rfl, rfl⟩ := Outcome.done.inj (Prod.mk.inj hfinal).2
        exact ⟨_, by simp, .chained hkeyword hcondition hthen hbreaks hkind hinner⟩
      · obtain ⟨elseBranch, last, hthird, hfinal⟩ := Report.bind_eq_done hfound
        obtain ⟨other, rfl, hblock⟩ := block_sound depth hthird
        obtain ⟨rfl, rfl⟩ := Outcome.done.inj (Prod.mk.inj hfinal).2
        exact ⟨_, by simp, .otherwise hkeyword hcondition hthen hbreaks hkind hblock⟩
    · obtain ⟨rfl, rfl⟩ := Outcome.done.inj (Prod.mk.inj hfound).2
      exact ⟨_, by simp, .plain hkeyword hcondition hthen⟩
termination_by structural depth

/-- So are those of a block. -/
theorem block_sound (depth : Nat) {tokens rest : List Token} {commands : List Command}
    (hdone : Parse.block depth tokens = ([], .done commands rest)) :
    ∃ own, tokens = own ++ rest ∧ Block own commands := by
  match depth with
  | 0 => exact nomatch hdone
  | depth + 1 =>
    obtain ⟨breaks, hbreaks, htokens⟩ := exists_newlines tokens
    rw [Parse.block, Report.skipNewlines_bind] at hdone
    obtain ⟨opening, inside, hexpect, hmore⟩ := Report.lift_bind_eq_done hdone
    obtain ⟨hinside, hopening⟩ := exists_of_expect hexpect (by decide)
    obtain ⟨own, closing, rfl, hclosing, hcommands⟩ := blockCommands_sound depth hmore
    refine ⟨_, ?_, .braces hbreaks hopening hcommands hclosing⟩
    rw [htokens, hinside]
    simp
termination_by structural depth

theorem blockCommands_sound (depth : Nat) {tokens rest : List Token} {commands : List Command}
    (hdone : Parse.blockCommands depth tokens = ([], .done commands rest)) :
    ∃ own closing, tokens = own ++ closing :: rest ∧ closing.kind = .rightBrace ∧
      Commands own commands := by
  match depth with
  | 0 => exact nomatch hdone
  | depth + 1 =>
    obtain ⟨ends, hends, htokens⟩ := exists_terminators tokens
    rw [Parse.blockCommands, Report.skipTerminators_bind, Report.peek_bind] at hdone
    generalize tokens.dropWhile (·.kind.isTerminator) = inside at hdone htokens
    subst htokens
    generalize hkind : (nextToken inside).kind = kind at hdone
    split at hdone
    · obtain ⟨closing, following, rfl, hclosing⟩ := exists_cons hkind (by decide)
      obtain ⟨rfl, rfl⟩ := Outcome.done.inj (Prod.mk.inj hdone).2
      exact ⟨ends, closing, rfl, hclosing, .none hends⟩
    · exact absurd (Prod.mk.inj hdone).2 (unexpected_ne_done _ _ _ _ _)
    · obtain ⟨found, middle, hattempt, hmore⟩ := Report.bind_eq_done hdone
      obtain ⟨command, rfl, hfirst⟩ := Report.attempt_eq_done hattempt
      obtain ⟨others, last, hsecond, hfinal⟩ := Report.bind_eq_done hmore
      obtain ⟨list, closing, rfl, hclosing, hlist⟩ := blockCommands_sound depth hsecond
      obtain ⟨own, rfl, hcommand⟩ := command_sound depth hfirst
      obtain ⟨rfl, rfl⟩ := Outcome.done.inj (Prod.mk.inj hfinal).2
      exact ⟨ends ++ (own ++ list), closing, by simp, hclosing, hlist.cons hends hcommand⟩
termination_by structural depth

end

/-- So are those of a script, up to the end token. -/
theorem scriptCommands_sound (depth : Nat) {tokens rest : List Token}
    {commands : MetricScript.Script}
    (hdone : Parse.scriptCommands depth tokens = ([], .done commands rest)) :
    ∃ own, tokens = own ++ rest ∧ (nextToken rest).kind = .eof ∧ Commands own commands := by
  induction depth generalizing tokens rest commands with
  | zero => exact nomatch hdone
  | succ depth ih =>
    obtain ⟨ends, hends, htokens⟩ := exists_terminators tokens
    rw [Parse.scriptCommands, Report.skipTerminators_bind, Report.peek_bind] at hdone
    generalize tokens.dropWhile (·.kind.isTerminator) = inside at hdone htokens
    subst htokens
    generalize hkind : (nextToken inside).kind = kind at hdone
    split at hdone
    · obtain ⟨rfl, rfl⟩ := Outcome.done.inj (Prod.mk.inj hdone).2
      exact ⟨ends, rfl, hkind, .none hends⟩
    · -- a stray brace is recorded
      rw [Report.advance_bind] at hdone
      obtain ⟨_, _, hrecord, _⟩ := Report.bind_eq_done hdone
      exact nomatch (Prod.mk.inj hrecord).1
    · obtain ⟨found, middle, hattempt, hmore⟩ := Report.bind_eq_done hdone
      obtain ⟨command, rfl, hfirst⟩ := Report.attempt_eq_done hattempt
      obtain ⟨others, last, hsecond, hfinal⟩ := Report.bind_eq_done hmore
      obtain ⟨list, rfl, heof, hlist⟩ := ih hsecond
      obtain ⟨own, rfl, hcommand⟩ := command_sound depth hfirst
      obtain ⟨rfl, rfl⟩ := Outcome.done.inj (Prod.mk.inj hfinal).2
      exact ⟨ends ++ (own ++ list), by simp, heof, hlist.cons hends hcommand⟩

theorem parseTokens_sound {tokens : List Token} {commands : MetricScript.Script}
    (hparse : parseTokens tokens = .script commands) :
    ∃ own rest, tokens = own ++ rest ∧ (nextToken rest).kind = .eof ∧
      Commands own commands := by
  unfold parseTokens at hparse
  split at hparse
  · next found rest hdone =>
    obtain rfl := Parsed.script.inj hparse
    obtain ⟨own, rfl, heof, hcommands⟩ := scriptCommands_sound _ hdone
    exact ⟨own, rest, rfl, heof, hcommands⟩
  · exact nomatch hparse
  · exact nomatch hparse
  · exact nomatch hparse

/-- A text that parses is scanned to the end, and all tokens before the end token derive its
commands. -/
theorem commands_of_parse {source : String} {commands : MetricScript.Script}
    (hparse : parse source = .script commands) :
    ∃ own final, tokens? source = some (own ++ [final]) ∧ final.kind = .eof ∧
      Commands own commands := by
  unfold parse at hparse
  split at hparse
  · next tokens htokens =>
    obtain ⟨own, rest, rfl, heof, hcommands⟩ := parseTokens_sound hparse
    obtain ⟨body, final, hsplit, hfinal, hbody⟩ := Cursor.tokens?_eq_append_eof htokens rfl
    rcases List.eq_nil_or_concat rest with rfl | ⟨before, last, rfl⟩
    · -- the end token cannot be among those of the commands
      have hmem : final ∈ own := by
        rw [List.append_nil] at hsplit
        simp [hsplit]
      exact nomatch (hfinal ▸ hcommands.allValid final hmem : isValid .eof)
    · rw [List.concat_eq_append, ← List.append_assoc] at hsplit htokens
      obtain ⟨rfl, hlast⟩ := List.append_inj' hsplit rfl
      obtain rfl : last = final := by simpa using hlast
      obtain rfl : before = [] := by
        cases before with
        | nil => rfl
        | cons token before => exact absurd heof (hbody token (by simp))
      rw [List.append_nil] at htokens
      exact ⟨own, last, htokens, hfinal, hcommands⟩
  · exact nomatch hparse

end MetricScript.Grammar
