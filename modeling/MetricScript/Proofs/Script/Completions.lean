import Mathlib
import MetricScript.Proofs.Script.Derivation
import MetricScript.Proofs.Script.Lexemes
import MetricScript.Proofs.Script.Settled
import MetricScript.Proofs.Script.Soundness

/-!
# Faults are found at once

A phrase that fails does so at the first token that cannot follow what was read.  What was read
before this token can be completed: a pending operator with an operand, an open bracket with what
closes it, half an entry with the rest of the entry, a condition with an empty block.

Each phrase is read within something else, of which only the beginning has been read.  If this can
be completed behind whatever the phrase may read, it can be completed where the phrase fails.

What a phrase leaves and where it fails is one statement for all phrases.  Here each phrase has a
statement of its own, with the derivations that complete it, so the walk is one of its own too.
-/

namespace MetricScript

variable {α β : Type}

/-! ## Completions -/

/-- The token is read as it stands before anything that separates tokens. -/
def Token.Detached (token : Token) : Prop :=
  Scan.Reads token.kind token.text.toList [] ∧ ¬ Scan.Unbounded token.kind

/-- The symbol or keyword of a kind. -/
def Token.missing (kind : TokenKind) : Token := ⟨kind, Rendering.spelling kind, .start⟩

/-- A word that is scanned wherever it stands apart is read up to its end. -/
theorem Rendering.Scannable.reads {word : Rendering.Word} (hword : Rendering.Scannable word) :
    Scan.Reads word.kind word.text.toList [] := by
  obtain ⟨first, more, -, hgap, hcomment, htake⟩ := hword [] Rendering.boundary_nil
  rw [List.append_nil] at hcomment htake
  rcases Scan.takes_take hgap hcomment with htakes | ⟨-, hstuck⟩
  · rw [htake] at htakes
    exact htakes.reads
  · -- a stuck scanner leaves all of the text, and this one leaves nothing
    rw [htake] at hstuck
    cases congrArg Scan.Piece.rest hstuck

theorem Token.missing_detached {kind : TokenKind} (hkind : Rendering.isFixed kind) :
    (missing kind).Detached := by
  refine ⟨(Rendering.fixed_scannable hkind).reads, fun hopen => ?_⟩
  simp only [Scan.Unbounded, missing, List.mem_cons, List.not_mem_nil, or_false] at hopen
  rcases hopen with rfl | rfl | rfl <;> cases hkind

def Token.someName : Token := ⟨.identifier, "x", .start⟩

theorem Token.someName_detached : someName.Detached := by
  have hname : Rendering.Identifier "x" := by
    simp [Rendering.Identifier, Scan.isIdentifierChar, Text.isBlank, Scan.isSymbol, Number.isDigit]
  exact ⟨(Rendering.name_scannable hname).reads, by simp [Scan.Unbounded, someName]⟩

/-- Tokens can be added behind these so that it holds of all together. -/
def Completes (holds : List Token → Prop) (own : List Token) : Prop :=
  ∃ more : List Token, (∀ token ∈ more, token.Detached) ∧ holds (own ++ more)

section

variable {holds : List Token → Prop} {before own rest tokens : List Token}

/-- What holds already needs no completion. -/
theorem Completes.of_holds (hholds : holds own) : Completes holds own :=
  ⟨[], by simp, by simpa using hholds⟩

/-- The tokens at the end may be missing. -/
theorem Completes.of_append (more : List Token) (hcompletes : Completes holds (own ++ more))
    (hmore : ∀ token ∈ more, token.Detached) : Completes holds own := by
  obtain ⟨others, hothers, hholds⟩ := hcompletes
  exact ⟨more ++ others, List.forall_mem_append.2 ⟨hmore, hothers⟩, by rwa [← List.append_assoc]⟩

/-- The message is about the first token behind some that can be completed. -/
def SyntaxError.Prompt (holds : List Token → Prop) (before tokens : List Token)
    (error : SyntaxError) : Prop :=
  ∃ own rest message, tokens = own ++ rest ∧ error = .about message (nextToken rest) ∧
    Completes holds (before ++ own)

theorem SyntaxError.prompt_about (message : String) (hbefore : Completes holds before) :
    (about message (nextToken tokens)).Prompt holds before tokens :=
  ⟨[], tokens, message, rfl, rfl, by rwa [List.append_nil]⟩

theorem SyntaxError.Prompt.after {error : SyntaxError}
    (herror : error.Prompt holds (before ++ own) rest) :
    error.Prompt holds before (own ++ rest) := by
  obtain ⟨read, behind, message, rfl, habout, hcompletes⟩ := herror
  exact ⟨own ++ read, behind, message, by simp, habout, by rwa [← List.append_assoc]⟩

/-- A failure is about the first token behind some that can be completed. -/
def Outcome.Prompt (holds : List Token → Prop) (before tokens : List Token) : Outcome α → Prop
  | .failed error _ => error.Prompt holds before tokens
  | _ => True

theorem Outcome.Prompt.after (own : List Token) {outcome : Outcome α}
    (houtcome : outcome.Prompt holds (before ++ own) rest) :
    outcome.Prompt holds before (own ++ rest) := by
  cases outcome with
  | failed error left => exact SyntaxError.Prompt.after houtcome
  | done | exhausted => trivial

namespace Phrase

open Grammar

theorem prompt_pure (value : α) :
    ((pure value : Phrase α) tokens).Prompt holds before tokens := trivial

theorem prompt_unexpected (message : String) (hbefore : Completes holds before) :
    ((unexpected (nextToken tokens) message : Phrase α) tokens).Prompt holds before tokens := by
  unfold unexpected
  cases (nextToken tokens).kind <;> exact SyntaxError.prompt_about _ hbefore

/-- The second of two phrases is prompt behind every derivation of the first. -/
theorem prompt_bind {phrase : Phrase β} {next : β → Phrase α} {derives : List Token → β → Prop}
    (hsound : ∀ {value rest}, phrase tokens = .done value rest →
      ∃ own, tokens = own ++ rest ∧ derives own value)
    (hfirst : (phrase tokens).Prompt holds before tokens)
    (hnext : ∀ own value rest, derives own value →
      (next value rest).Prompt holds (before ++ own) rest) :
    ((phrase >>= next) tokens).Prompt holds before tokens := by
  simp only [bind]
  cases houtcome : phrase tokens with
  | done value rest =>
    obtain ⟨own, rfl, hown⟩ := hsound houtcome
    exact (hnext own value rest hown).after own
  | failed error rest =>
    rw [houtcome] at hfirst
    exact hfirst
  | exhausted => trivial

theorem prompt_map {phrase : Phrase β} (make : β → α)
    (hphrase : (phrase tokens).Prompt holds before tokens) :
    ((do return make (← phrase) : Phrase α) tokens).Prompt holds before tokens := by
  simp only [bind]
  cases houtcome : phrase tokens with
  | done | exhausted => trivial
  | failed error rest =>
    rw [houtcome] at hphrase
    exact hphrase

theorem prompt_advance {kind : TokenKind} {next : Unit → Phrase α}
    (hkind : (nextToken tokens).kind = kind) (hend : kind ≠ .eof)
    (hnext : ∀ token rest, token.kind = kind →
      (next () rest).Prompt holds (before ++ [token]) rest) :
    ((advance >>= next) tokens).Prompt holds before tokens := by
  obtain ⟨token, rest, rfl, hkind⟩ := exists_cons hkind hend
  exact (hnext token rest hkind).after [token]

theorem prompt_skipNewlines {next : Unit → Phrase α}
    (hnext : ∀ breaks rest, Newlines breaks →
      (next () rest).Prompt holds (before ++ breaks) rest) :
    ((skipNewlines >>= next) tokens).Prompt holds before tokens := by
  obtain ⟨breaks, hbreaks, htokens⟩ := exists_newlines tokens
  rw [skipNewlines_bind]
  conv => arg 3; rw [htokens]
  exact (hnext breaks _ hbreaks).after breaks

theorem prompt_eat {kind : TokenKind} {next : Bool → Phrase α} (hend : kind ≠ .eof)
    (htaken : ∀ token rest, token.kind = kind →
      (next true rest).Prompt holds (before ++ [token]) rest)
    (hleft : (next false tokens).Prompt holds before tokens) :
    ((eat kind >>= next) tokens).Prompt holds before tokens := by
  rw [eat_bind]
  split
  · next hkind =>
    obtain ⟨token, rest, rfl, hkind⟩ := exists_cons hkind hend
    exact (htaken token rest hkind).after [token]
  · exact hleft

theorem expect_taken {kind : TokenKind} {what : String} {token : Token} (hend : kind ≠ .eof)
    (hdone : expect kind what tokens = .done token rest) :
    ∃ own, tokens = own ++ rest ∧ own = [token] ∧ token.kind = kind := by
  obtain ⟨htokens, hkind⟩ := exists_of_expect hdone hend
  exact ⟨[token], htokens, rfl, hkind⟩

theorem expect_prompt {kind : TokenKind} {what : String} (hbefore : Completes holds before) :
    (expect kind what tokens).Prompt holds before tokens := by
  change ((if (nextToken tokens).kind = kind then _ else _ : Phrase Token) tokens).Prompt _ _ _
  split
  · trivial
  · exact prompt_unexpected _ hbefore

theorem prompt_expect {kind : TokenKind} {what : String} {next : Token → Phrase α}
    (hend : kind ≠ .eof) (hbefore : Completes holds before)
    (hnext : ∀ token rest, token.kind = kind →
      (next token rest).Prompt holds (before ++ [token]) rest) :
    ((expect kind what >>= next) tokens).Prompt holds before tokens := by
  refine prompt_bind (expect_taken hend) (expect_prompt hbefore) ?_
  rintro _ token rest ⟨rfl, hkind⟩
  exact hnext token rest hkind

/-- Behind an opening bracket stand newlines, and then the closing bracket or a list. -/
theorem prompt_bracketed {closingKind : TokenKind} {list : Phrase (List β)}
    {continuation : List β → Phrase α} {derives : List Token → List β → Prop}
    (hend : closingKind ≠ .eof)
    (hsound : ∀ {tokens rest items}, list tokens = .done items rest →
      ∃ own, tokens = own ++ rest ∧ derives own items)
    (hlist : ∀ breaks rest, Newlines breaks → (list rest).Prompt holds (before ++ breaks) rest)
    (hnone : ∀ breaks closing rest, Newlines breaks → closing.kind = closingKind →
      (continuation [] rest).Prompt holds (before ++ (breaks ++ [closing])) rest)
    (hsome : ∀ breaks own items rest, Newlines breaks → derives own items →
      (continuation items rest).Prompt holds (before ++ (breaks ++ own)) rest) :
    ((do
      skipNewlines
      let items ← if ← eat closingKind then pure [] else list
      continuation items : Phrase α) tokens).Prompt holds before tokens := by
  refine prompt_skipNewlines fun breaks inside hbreaks => ?_
  refine prompt_eat hend (fun closing rest hclosing => ?_) ?_
  · rw [List.append_assoc]
    exact hnone breaks closing rest hbreaks hclosing
  · refine prompt_bind hsound (hlist breaks inside hbreaks) fun own items rest hown => ?_
    rw [List.append_assoc]
    exact hsome breaks own items rest hbreaks hown

/-- Behind an item come a comma and more, or the closing bracket, which may be missing. -/
theorem prompt_separated {closingKind : TokenKind} {what : String} {others : Phrase α} {value : α}
    (hend : closingKind ≠ .eof)
    (hclosing : ∀ breaks, Newlines breaks → Completes holds (before ++ breaks))
    (hothers : ∀ left comma right rest, Newlines left → comma.kind = .comma → Newlines right →
      (others rest).Prompt holds (before ++ (left ++ comma :: right)) rest) :
    ((do
      skipNewlines
      if ← eat .comma then
        skipNewlines
        others
      else
        let _ ← expect closingKind what
        pure value : Phrase α) tokens).Prompt holds before tokens := by
  refine prompt_skipNewlines fun left inside hleft => ?_
  refine prompt_eat (by decide) (fun comma rest hcomma => ?_) ?_
  · refine prompt_skipNewlines fun right final hright => ?_
    have hmore := hothers left comma right final hleft hcomma hright
    simpa using hmore
  · exact prompt_expect hend (hclosing left hleft) fun _ _ _ => prompt_pure value

end Phrase

namespace Parse

open Phrase Grammar

/-! ## Expressions -/

/-- The tokens of the name of an argument, which is not used before, or no tokens. -/
def NameTokens (used : List String) (own : List Token) (name : Option String) : Prop :=
  own = [] ∧ name = none ∨ ∃ token colon : Token, own = [token, colon] ∧
    token.kind = .identifier ∧ colon.kind = .colon ∧ name = some token.text ∧ token.text ∉ used

theorem NameTokens.argument {used : List String} {name : Option String} {value : Expr}
    {named : List Token} (hname : NameTokens used named name) (hvalue : Expression own value) :
    Argument (named ++ own) (name, value) ∧ ∀ given, name = some given → given ∉ used := by
  rcases hname with ⟨rfl, rfl⟩ | ⟨token, colon, rfl, hidentifier, hcolon, rfl, hunused⟩
  · exact ⟨.unnamed hvalue, by simp⟩
  · refine ⟨.named hidentifier hcolon hvalue, ?_⟩
    rintro given ⟨rfl⟩
    exact hunused

theorem argumentName_nameTokens {used : List String} {name : Option String}
    (hdone : argumentName used tokens = .done name rest) :
    ∃ own, tokens = own ++ rest ∧ NameTokens used own name := by
  rcases argumentName_sound hdone with
    ⟨rfl, rfl⟩ | ⟨token, colon, hidentifier, hcolon, rfl, hunused, rfl⟩
  · exact ⟨[], rfl, .inl ⟨rfl, rfl⟩⟩
  · exact ⟨[token, colon], rfl, .inr ⟨token, colon, rfl, hidentifier, hcolon, rfl, hunused⟩⟩

theorem argumentName_prompt (used : List String) (hbefore : Completes holds before) :
    (argumentName used tokens).Prompt holds before tokens := by
  simp only [argumentName, peek_bind, peekSecond_bind, choice_apply, advance_bind]
  split
  · split
    · exact SyntaxError.prompt_about _ hbefore
    · trivial
  · trivial

theorem mapKey_prompt (hbefore : Completes holds before) :
    (mapKey tokens).Prompt holds before tokens := by
  rw [mapKey, peek_bind]
  generalize (nextToken tokens).kind = kind
  cases kind with
  | identifier | string => trivial
  | _ => exact prompt_unexpected _ hbefore

theorem mapKey_taken {key : String} (hdone : mapKey tokens = .done key rest) :
    ∃ own, tokens = own ++ rest ∧ ∃ token, own = [token] ∧ KeyToken token key := by
  obtain ⟨token, hkey, htokens⟩ := mapKey_sound hdone
  exact ⟨[token], htokens, token, rfl, hkey⟩

/-- An operand that is missing. -/
theorem expression_null (levels : List Level) :
    Binary levels [.missing .nullLiteral] (.literal .start .null) := by
  induction levels with
  | nil => exact .operand (.plain (.plain (.literal (.null rfl))))
  | cons level tighter ih => exact .tighter ih

/-- Symbols and keywords at the end may be missing. -/
theorem Completes.of_missing (kinds : List TokenKind)
    (hcompletes : Completes holds (own ++ kinds.map Token.missing))
    (hkinds : ∀ kind ∈ kinds, Rendering.isFixed kind := by decide) : Completes holds own := by
  refine hcompletes.of_append _ fun token hmem => ?_
  obtain ⟨kind, hkind, rfl⟩ := List.mem_map.1 hmem
  exact Token.missing_detached (hkinds kind hkind)

mutual

/-- The first fault of an expression comes while the text can still be completed. -/
theorem expression_prompt (depth : Nat) {before tokens : List Token}
    (hrest : ∀ own value, Expression own value → Completes holds (before ++ own)) :
    (expression depth tokens).Prompt holds before tokens := by
  match depth with
  | 0 => trivial
  | depth + 1 => exact binary_prompt depth List.suffix_rfl hrest
termination_by structural depth

theorem binary_prompt (depth : Nat) {levels : List Level} (hlevels : levels <:+ Parse.levels)
    {before tokens : List Token}
    (hrest : ∀ own value, Binary levels own value → Completes holds (before ++ own)) :
    (binary depth levels tokens).Prompt holds before tokens := by
  match depth, levels with
  | 0, _ => trivial
  | depth + 1, [] =>
    exact unary_prompt depth fun own value hvalue => hrest own value (.operand hvalue)
  | depth + 1, level :: tighter =>
    have htighter := (List.suffix_cons level tighter).trans hlevels
    refine prompt_bind (binary_sound depth tighter htighter)
      (binary_prompt depth htighter fun own value hvalue => hrest own value (.tighter hvalue))
      fun own left rest hleft => ?_
    exact operands_prompt depth hlevels left (.tighter hleft) hrest
termination_by structural depth

/-- So does the first fault behind an operand that was read. -/
theorem operands_prompt (depth : Nat) {level : Level} {tighter : List Level}
    (hlevels : level :: tighter <:+ Parse.levels) {before read tokens : List Token}
    {value : Expr} (left : Expr) (hleft : Binary (level :: tighter) read value)
    (hrest : ∀ own value, Binary (level :: tighter) own value → Completes holds (before ++ own)) :
    (operands depth level tighter left tokens).Prompt holds (before ++ read) tokens := by
  match depth with
  | 0 => trivial
  | depth + 1 =>
    rw [operands, peek_bind]
    generalize hsign : level.lookup (nextToken tokens).kind = found
    cases found with
    | none => trivial
    | some operator =>
      have htighter := (List.suffix_cons level tighter).trans hlevels
      obtain ⟨sign, rest, rfl⟩ :=
        exists_cons_of_valid (valid_of_lookup (hlevels.subset List.mem_cons_self) hsign)
      refine Outcome.Prompt.after [sign] ?_
      refine prompt_bind (binary_sound depth tighter htighter)
        (binary_prompt depth htighter fun own value hvalue => ?_) fun own right rest hright => ?_
      · simpa using hrest (read ++ sign :: own) _ (.joined hleft hsign hvalue)
      · rw [show before ++ read ++ [sign] ++ own = before ++ (read ++ sign :: own) by simp]
        exact operands_prompt depth hlevels _ (.joined hleft hsign hright) hrest
termination_by structural depth

theorem unary_prompt (depth : Nat) {before tokens : List Token}
    (hrest : ∀ own value, Unary own value → Completes holds (before ++ own)) :
    (unary depth tokens).Prompt holds before tokens := by
  match depth with
  | 0 => trivial
  | depth + 1 =>
    rw [unary, peek_bind]
    generalize hsign : unaryOperator? (nextToken tokens).kind = found
    cases found with
    | some operator =>
      obtain ⟨sign, rest, rfl⟩ := exists_cons_of_valid (valid_of_unaryOperator hsign)
      refine Outcome.Prompt.after [sign] ?_
      refine prompt_map _ (unary_prompt depth fun own value hvalue => ?_)
      simpa using hrest (sign :: own) _ (.signed hsign hvalue)
    | none =>
      refine prompt_bind (primary_sound depth)
        (primary_prompt depth fun own value hvalue => hrest own value (.plain (.plain hvalue)))
        fun own target rest htarget => ?_
      exact suffixes_prompt depth target (.plain htarget) fun own value hvalue =>
        hrest own value (.plain hvalue)
termination_by structural depth

/-- So does the first fault behind the target of a call or a property. -/
theorem suffixes_prompt (depth : Nat) {before read tokens : List Token} {value : Expr}
    (target : Expr) (htarget : Suffixed read value)
    (hrest : ∀ own value, Suffixed own value → Completes holds (before ++ own)) :
    (suffixes depth target tokens).Prompt holds (before ++ read) tokens := by
  match depth with
  | 0 => trivial
  | depth + 1 =>
    rw [suffixes, peek_bind]
    generalize hkind : (nextToken tokens).kind = kind
    cases kind with
    | dot =>
      refine prompt_advance hkind (by decide) fun dot rest hdot => ?_
      refine prompt_expect (by decide) ?_ fun name behind hname => ?_
      · have hproperty := hrest (read ++ [dot, .someName]) _ (.property htarget hdot rfl)
        refine Completes.of_append [.someName] (by simpa using hproperty) ?_
        simpa using Token.someName_detached
      · rw [show before ++ read ++ [dot] ++ [name] = before ++ (read ++ [dot, name]) by simp]
        exact suffixes_prompt depth _ (.property htarget hdot hname) hrest
    | leftParen =>
      refine prompt_advance hkind (by decide) fun opening rest hopening => ?_
      have hcall (list : List Token) (arguments : List (Option String × Expr))
          (harguments : Arguments list arguments) :
          Suffixed (read ++ opening :: list) (.call _ value arguments) :=
        .call htarget hopening harguments
      have hbehind (list : List Token) :
          before ++ read ++ [opening] ++ list = before ++ (read ++ opening :: list) := by simp
      refine prompt_bracketed (by decide) (argumentList_sound depth)
        (fun breaks inside hbreaks => ?_) (fun breaks closing inside hbreaks hclosing => ?_)
        fun breaks own arguments inside hbreaks harguments => ?_
      · refine argumentList_prompt depth fun own arguments harguments hfresh => ?_
        simpa using hrest _ _ (hcall (breaks ++ own) arguments (.some hbreaks harguments hfresh.1))
      · rw [hbehind]
        exact suffixes_prompt depth _ (hcall _ [] (.none hbreaks hclosing)) hrest
      · rw [hbehind]
        exact suffixes_prompt depth _
          (hcall _ arguments (.some hbreaks harguments.1 harguments.2.1)) hrest
    | _ => trivial
termination_by structural depth

/-- An argument list can be completed while its names are new. -/
theorem argumentList_prompt (depth : Nat) {used : List String} {before tokens : List Token}
    (hrest : ∀ own arguments, ArgumentList own arguments →
      ((argumentNames arguments).Nodup ∧ ∀ name ∈ argumentNames arguments, name ∉ used) →
      Completes holds (before ++ own)) :
    (argumentList depth used tokens).Prompt holds before tokens := by
  match depth with
  | 0 => trivial
  | depth + 1 =>
    -- the closing parenthesis may be missing behind an argument
    have hlast {named own breaks : List Token} {name : Option String} {value : Expr}
        (hname : NameTokens used named name) (hvalue : Expression own value)
        (hbreaks : Newlines breaks) : Completes holds (before ++ (named ++ own ++ breaks)) := by
      obtain ⟨hargument, hunused⟩ := hname.argument hvalue
      have hlist : ArgumentList (named ++ own ++ (breaks ++ [.missing .rightParen]))
          [(name, value)] := .last hargument hbreaks rfl
      refine Completes.of_missing [.rightParen] ?_
      simpa using hrest _ _ hlist (argumentNames_single value hunused)
    refine prompt_bind argumentName_nameTokens (argumentName_prompt used ?_)
      fun named name rest hname => ?_
    · refine Completes.of_missing [.nullLiteral] ?_
      simpa using hlast (.inl ⟨rfl, rfl⟩) (expression_null _) Rendering.newlines_nil
    refine prompt_bind (expression_sound depth) (expression_prompt depth fun own value hvalue => ?_)
      fun own value behind hvalue => ?_
    · simpa using hlast hname hvalue Rendering.newlines_nil
    refine prompt_separated (by decide) (fun breaks hbreaks => ?_)
      fun left comma right inside hleft hcomma hright => ?_
    · simpa using hlast hname hvalue hbreaks
    · refine prompt_map _ (argumentList_prompt depth fun list arguments hlist hfresh => ?_)
      obtain ⟨hargument, hnew⟩ := hname.argument hvalue
      simpa using hrest _ _ (.next hargument hleft hcomma hright hlist)
        (argumentNames_fresh hnew hfresh.1 hfresh.2)
termination_by structural depth

/-- An operand can be completed from each of its beginnings. -/
theorem primary_prompt (depth : Nat) {before tokens : List Token}
    (hrest : ∀ own value, Primary own value → Completes holds (before ++ own)) :
    (primary depth tokens).Prompt holds before tokens := by
  match depth with
  | 0 => trivial
  | depth + 1 =>
    have hbefore : Completes holds before :=
      Completes.of_missing [.nullLiteral]
        (hrest [.missing .nullLiteral] _ (.literal (.null rfl)))
    rw [primary, peek_bind]
    generalize hkind : (nextToken tokens).kind = kind
    cases kind with
    | number =>
      dsimp only
      rw [advance_bind]
      cases Number.read? (nextToken tokens).text with
      | some value => trivial
      | none => exact SyntaxError.prompt_about _ hbefore
    | string | trueLiteral | falseLiteral | nullLiteral | variableName | identifier => trivial
    | leftParen =>
      refine prompt_advance hkind (by decide) fun opening rest hopening => ?_
      refine prompt_skipNewlines fun breaks inside hbreaks => ?_
      -- the closing parenthesis may be missing
      have hgroup {own after : List Token} {value : Expr} (hvalue : Expression own value)
          (hafter : Newlines after) :
          Completes holds (before ++ [opening] ++ breaks ++ own ++ after) := by
        have hprimary : Primary
            (opening :: (breaks ++ (own ++ (after ++ [.missing .rightParen])))) _ :=
          .group hopening hbreaks hvalue hafter rfl
        refine Completes.of_missing [.rightParen] ?_
        simpa using hrest _ _ hprimary
      refine prompt_bind (expression_sound depth)
        (expression_prompt depth fun own value hvalue => ?_) fun own value behind hvalue => ?_
      · simpa using hgroup hvalue Rendering.newlines_nil
      refine prompt_skipNewlines fun after final hafter => ?_
      exact prompt_expect (by decide) (hgroup hvalue hafter) fun _ _ _ => prompt_pure _
    | leftBracket =>
      refine prompt_advance hkind (by decide) fun opening rest hopening => ?_
      refine prompt_bracketed (by decide) (itemList_sound depth) (fun breaks inside hbreaks => ?_)
        (fun _ _ _ _ _ => prompt_pure _) fun _ _ _ _ _ _ => prompt_pure _
      refine itemList_prompt depth fun own items hitems => ?_
      simpa using hrest _ _ (.array hopening (.some hbreaks hitems))
    | leftBrace =>
      refine prompt_advance hkind (by decide) fun opening rest hopening => ?_
      refine prompt_map _ (entryList_prompt depth fun own entries hentries => ?_)
      simpa using hrest _ _ (.map hopening hentries)
    | _ => exact prompt_unexpected _ hbefore
termination_by structural depth

theorem itemList_prompt (depth : Nat) {before tokens : List Token}
    (hrest : ∀ own items, ItemList own items → Completes holds (before ++ own)) :
    (itemList depth tokens).Prompt holds before tokens := by
  match depth with
  | 0 => trivial
  | depth + 1 =>
    -- the closing bracket may be missing behind an item
    have hlast {own breaks : List Token} {value : Expr} (hvalue : Expression own value)
        (hbreaks : Newlines breaks) : Completes holds (before ++ (own ++ breaks)) := by
      have hlist : ItemList (own ++ (breaks ++ [.missing .rightBracket])) [value] :=
        .last hvalue hbreaks rfl
      refine Completes.of_missing [.rightBracket] ?_
      simpa using hrest _ _ hlist
    refine prompt_bind (expression_sound depth) (expression_prompt depth fun own value hvalue => ?_)
      fun own value behind hvalue => ?_
    · simpa using hlast hvalue Rendering.newlines_nil
    refine prompt_separated (by decide) (fun breaks hbreaks => ?_)
      fun left comma right inside hleft hcomma hright => ?_
    · simpa using hlast hvalue hbreaks
    · refine prompt_map _ (itemList_prompt depth fun list items hlist => ?_)
      simpa using hrest _ _ (.next hvalue hleft hcomma hright hlist)
termination_by structural depth

/-- A map can be completed after a key, a colon or a value. -/
theorem entryList_prompt (depth : Nat) {before tokens : List Token}
    (hrest : ∀ own entries, Entries own entries → Completes holds (before ++ own)) :
    (entryList depth tokens).Prompt holds before tokens := by
  match depth with
  | 0 => trivial
  | depth + 1 =>
    rw [entryList]
    refine prompt_skipNewlines fun breaks inside hbreaks => ?_
    refine prompt_eat (by decide) (fun _ _ _ => prompt_pure []) ?_
    have hclosed (breaks : List Token) (hbreaks : Newlines breaks) :
        Entries (breaks ++ [.missing .rightBrace]) [] := .none hbreaks rfl
    refine prompt_bind mapKey_taken (mapKey_prompt ?_) fun named key keyed hkey => ?_
    · refine Completes.of_missing [.rightBrace] ?_
      simpa using hrest _ _ (hclosed breaks hbreaks)
    obtain ⟨token, rfl, hkey⟩ := hkey
    -- the closing brace may be missing behind an entry
    have hentry {middle own after : List Token} {colon : Token} {value : Expr}
        (hcolon : colon.kind = .colon) (hmiddle : Newlines middle) (hvalue : Expression own value)
        (hafter : Newlines after) :
        Completes holds (before ++ (breaks ++ token :: colon :: (middle ++ (own ++ after)))) := by
      refine Completes.of_missing [.rightBrace] ?_
      simpa using hrest _ _ (.next hbreaks hkey hcolon hmiddle hvalue hafter (.inl rfl)
        (hclosed [] Rendering.newlines_nil))
    refine prompt_expect (by decide) ?_ fun colon parted hcolon => ?_
    · have hcolon : (Token.missing .colon).kind = .colon := rfl
      refine Completes.of_missing [.colon, .nullLiteral] ?_
      simpa using hentry hcolon Rendering.newlines_nil (expression_null _) Rendering.newlines_nil
    refine prompt_skipNewlines fun middle valued hmiddle => ?_
    refine prompt_bind (expression_sound depth) (expression_prompt depth fun own value hvalue => ?_)
      fun own value behind hvalue => ?_
    · simpa using hentry hcolon hmiddle hvalue Rendering.newlines_nil
    refine prompt_skipNewlines fun after next hafter => ?_
    have hothers (commas rest : List Token) (hcommas : OptionalComma commas) :
        ((do
          let others ← entryList depth
          pure ((key, value) :: others) : Phrase (List (String × Expr))) rest).Prompt holds
          (before ++ (breaks ++ token :: colon :: (middle ++ (own ++ (after ++ commas)))))
          rest := by
      refine prompt_map _ (entryList_prompt depth fun list entries hlist => ?_)
      simpa using hrest _ _ (.next hbreaks hkey hcolon hmiddle hvalue hafter hcommas hlist)
    refine prompt_eat (by decide) (fun comma rest hcomma => ?_) ?_
    · simpa using hothers [comma] rest (.inr ⟨comma, hcomma, rfl⟩)
    · simpa using hothers [] next (.inl rfl)
termination_by structural depth

end

end Parse

end

end MetricScript
