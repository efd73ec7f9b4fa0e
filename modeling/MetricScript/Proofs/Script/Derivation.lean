import MetricScript.Proofs.Script.Rendering

/-!
# Renderings are derived

Tokens whose words write a well-formed script are a derivation of that script, up to the
places of its nodes.  An expression that is due at some strength is derived from the level
of operators of that strength on; parentheses lead back to the loosest one.
-/

namespace MetricScript.Rendering

open Grammar

/-! ## Tokens of given words -/

theorem exists_cons_of_map {tokens : List Token} {word : Word} {rest : List Word}
    (htokens : tokens.map wordOf = word :: rest) :
    ∃ token more, tokens = token :: more ∧ token.kind = word.kind ∧ token.text = word.text ∧
      more.map wordOf = rest := by
  obtain ⟨token, more, rfl, rfl, hmore⟩ := List.map_eq_cons_iff.1 htokens
  exact ⟨token, more, rfl, rfl, rfl, hmore⟩

theorem exists_singleton_of_map {tokens : List Token} {word : Word}
    (htokens : tokens.map wordOf = [word]) :
    ∃ token, tokens = [token] ∧ token.kind = word.kind ∧ token.text = word.text := by
  obtain ⟨token, more, rfl, hkind, htext, hmore⟩ := exists_cons_of_map htokens
  obtain rfl := List.map_eq_nil_iff.1 hmore
  exact ⟨token, rfl, hkind, htext⟩

/-- Words that break lines are newlines as tokens. -/
theorem Breaks.newlines {tokens : List Token} {words : List Word} (hbreaks : Breaks words)
    (htokens : tokens.map wordOf = words) : Newlines tokens := by
  intro token hmem
  have hword := hbreaks (wordOf token) (htokens ▸ List.mem_map_of_mem hmem)
  exact congrArg Word.kind hword

theorem Breaks.terminators {tokens : List Token} {words : List Word} (hbreaks : Breaks words)
    (htokens : tokens.map wordOf = words) : Terminators tokens := by
  intro token hmem
  rw [hbreaks.newlines htokens token hmem]
  rfl

theorem newlines_nil : Newlines [] := fun _ hmem => nomatch hmem

/-! ## Escapes -/

/-- A character other than the backslash stands for itself. -/
theorem unescapeList_cons {c : Char} (hc : c ≠ '\\') (rest : List Char) :
    unescapeList (c :: rest) = c :: unescapeList rest := by
  cases rest with
  | nil => simp [unescapeList, hc]
  | cons d rest => simp [unescapeList, hc]

theorem unescapeList_escape (text : List Char) : unescapeList (escape text) = text := by
  induction text with
  | nil => rfl
  | cons c rest ih =>
    by_cases hspecial : c = '\\' ∨ c = '"'
    · rw [escape, if_pos hspecial]
      rcases hspecial with rfl | rfl
      · simpa [unescapeList] using ih
      · simpa [unescapeList] using ih
    · rw [escape, if_neg hspecial, unescapeList_cons (fun heq => hspecial (.inl heq)), ih]

theorem unescape_quoted (text : String) : unescape (quoted text).text = text := by
  simp [unescape, quoted, unescapeList_escape]

/-! ## Strengths and levels -/

/-- The tokens are derived as an expression where one of a given strength is due. -/
def Derives (due : Nat) (tokens : List Token) (value : Expr) : Prop :=
  if due ≤ 6 then Binary (Parse.levels.drop due) tokens value else Suffixed tokens value

theorem binary_of_tighter {due : Nat} {tokens : List Token} {value : Expr}
    (hvalue : Binary (Parse.levels.drop (due + 1)) tokens value) :
    Binary (Parse.levels.drop due) tokens value := by
  by_cases hdue : due < Parse.levels.length
  · rw [List.drop_eq_getElem_cons hdue]
    exact .tighter hvalue
  · rwa [List.drop_eq_nil_of_le (by omega)] at hvalue ⊢

/-- An operand of a tighter level is one of every looser level. -/
theorem Derives.loosen {due held : Nat} {tokens : List Token} {value : Expr}
    (hvalue : Derives held tokens value) (hdue : due ≤ held) : Derives due tokens value := by
  induction hdue with
  | refl => exact hvalue
  | @step held hdue ih =>
    refine ih ?_
    unfold Derives at hvalue ⊢
    by_cases hheld : held + 1 ≤ 6
    · rw [if_pos hheld] at hvalue
      rw [if_pos (by omega)]
      exact binary_of_tighter hvalue
    · rw [if_neg hheld] at hvalue
      split
      · next hlast =>
        obtain rfl : held = 6 := by omega
        exact .operand (.plain hvalue)
      · exact hvalue

theorem derives_of_suffixed {due : Nat} {tokens : List Token} {value : Expr}
    (hvalue : Suffixed tokens value) : Derives due tokens value := by
  have hheld : Derives (due + 7) tokens value := by
    rw [Derives, if_neg (by omega)]
    exact hvalue
  exact hheld.loosen (by omega)

theorem derives_of_primary {due : Nat} {tokens : List Token} {value : Expr}
    (hvalue : Primary tokens value) : Derives due tokens value :=
  derives_of_suffixed (.plain hvalue)

theorem lookup_precedence (operator : BinaryOperator) :
    ∃ level, Parse.levels.drop (precedence operator) =
        level :: Parse.levels.drop (precedence operator + 1) ∧
      level.lookup (operatorKind operator) = some operator := by
  cases operator <;> exact ⟨_, rfl, rfl⟩

theorem precedence_le (operator : BinaryOperator) : precedence operator ≤ 5 := by
  cases operator <;> decide

theorem unaryOperator_unaryKind (operator : UnaryOperator) :
    Parse.unaryOperator? (unaryKind operator) = some operator := by
  cases operator <;> rfl

/-! ## Expressions -/

theorem argumentNames_unplaced (arguments : List (Option String × Expr)) :
    argumentNames (Expr.unplacedArguments arguments) = argumentNames arguments := by
  induction arguments with
  | nil => rfl
  | cons argument arguments ih =>
    obtain ⟨name, value⟩ := argument
    cases name with
    | none => exact ih
    | some name => exact congrArg (name :: ·) ih

/-- The word of a literal is a token of this literal. -/
theorem LiteralWritten.token {value : Literal} {word : Word} {token : Token}
    (hvalue : LiteralWritten value word) (hkind : token.kind = word.kind)
    (htext : token.text = word.text) : LiteralToken token value := by
  cases hvalue with
  | null => exact .null hkind
  | true => exact .true hkind
  | false => exact .false hkind
  | number _ hread => exact .number hkind (htext ▸ hread)
  | string text =>
    have htoken : LiteralToken token (.string (unescape token.text)) := .string hkind
    rwa [htext, unescape_quoted] at htoken

theorem unplacedItems_eq_nil {items : List Expr} (hitems : Expr.unplacedItems items = []) :
    items = [] := by
  cases items with
  | nil => rfl
  | cons item items => exact nomatch hitems

theorem unplacedArguments_eq_nil {arguments : List (Option String × Expr)}
    (harguments : Expr.unplacedArguments arguments = []) : arguments = [] := by
  cases arguments with
  | nil => rfl
  | cons argument arguments => exact nomatch harguments

theorem keyToken_of_quoted {token : Token} {key : String} (hkind : token.kind = (quoted key).kind)
    (htext : token.text = (quoted key).text) : KeyToken token key := by
  have hkey : KeyToken token (unescape token.text) := .string hkind
  rwa [htext, unescape_quoted] at hkey

/-- The tokens are the closing bracket alone. -/
def Closes (kind : TokenKind) (tokens : List Token) : Prop :=
  ∃ closing : Token, tokens = [closing] ∧ closing.kind = kind

theorem closes_of_map {tokens : List Token} {kind : TokenKind}
    (htokens : tokens.map wordOf = [fixed kind]) : Closes kind tokens := by
  obtain ⟨closing, rfl, hclosing, _⟩ := exists_singleton_of_map htokens
  exact ⟨closing, rfl, hclosing⟩

mutual

/-- An expression in or without parentheses is derived from its words, up to positions. -/
theorem Written.derives {due : Nat} {value : Expr} {words : List Word} :
    Written due value words → ExprWellFormed value → ∀ tokens, tokens.map wordOf = words →
      ∃ found, Derives due tokens found ∧ found.unplaced = value.unplaced
  | .bare hdue hform => by
      intro hwell tokens htokens
      obtain ⟨found, hfound, hsame⟩ := hform.derives hwell tokens htokens
      exact ⟨found, hfound.loosen hdue, hsame⟩
  | .grouped hinner => by
      intro hwell tokens htokens
      obtain ⟨opening, more, rfl, hopening, _, hmore⟩ := exists_cons_of_map htokens
      obtain ⟨own, ends, rfl, hown, hends⟩ := List.map_eq_append_iff.1 hmore
      obtain ⟨closing, rfl, hclosing, _⟩ := exists_singleton_of_map hends
      obtain ⟨found, hfound, hsame⟩ := hinner.derives hwell own hown
      refine ⟨found.movedTo opening.position, ?_, by rw [Expr.unplaced_movedTo, hsame]⟩
      exact derives_of_primary
        (.group hopening newlines_nil hfound newlines_nil hclosing)

/-- Each form of an expression is a derivation at the strength of the expression. -/
theorem Form.derives {value : Expr} {words : List Word} :
    Form value words → ExprWellFormed value → ∀ tokens, tokens.map wordOf = words →
      ∃ found, Derives (strength value) tokens found ∧ found.unplaced = value.unplaced
  | .literal hvalue => by
      intro _ tokens htokens
      obtain ⟨token, rfl, hkind, htext⟩ := exists_singleton_of_map htokens
      exact ⟨_, derives_of_primary (.literal (hvalue.token hkind htext)), rfl⟩
  | .array hitems => by
      intro hwell tokens htokens
      obtain ⟨opening, more, rfl, hopening, _, hmore⟩ := exists_cons_of_map htokens
      obtain ⟨found, hfound, hsame⟩ := hitems.derives hwell more hmore
      refine ⟨.array opening.position found, derives_of_primary (.array hopening ?_), ?_⟩
      · rcases hfound with ⟨rfl, closing, rfl, hclosing⟩ | hlist
        · exact .none newlines_nil hclosing
        · exact .some newlines_nil hlist
      · simp only [Expr.unplaced, hsame]
  | .map hentries => by
      intro hwell tokens htokens
      obtain ⟨opening, more, rfl, hopening, _, hmore⟩ := exists_cons_of_map htokens
      obtain ⟨found, hfound, hsame⟩ := hentries.derives hwell more hmore
      refine ⟨.map opening.position found, derives_of_primary (.map hopening hfound), ?_⟩
      simp only [Expr.unplaced, hsame]
  | .var place name => by
      intro _ tokens htokens
      obtain ⟨token, rfl, hkind, htext⟩ := exists_singleton_of_map htokens
      refine ⟨_, derives_of_primary (.var hkind), ?_⟩
      rw [htext]
      rfl
  | @Form.binary place operator left right leftWords rightWords hleft hright => by
      intro hwell tokens htokens
      obtain ⟨first, more, rfl, hfirst, hmore⟩ := List.map_eq_append_iff.1 htokens
      obtain ⟨sign, second, rfl, hsign, _, hsecond⟩ := exists_cons_of_map hmore
      obtain ⟨foundLeft, hfoundLeft, hsameLeft⟩ := hleft.derives hwell.1 first hfirst
      obtain ⟨foundRight, hfoundRight, hsameRight⟩ := hright.derives hwell.2 second hsecond
      obtain ⟨level, hlevels, hlookup⟩ := lookup_precedence operator
      have hprecedence := precedence_le operator
      refine ⟨.binary (anchor (first ++ sign :: second)) operator foundLeft foundRight, ?_, ?_⟩
      · rw [Derives, if_pos (by omega)] at hfoundLeft hfoundRight
        rw [strength, Derives, if_pos (by omega), hlevels]
        rw [hlevels] at hfoundLeft
        exact .joined hfoundLeft (by rwa [hsign]) hfoundRight
      · simp only [Expr.unplaced, hsameLeft, hsameRight]
  | @Form.unary place operator operand words hoperand => by
      intro hwell tokens htokens
      obtain ⟨sign, more, rfl, hsign, _, hmore⟩ := exists_cons_of_map htokens
      obtain ⟨found, hfound, hsame⟩ := hoperand.derives hwell more hmore
      have hunary := unaryOperator_unaryKind operator
      refine ⟨.unary sign.position operator found, ?_, by simp only [Expr.unplaced, hsame]⟩
      cases hfound with
      | operand hvalue => exact .operand (.signed (by rwa [hsign]) hvalue)
  | .name place other name => by
      intro hwell tokens htokens
      obtain ⟨token, rfl, hkind, htext⟩ := exists_singleton_of_map htokens
      refine ⟨_, derives_of_primary (.name hkind ?_), ?_⟩
      · rw [htext]
        exact hwell.2
      · rw [htext]
        rfl
  | @Form.property place target name words htarget => by
      intro hwell tokens htokens
      obtain ⟨own, more, rfl, hown, hmore⟩ := List.map_eq_append_iff.1 htokens
      obtain ⟨dot, ends, rfl, hdot, _, hends⟩ := exists_cons_of_map hmore
      obtain ⟨token, rfl, hkind, htext⟩ := exists_singleton_of_map hends
      have htargetWell := (wellFormed_property hwell htarget.not_global).1
      obtain ⟨found, hfound, hsame⟩ := htarget.derives htargetWell own hown
      refine ⟨_, derives_of_suffixed (.property hfound hdot hkind), ?_⟩
      simp only [Expr.unplaced, hsame, htext]
      rfl
  | @Form.call place target arguments words list htarget harguments => by
      intro hwell tokens htokens
      obtain ⟨own, more, rfl, hown, hmore⟩ := List.map_eq_append_iff.1 htokens
      obtain ⟨opening, ends, rfl, hopening, _, hends⟩ := exists_cons_of_map hmore
      obtain ⟨found, hfound, hsame⟩ := htarget.derives hwell.1 own hown
      obtain ⟨given, hgiven, hsameGiven⟩ := harguments.derives hwell.2.1 ends hends
      have hdistinct : (argumentNames given).Nodup := by
        rw [← argumentNames_unplaced, hsameGiven, argumentNames_unplaced]
        exact hwell.2.2
      have harguments : Arguments ends given := by
        rcases hgiven with ⟨rfl, closing, rfl, hclosing⟩ | hlist
        · exact .none newlines_nil hclosing
        · exact .some newlines_nil hlist hdistinct
      refine ⟨_, derives_of_suffixed (.call hfound hopening harguments), ?_⟩
      simp only [Expr.unplaced, hsame, hsameGiven]
  | .storage place => by
      intro _ tokens htokens
      obtain ⟨token, rfl, hkind, htext⟩ := exists_singleton_of_map htokens
      exact ⟨_, derives_of_primary (.storage hkind htext), rfl⟩

/-- The items of an array are derived from their words. -/
theorem ItemsWritten.derives {items : List Expr} {words : List Word} :
    ItemsWritten items words → ItemsWellFormed items → ∀ tokens, tokens.map wordOf = words →
      ∃ found, ((found = [] ∧ Closes .rightBracket tokens) ∨ ItemList tokens found) ∧
        Expr.unplacedItems found = Expr.unplacedItems items
  | .none => by
      intro _ tokens htokens
      exact ⟨[], .inl ⟨rfl, closes_of_map htokens⟩, rfl⟩
  | .last hitem => by
      intro hwell tokens htokens
      obtain ⟨own, ends, rfl, hown, hends⟩ := List.map_eq_append_iff.1 htokens
      obtain ⟨closing, rfl, hclosing⟩ := closes_of_map hends
      obtain ⟨found, hfound, hsame⟩ := hitem.derives hwell.1 own hown
      refine ⟨[found], .inr (.last hfound newlines_nil hclosing), ?_⟩
      simp only [Expr.unplacedItems, hsame]
  | @ItemsWritten.next item items words rest hitem hmore hrest => by
      intro hwell tokens htokens
      obtain ⟨own, more, rfl, hown, hcons⟩ := List.map_eq_append_iff.1 htokens
      obtain ⟨comma, list, rfl, hcomma, _, hlist⟩ := exists_cons_of_map hcons
      obtain ⟨found, hfound, hsame⟩ := hitem.derives hwell.1 own hown
      obtain ⟨others, hothers, hsameOthers⟩ := hrest.derives hwell.2 list hlist
      have hlist : ItemList list others := by
        refine hothers.resolve_left fun ⟨hnil, _⟩ => hmore ?_
        exact unplacedItems_eq_nil (hsameOthers.symm.trans (congrArg _ hnil))
      refine ⟨found :: others, .inr (.next hfound newlines_nil hcomma newlines_nil hlist), ?_⟩
      simp only [Expr.unplacedItems, hsame, hsameOthers]

/-- The entries of a map are derived from their words. -/
theorem EntriesWritten.derives {entries : List (String × Expr)} {words : List Word} :
    EntriesWritten entries words → EntriesWellFormed entries →
      ∀ tokens, tokens.map wordOf = words →
      ∃ found, Entries tokens found ∧
        Expr.unplacedEntries found = Expr.unplacedEntries entries
  | .none => by
      intro _ tokens htokens
      obtain ⟨closing, rfl, hclosing⟩ := closes_of_map htokens
      exact ⟨[], .none newlines_nil hclosing, rfl⟩
  | @EntriesWritten.last key value words hvalue => by
      intro hwell tokens htokens
      obtain ⟨token, more, rfl, hkind, htext, hmore⟩ := exists_cons_of_map htokens
      obtain ⟨colon, more, rfl, hcolon, _, hmore⟩ := exists_cons_of_map hmore
      obtain ⟨own, ends, rfl, hown, hends⟩ := List.map_eq_append_iff.1 hmore
      obtain ⟨closing, rfl, hclosing⟩ := closes_of_map hends
      obtain ⟨found, hfound, hsame⟩ := hvalue.derives hwell.1 own hown
      refine ⟨[(key, found)], ?_, by simp only [Expr.unplacedEntries, hsame]⟩
      exact .next newlines_nil (keyToken_of_quoted hkind htext) hcolon newlines_nil hfound
        newlines_nil (.inl rfl) (.none newlines_nil hclosing)
  | @EntriesWritten.next key value entries words rest hvalue _ hrest => by
      intro hwell tokens htokens
      obtain ⟨token, more, rfl, hkind, htext, hmore⟩ := exists_cons_of_map htokens
      obtain ⟨colon, more, rfl, hcolon, _, hmore⟩ := exists_cons_of_map hmore
      obtain ⟨own, more, rfl, hown, hcons⟩ := List.map_eq_append_iff.1 hmore
      obtain ⟨comma, list, rfl, hcomma, _, hlist⟩ := exists_cons_of_map hcons
      obtain ⟨found, hfound, hsame⟩ := hvalue.derives hwell.1 own hown
      obtain ⟨others, hothers, hsameOthers⟩ := hrest.derives hwell.2 list hlist
      refine ⟨(key, found) :: others, ?_, by
        simp only [Expr.unplacedEntries, hsame, hsameOthers]⟩
      exact .next newlines_nil (keyToken_of_quoted hkind htext) hcolon newlines_nil hfound
        newlines_nil (.inr ⟨comma, hcomma, rfl⟩) hothers

theorem ArgumentWritten.derives {argument : Option String × Expr} {words : List Word} :
    ArgumentWritten argument words → ExprWellFormed argument.2 →
      ∀ tokens, tokens.map wordOf = words →
      ∃ found, Argument tokens (argument.1, found) ∧ found.unplaced = argument.2.unplaced
  | .named hvalue => by
      intro hwell tokens htokens
      obtain ⟨token, more, rfl, hkind, htext, hmore⟩ := exists_cons_of_map htokens
      obtain ⟨colon, own, rfl, hcolon, _, hown⟩ := exists_cons_of_map hmore
      obtain ⟨found, hfound, hsame⟩ := hvalue.derives hwell own hown
      have hargument := Argument.named hkind hcolon hfound
      rw [htext] at hargument
      exact ⟨found, hargument, hsame⟩
  | .unnamed hvalue => by
      intro hwell tokens htokens
      obtain ⟨found, hfound, hsame⟩ := hvalue.derives hwell tokens htokens
      exact ⟨found, .unnamed hfound, hsame⟩

/-- The arguments of a call are derived from their words. -/
theorem ArgumentsWritten.derives {arguments : List (Option String × Expr)} {words : List Word} :
    ArgumentsWritten arguments words → ArgumentsWellFormed arguments →
      ∀ tokens, tokens.map wordOf = words →
      ∃ found, ((found = [] ∧ Closes .rightParen tokens) ∨ ArgumentList tokens found) ∧
        Expr.unplacedArguments found = Expr.unplacedArguments arguments
  | .none => by
      intro _ tokens htokens
      exact ⟨[], .inl ⟨rfl, closes_of_map htokens⟩, rfl⟩
  | @ArgumentsWritten.last argument words hargument => by
      intro hwell tokens htokens
      obtain ⟨own, ends, rfl, hown, hends⟩ := List.map_eq_append_iff.1 htokens
      obtain ⟨closing, rfl, hclosing⟩ := closes_of_map hends
      obtain ⟨found, hfound, hsame⟩ := hargument.derives hwell.2.1 own hown
      refine ⟨[(argument.1, found)], .inr (.last hfound newlines_nil hclosing), ?_⟩
      simp only [Expr.unplacedArguments, hsame]
  | @ArgumentsWritten.next argument arguments words rest hargument hmore hrest => by
      intro hwell tokens htokens
      obtain ⟨own, more, rfl, hown, hcons⟩ := List.map_eq_append_iff.1 htokens
      obtain ⟨comma, list, rfl, hcomma, _, hlist⟩ := exists_cons_of_map hcons
      obtain ⟨found, hfound, hsame⟩ := hargument.derives hwell.2.1 own hown
      obtain ⟨others, hothers, hsameOthers⟩ := hrest.derives hwell.2.2 list hlist
      have hlist : ArgumentList list others := by
        refine hothers.resolve_left fun ⟨hnil, _⟩ => hmore ?_
        exact unplacedArguments_eq_nil (hsameOthers.symm.trans (congrArg _ hnil))
      refine ⟨(argument.1, found) :: others,
        .inr (.next hfound newlines_nil hcomma newlines_nil hlist), ?_⟩
      simp only [Expr.unplacedArguments, hsame, hsameOthers]

end

/-! ## Commands -/

/-- How the tokens of a command are derived: conditionals and loops end by themselves. -/
def CommandDerives : Command → List Token → Command → Prop
  | .ifElse _ _ _, tokens, found => Conditional tokens found
  | .whileLoop _ _, tokens, found => Compound tokens found
  | _, tokens, found => Simple tokens found

theorem CommandDerives.simple_or_compound {command found : Command} {tokens : List Token}
    (hfound : CommandDerives command tokens found) :
    Simple tokens found ∨ Compound tokens found := by
  cases command with
  | setVariable | setOutput | evaluate => exact .inl hfound
  | ifElse => exact .inr (.conditional hfound)
  | whileLoop => exact .inr hfound

theorem separated_of_words {tokens : List Token} {words : List Word}
    (htokens : tokens.map wordOf = words)
    (hwords : words = [] ∨ words.head? = some (fixed .newline)) : Separated tokens := by
  cases tokens with
  | nil => exact .inl rfl
  | cons token rest =>
    subst htokens
    rcases hwords with hnil | hhead
    · exact nomatch hnil
    · have hkind : token.kind = .newline := congrArg Word.kind (Option.some.inj hhead)
      exact .inr (by simp [hkind, TokenKind.isTerminator])

theorem sign_of_kind {token : Token} {sign : TokenKind} (hkind : token.kind = sign)
    (hsign : sign = .colon ∨ sign = .assign) : token.kind = .colon ∨ token.kind = .assign :=
  hkind ▸ hsign

mutual

/-- A command is derived from its words, up to positions. -/
theorem CommandWritten.derives {command : Command} {words : List Word} :
    CommandWritten command words → CommandWellFormed command →
      ∀ tokens, tokens.map wordOf = words →
      ∃ found, CommandDerives command tokens found ∧ found.unplaced = command.unplaced
  | .setVariable hsign hvalue => by
      intro hwell tokens htokens
      obtain ⟨token, more, rfl, hkind, htext, hmore⟩ := exists_cons_of_map htokens
      obtain ⟨sign, own, rfl, hequals, _, hown⟩ := exists_cons_of_map hmore
      obtain ⟨found, hfound, hsame⟩ := hvalue.derives hwell.2 own hown
      refine ⟨_, .setVariable hkind (sign_of_kind hequals hsign) hfound, ?_⟩
      simp only [Command.unplaced, hsame, htext]
      rfl
  | .setOutput hsign hvalue => by
      intro hwell tokens htokens
      obtain ⟨token, more, rfl, hkind, htext, hmore⟩ := exists_cons_of_map htokens
      obtain ⟨sign, own, rfl, hequals, _, hown⟩ := exists_cons_of_map hmore
      obtain ⟨found, hfound, hsame⟩ := hvalue.derives hwell.2 own hown
      refine ⟨_, .setOutput hkind (sign_of_kind hequals hsign) hfound, ?_⟩
      simp only [Command.unplaced, hsame, htext]
      rfl
  | .evaluate hvalue => by
      intro hwell tokens htokens
      obtain ⟨found, hfound, hsame⟩ := hvalue.derives hwell tokens htokens
      refine ⟨_, .evaluate hfound, ?_⟩
      simp only [Command.unplaced, hsame]
  | .ifThen hcondition hthen => by
      intro hwell tokens htokens
      obtain ⟨keyword, more, rfl, hkeyword, _, hmore⟩ := exists_cons_of_map htokens
      obtain ⟨test, own, rfl, htest, hown⟩ := List.map_eq_append_iff.1 hmore
      obtain ⟨found, hfound, hsame⟩ := hcondition.derives hwell.1 test htest
      obtain ⟨body, hbody, hsameBody⟩ := hthen.derives hwell.2.1 own hown
      refine ⟨_, .plain hkeyword hfound hbody, ?_⟩
      simp only [Command.unplaced, hsame, hsameBody]
  | .ifElse hcondition hthen helse => by
      intro hwell tokens htokens
      obtain ⟨keyword, more, rfl, hkeyword, _, hmore⟩ := exists_cons_of_map htokens
      obtain ⟨test, more, rfl, htest, hmore⟩ := List.map_eq_append_iff.1 hmore
      obtain ⟨own, more, rfl, hown, hmore⟩ := List.map_eq_append_iff.1 hmore
      obtain ⟨otherwise, other, rfl, hotherwise, _, hother⟩ := exists_cons_of_map hmore
      obtain ⟨found, hfound, hsame⟩ := hcondition.derives hwell.1 test htest
      obtain ⟨body, hbody, hsameBody⟩ := hthen.derives hwell.2.1 own hown
      obtain ⟨branch, hbranch, hsameBranch⟩ := helse.derives hwell.2.2 other hother
      have hconditional : Conditional
          (keyword :: (test ++ (own ++ ([] ++ otherwise :: other)))) (.ifElse found body branch) :=
        .otherwise hkeyword hfound hbody newlines_nil hotherwise hbranch
      refine ⟨_, hconditional, ?_⟩
      simp only [Command.unplaced, hsame, hsameBody, hsameBranch]
  | .elseIf hcondition hthen helse => by
      intro hwell tokens htokens
      obtain ⟨keyword, more, rfl, hkeyword, _, hmore⟩ := exists_cons_of_map htokens
      obtain ⟨test, more, rfl, htest, hmore⟩ := List.map_eq_append_iff.1 hmore
      obtain ⟨own, more, rfl, hown, hmore⟩ := List.map_eq_append_iff.1 hmore
      obtain ⟨otherwise, other, rfl, hotherwise, _, hother⟩ := exists_cons_of_map hmore
      obtain ⟨found, hfound, hsame⟩ := hcondition.derives hwell.1 test htest
      obtain ⟨body, hbody, hsameBody⟩ := hthen.derives hwell.2.1 own hown
      obtain ⟨inner, hinner, hsameInner⟩ := helse.derives hwell.2.2.1 other hother
      have hconditional : Conditional
          (keyword :: (test ++ (own ++ ([] ++ otherwise :: other)))) (.ifElse found body [inner]) :=
        .chained hkeyword hfound hbody newlines_nil hotherwise hinner
      refine ⟨_, hconditional, ?_⟩
      simp only [Command.unplaced, Command.unplacedAll, hsame, hsameBody] at hsameInner ⊢
      rw [hsameInner]
  | .whileLoop hcondition hbody => by
      intro hwell tokens htokens
      obtain ⟨keyword, more, rfl, hkeyword, _, hmore⟩ := exists_cons_of_map htokens
      obtain ⟨test, own, rfl, htest, hown⟩ := List.map_eq_append_iff.1 hmore
      obtain ⟨found, hfound, hsame⟩ := hcondition.derives hwell.1 test htest
      obtain ⟨body, hblock, hsameBody⟩ := hbody.derives hwell.2 own hown
      refine ⟨_, .loop hkeyword hfound hblock, ?_⟩
      simp only [Command.unplaced, hsame, hsameBody]

theorem BlockWritten.derives {commands : List Command} {words : List Word} :
    BlockWritten commands words → WellFormed commands → ∀ tokens, tokens.map wordOf = words →
      ∃ found, Block tokens found ∧
        Command.unplacedAll found = Command.unplacedAll commands
  | .braces hcommands => by
      intro hwell tokens htokens
      obtain ⟨opening, more, rfl, hopening, _, hmore⟩ := exists_cons_of_map htokens
      obtain ⟨own, ends, rfl, hown, hends⟩ := List.map_eq_append_iff.1 hmore
      obtain ⟨closing, rfl, hclosing⟩ := closes_of_map hends
      obtain ⟨found, hfound, hsame⟩ := hcommands.derives hwell own hown
      exact ⟨found, .braces newlines_nil hopening hfound hclosing, hsame⟩

/-- Commands are derived from their words, up to positions. -/
theorem CommandsWritten.derives {commands : List Command} {words : List Word} :
    CommandsWritten commands words → WellFormed commands →
      ∀ tokens, tokens.map wordOf = words →
      ∃ found, Commands tokens found ∧
        Command.unplacedAll found = Command.unplacedAll commands
  | .none hbreaks => by
      intro _ tokens htokens
      exact ⟨[], .none (hbreaks.terminators htokens), rfl⟩
  | .next hbreaks hcommand hseparated hrest => by
      intro hwell tokens htokens
      obtain ⟨ends, more, rfl, hends, hmore⟩ := List.map_eq_append_iff.1 htokens
      obtain ⟨own, rest, rfl, hown, hothers⟩ := List.map_eq_append_iff.1 hmore
      obtain ⟨first, hfirst, hsame⟩ := hcommand.derives hwell.1 own hown
      obtain ⟨others, hfound, hsameOthers⟩ := hrest.derives hwell.2 rest hothers
      refine ⟨first :: others, ?_, by simp only [Command.unplacedAll, hsame, hsameOthers]⟩
      rcases hfirst.simple_or_compound with hsimple | hcompound
      · exact .simple (hbreaks.terminators hends) hsimple
          (separated_of_words hothers hseparated) hfound
      · exact .compound (hbreaks.terminators hends) hcompound hfound

end

end MetricScript.Rendering
