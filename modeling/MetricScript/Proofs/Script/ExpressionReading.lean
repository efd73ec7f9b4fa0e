import MetricScript.Proofs.Script.Grammar

/-!
# Derived expressions are read

The converse of soundness for expressions: tokens that a rule covers are read by the phrase
of that name, whatever stands behind them, as long as the next token cannot continue the
phrase.  Reading needs a depth of recursion in proportion to the tokens that are covered;
every statement says how much of it suffices.

The rules for operators and suffixes recur on the left, where the parser runs a loop.  For
them the statement is that reading comes to the loop with the derived value at hand and
with at most one step of depth used for each token.
-/

namespace MetricScript.Grammar

open Phrase

/-! ## Tokens that continue a phrase -/

/-- A token of this kind does not continue operands joined by the given levels. -/
def Stops (levels : List Parse.Level) (kind : TokenKind) : Prop :=
  kind ≠ .dot ∧ kind ≠ .leftParen ∧ ∀ level ∈ levels, level.lookup kind = none

instance (levels : List Parse.Level) (kind : TokenKind) : Decidable (Stops levels kind) :=
  inferInstanceAs (Decidable (_ ∧ _ ∧ _))

/-- A token that stops one level stops every tighter one. -/
theorem Stops.tighter {level : Parse.Level} {tighter : List Parse.Level} {kind : TokenKind}
    (hstops : Stops (level :: tighter) kind) : Stops tighter kind :=
  ⟨hstops.1, hstops.2.1, fun other hmem => hstops.2.2 other (List.mem_cons_of_mem _ hmem)⟩

/-- An operator of one level is none of the tighter levels, nor a sign of an assignment. -/
theorem stops_of_lookup {level : Parse.Level} {tighter : List Parse.Level} {kind : TokenKind}
    {operator : BinaryOperator} (hlevels : level :: tighter <:+ Parse.levels)
    (hlookup : level.lookup kind = some operator) :
    Stops tighter kind ∧ kind ≠ .colon ∧ kind ≠ .assign := by
  have htable : ∀ levels ∈ Parse.levels.tails, ∀ entry ∈ levels.headD [],
      Stops levels.tail entry.1 ∧ entry.1 ≠ .colon ∧ entry.1 ≠ .assign := by decide
  obtain ⟨before, after, rfl, _⟩ := List.lookup_eq_some_iff.1 hlookup
  exact htable _ ((List.mem_tails _ _).2 hlevels) (kind, operator) (by simp)

def endsExpression : TokenKind → Bool
  | .newline | .semicolon | .rightParen | .rightBracket | .rightBrace | .leftBrace | .comma
  | .identifier | .string | .eof => true
  | _ => false

theorem stops_of_endsExpression {kind : TokenKind} (hends : endsExpression kind) :
    Stops Parse.levels kind ∧ kind ≠ .colon ∧ kind ≠ .assign := by
  cases kind <;> first | decide | exact nomatch hends

/-! ## Skipping -/

theorem dropWhile_front {skipped : Token → Bool} {front rest : List Token}
    (hfront : ∀ token ∈ front, skipped token) (hrest : skipped (nextToken rest) = false) :
    (front ++ rest).dropWhile skipped = rest := by
  rw [List.dropWhile_append_of_pos hfront]
  cases rest with
  | nil => rfl
  | cons token rest => exact List.dropWhile_cons_of_neg (by simpa using hrest)

theorem dropWhile_newlines {breaks rest : List Token} (hbreaks : Newlines breaks)
    (hrest : (nextToken rest).kind ≠ .newline) :
    (breaks ++ rest).dropWhile (·.kind = .newline) = rest :=
  dropWhile_front (by simpa [Newlines] using hbreaks) (by simpa using hrest)

theorem dropWhile_terminators {ends rest : List Token} (hends : Terminators ends)
    (hrest : (nextToken rest).kind.isTerminator = false) :
    (ends ++ rest).dropWhile (·.kind.isTerminator) = rest :=
  dropWhile_front hends hrest

/-! ## The second token of an expression -/

/-- The second token does not make an assignment of the first. -/
def NotAssigning (own : List Token) : Prop :=
  ∀ first second more, own = first :: second :: more →
    first.kind = .identifier ∨ first.kind = .variableName →
    second.kind ≠ .colon ∧ second.kind ≠ .assign

/-- What begins no assignment begins none in a longer expression. -/
theorem NotAssigning.append {own rest : List Token} {sign : Token} (hown : own ≠ [])
    (hfirst : NotAssigning own) (hsign : sign.kind ≠ .colon ∧ sign.kind ≠ .assign) :
    NotAssigning (own ++ sign :: rest) := by
  intro first second more heq hkind
  match own with
  | [] => exact absurd rfl hown
  | [only] =>
    obtain ⟨rfl, rfl, rfl⟩ : only = first ∧ sign = second ∧ rest = more := by simpa using heq
    exact hsign
  | token :: other :: own =>
    obtain ⟨rfl, rfl, _⟩ : token = first ∧ other = second ∧ own ++ sign :: rest = more := by
      simpa using heq
    exact hfirst token other own rfl hkind

theorem notAssigning_of_kind {token : Token} {rest : List Token}
    (hkind : token.kind ≠ .identifier ∧ token.kind ≠ .variableName) :
    NotAssigning (token :: rest) := by
  intro first second more heq hname
  obtain ⟨rfl, _⟩ : token = first ∧ rest = second :: more := by simpa using heq
  exact absurd hname (by simp [hkind])

theorem Primary.notAssigning {own : List Token} {value : Expr} (hvalue : Primary own value) :
    NotAssigning own := by
  cases hvalue with
  | literal | var | storage | name =>
    intro first second more heq
    simp at heq
  | group hopening | array hopening | map hopening =>
    exact notAssigning_of_kind (by simp [hopening])

mutual

theorem Suffixed.notAssigning {own : List Token} {value : Expr} :
    Suffixed own value → NotAssigning own
  | .plain hvalue => hvalue.notAssigning
  | .property htarget hdot _ =>
      htarget.notAssigning.append htarget.anchored.1 (by simp [hdot])
  | .call htarget hopening _ =>
      htarget.notAssigning.append htarget.anchored.1 (by simp [hopening])

theorem Unary.notAssigning {own : List Token} {value : Expr} : Unary own value → NotAssigning own
  | .plain hvalue => hvalue.notAssigning
  | .signed hsign _ => notAssigning_of_kind (by
      constructor
      · intro hkind
        simp [hkind, Parse.unaryOperator?] at hsign
      · intro hkind
        simp [hkind, Parse.unaryOperator?] at hsign)

theorem Binary.notAssigning {levels : List Parse.Level} (hlevels : levels <:+ Parse.levels)
    {own : List Token} {value : Expr} : Binary levels own value → NotAssigning own
  | .operand hvalue => hvalue.notAssigning
  | .tighter hvalue => hvalue.notAssigning ((List.suffix_cons _ _).trans hlevels)
  | .joined hleft hsign _ =>
      (hleft.notAssigning hlevels).append hleft.anchored.1 (stops_of_lookup hlevels hsign).2

end

/-- Behind a name that begins such an expression there is neither a colon nor an equals sign. -/
theorem NotAssigning.second {own rest : List Token} (hown : NotAssigning own) (hne : own ≠ [])
    (hrest : (nextToken rest).kind ≠ .colon ∧ (nextToken rest).kind ≠ .assign)
    (hfirst : (nextToken own).kind = .identifier ∨ (nextToken own).kind = .variableName) :
    (nextToken (own ++ rest).tail).kind ≠ .colon ∧
      (nextToken (own ++ rest).tail).kind ≠ .assign := by
  match own with
  | [] => exact absurd rfl hne
  | [only] => exact hrest
  | first :: second :: more => exact hown first second more rfl hfirst

theorem argumentName_named {name colon : Token} {rest : List Token} {used : List String}
    (hname : name.kind = .identifier) (hcolon : colon.kind = .colon) (hnew : name.text ∉ used) :
    Parse.argumentName used (name :: colon :: rest) = .done (some name.text) rest := by
  simp only [Parse.argumentName, peek_bind, peekSecond_bind, nextToken_cons, List.tail_cons,
    choice_apply, hname, hcolon, decide_true, Bool.and_self, if_true, advance_bind]
  exact (choice_apply _ _ _ _).trans (if_neg hnew)

theorem argumentName_unnamed {own rest : List Token} {used : List String}
    (hown : NotAssigning own) (hne : own ≠ [])
    (hrest : (nextToken rest).kind ≠ .colon ∧ (nextToken rest).kind ≠ .assign) :
    Parse.argumentName used (own ++ rest) = .done none (own ++ rest) := by
  simp only [Parse.argumentName, peek_bind, peekSecond_bind, choice_apply]
  refine if_neg ?_
  rw [nextToken_append_of_ne_nil hne, Bool.and_eq_true, decide_eq_true_iff, decide_eq_true_iff]
  rintro ⟨hfirst, hsecond⟩
  exact (hown.second hne hrest (.inl hfirst)).1 hsecond

/-! ## Brackets and separators -/

section Lists

variable {α β : Type} {closingKind : TokenKind} {what : String} {breaks inside : List Token}

theorem bracketed_none {list : Phrase (List β)} {continuation : List β → Phrase α}
    {closing : Token} (hbreaks : Newlines breaks) (hclosing : closing.kind = closingKind)
    (hclosingKind : closingKind ≠ .newline) :
    (do
      skipNewlines
      let items ← if ← eat closingKind then pure [] else list
      continuation items : Phrase α) (breaks ++ closing :: inside) = continuation [] inside := by
  rw [skipNewlines_bind, dropWhile_newlines hbreaks (by simpa [hclosing] using hclosingKind),
    eat_cons hclosing]
  rfl

theorem bracketed_some {list : Phrase (List β)} {continuation : List β → Phrase α}
    {items : List β} {following : List Token} (hbreaks : Newlines breaks)
    (hnewline : (nextToken inside).kind ≠ .newline)
    (hclosing : (nextToken inside).kind ≠ closingKind)
    (hlist : list inside = .done items following) :
    (do
      skipNewlines
      let items ← if ← eat closingKind then pure [] else list
      continuation items : Phrase α) (breaks ++ inside) = continuation items following := by
  rw [skipNewlines_bind, dropWhile_newlines hbreaks hnewline, eat_of_ne hclosing]
  exact bind_of_done hlist

/-- Behind a comma and its newlines the next part is read. -/
theorem separator_comma {others final : Phrase α} {after : List Token} {comma : Token}
    (hbreaks : Newlines breaks) (hcomma : comma.kind = .comma) (hafter : Newlines after)
    (hnewline : (nextToken inside).kind ≠ .newline) :
    (do
      skipNewlines
      if ← eat .comma then
        skipNewlines
        others
      else
        let _ ← expect closingKind what
        final : Phrase α) (breaks ++ comma :: (after ++ inside)) = others inside := by
  rw [skipNewlines_bind, dropWhile_newlines hbreaks (by simp [hcomma]),
    eat_cons hcomma]
  change (skipNewlines >>= fun _ => others) (after ++ inside) = _
  rw [skipNewlines_bind, dropWhile_newlines hafter hnewline]

/-- In front of the closing bracket the list ends. -/
theorem separator_closing {others final : Phrase α} {closing : Token}
    (hbreaks : Newlines breaks) (hclosing : closing.kind = closingKind)
    (hclosingKind : closingKind ≠ .newline ∧ closingKind ≠ .comma) :
    (do
      skipNewlines
      if ← eat .comma then
        skipNewlines
        others
      else
        let _ ← expect closingKind what
        final : Phrase α) (breaks ++ closing :: inside) = final inside := by
  rw [skipNewlines_bind,
    dropWhile_newlines hbreaks (by simpa [hclosing] using hclosingKind.1),
    eat_of_ne (by simpa [hclosing] using hclosingKind.2)]
  exact bind_of_done (expect_cons what hclosing inside)

end Lists

/-! ## Expressions -/

/-- With enough depth the phrase reads the tokens as the value, whatever follows them that
does not continue it. -/
def Reads {α : Type} (phrase : Nat → Phrase α) (margin : Nat) (follow : TokenKind → Prop)
    (own : List Token) (value : α) : Prop :=
  ∀ depth rest, 16 * own.length + margin ≤ depth → follow (nextToken rest).kind →
    phrase depth (own ++ rest) = .done value rest

theorem argumentNames_cons (argument : Option String × Expr)
    (arguments : List (Option String × Expr)) :
    argumentNames (argument :: arguments) = argument.1.toList ++ argumentNames arguments := by
  obtain ⟨name, value⟩ := argument
  cases name <;> rfl

theorem LiteralToken.reads {token : Token} {value : Literal} (hvalue : LiteralToken token value)
    (depth : Nat) (rest : List Token) :
    Parse.primary (depth + 1) (token :: rest) = .done (.literal token.position value) rest := by
  cases hvalue with
  | number hkind hread =>
    simp only [Parse.primary, peek_bind, nextToken_cons, hkind, hread]
    rfl
  | string hkind | true hkind | false hkind | null hkind =>
    simp only [Parse.primary, peek_bind, nextToken_cons, hkind]
    rfl

/-- Reading the tokens leads to the loop over the operators of a level. -/
def ReadsOperands (level : Parse.Level) (tighter : List Parse.Level) (own : List Token)
    (value : Expr) : Prop :=
  ∀ depth rest, 16 * own.length + (tighter.length + 2) ≤ depth →
    Stops tighter (nextToken rest).kind →
    ∃ left, left ≤ depth ∧ depth ≤ left + own.length ∧
      Parse.binary (depth + 1) (level :: tighter) (own ++ rest) =
        Parse.operands left level tighter value rest

/-- Reading the tokens leads to the loop over properties and calls. -/
def ReadsSuffixes (own : List Token) (value : Expr) : Prop :=
  ∀ depth rest, 16 * own.length ≤ depth →
    ∃ left, left ≤ depth ∧ depth ≤ left + own.length ∧
      (Parse.primary depth >>= Parse.suffixes depth) (own ++ rest) =
        Parse.suffixes left value rest

/-- How operands of some levels are read: at the tightest level at once, above it by a
loop. -/
def ReadsBinary : List Parse.Level → List Token → Expr → Prop
  | [], own, value => Reads (Parse.binary · []) 2 (Stops []) own value
  | level :: tighter, own, value => ReadsOperands level tighter own value

theorem operands_of_stops {level : Parse.Level} {tighter : List Parse.Level} {value : Expr}
    {rest : List Token} {depth : Nat} (hdepth : 0 < depth)
    (hstops : Stops (level :: tighter) (nextToken rest).kind) :
    Parse.operands depth level tighter value rest = .done value rest := by
  obtain ⟨depth, rfl⟩ := Nat.exists_eq_succ_of_ne_zero hdepth.ne'
  simp only [Parse.operands, peek_bind]
  rw [hstops.2.2 level List.mem_cons_self]
  rfl

theorem ReadsBinary.reads {levels : List Parse.Level} {own : List Token} {value : Expr}
    (hvalue : ReadsBinary levels own value) :
    Reads (Parse.binary · levels) (levels.length + 2) (Stops levels) own value := by
  match levels with
  | [] => exact hvalue
  | level :: tighter =>
    intro depth rest hdepth hstops
    rw [List.length_cons] at hdepth
    obtain ⟨depth, rfl⟩ := Nat.exists_eq_succ_of_ne_zero (show depth ≠ 0 by omega)
    obtain ⟨left, _, hleft, hread⟩ := hvalue depth rest (by omega) hstops.tighter
    exact hread.trans (operands_of_stops (by omega) hstops)

theorem ReadsBinary.expression {own : List Token} {value : Expr}
    (hvalue : ReadsBinary Parse.levels own value) :
    Reads Parse.expression 9 (Stops Parse.levels) own value := by
  intro depth rest hdepth hstops
  obtain ⟨depth, rfl⟩ := Nat.exists_eq_succ_of_ne_zero (show depth ≠ 0 by omega)
  exact hvalue.reads depth rest (by simp [Parse.levels]; omega) hstops

theorem suffixes_of_stops {levels : List Parse.Level} {value : Expr} {rest : List Token}
    {depth : Nat} (hdepth : 0 < depth) (hstops : Stops levels (nextToken rest).kind) :
    Parse.suffixes depth value rest = .done value rest := by
  obtain ⟨depth, rfl⟩ := Nat.exists_eq_succ_of_ne_zero hdepth.ne'
  obtain ⟨hdot, hparen, _⟩ := hstops
  simp only [Parse.suffixes, peek_bind]
  rfl

/-- Arguments behind an opening parenthesis are read up to the closing one. -/
def ReadsArguments (own : List Token) (arguments : List (Option String × Expr)) : Prop :=
  ∀ depth rest (continuation : List (Option String × Expr) → Phrase Expr),
    16 * own.length ≤ depth →
    (do
      skipNewlines
      let arguments ← if ← eat .rightParen then pure [] else Parse.argumentList depth []
      continuation arguments : Phrase Expr) (own ++ rest) = continuation arguments rest

/-- An argument is read with its name, which must not be in use. -/
def ReadsArgument (own : List Token) (argument : Option String × Expr) : Prop :=
  ∀ depth rest used
    (continuation : Option String → Expr → Phrase (List (Option String × Expr))),
    16 * own.length + 9 ≤ depth → endsExpression (nextToken rest).kind →
    (∀ name, argument.1 = some name → name ∉ used) →
    (do
      let name ← Parse.argumentName used
      let value ← Parse.expression depth
      continuation name value : Phrase (List (Option String × Expr))) (own ++ rest) =
      continuation argument.1 argument.2 rest

/-- Arguments are read if no name is used twice. -/
def ReadsArgumentList (own : List Token) (arguments : List (Option String × Expr)) : Prop :=
  ∀ depth rest used, 16 * own.length ≤ depth → (argumentNames arguments).Nodup →
    (∀ name ∈ argumentNames arguments, name ∉ used) →
    Parse.argumentList depth used (own ++ rest) = .done arguments rest

/-- Items behind an opening bracket are read up to the closing one. -/
def ReadsItems (own : List Token) (items : List Expr) : Prop :=
  ∀ depth rest (continuation : List Expr → Phrase Expr), 16 * own.length ≤ depth →
    (do
      skipNewlines
      let items ← if ← eat .rightBracket then pure [] else Parse.itemList depth
      continuation items : Phrase Expr) (own ++ rest) = continuation items rest

theorem Primary.unsigned {own : List Token} {value : Expr} (hvalue : Primary own value) :
    Parse.unaryOperator? (nextToken own).kind = none := by
  cases hvalue with
  | literal hvalue =>
    cases hvalue with
    | number hkind _ | string hkind | true hkind | false hkind | null hkind =>
      simp [hkind, Parse.unaryOperator?]
  | var hkind | storage hkind _ | name hkind _ => simp [hkind, Parse.unaryOperator?]
  | group hopening | array hopening | map hopening => simp [hopening, Parse.unaryOperator?]

theorem Suffixed.unsigned {own : List Token} {value : Expr} :
    Suffixed own value → Parse.unaryOperator? (nextToken own).kind = none
  | .plain hvalue => hvalue.unsigned
  | .property htarget _ _ => by
      rw [nextToken_append_of_ne_nil htarget.anchored.1]
      exact htarget.unsigned
  | .call htarget _ _ => by
      rw [nextToken_append_of_ne_nil htarget.anchored.1]
      exact htarget.unsigned

theorem Argument.begins {own : List Token} {argument : Option String × Expr}
    (hargument : Argument own argument) :
    own ≠ [] ∧ beginsExpression (nextToken own).kind := by
  cases hargument with
  | named hname => simp [hname, beginsExpression]
  | unnamed hvalue => exact ⟨hvalue.anchored.1, hvalue.begins⟩

theorem ArgumentList.begins {own : List Token} {arguments : List (Option String × Expr)}
    (harguments : ArgumentList own arguments) :
    own ≠ [] ∧ beginsExpression (nextToken own).kind := by
  cases harguments with
  | last hargument | next hargument =>
    obtain ⟨hne, hbegins⟩ := hargument.begins
    exact ⟨by simp [hne], by rwa [nextToken_append_of_ne_nil hne]⟩

theorem kind_ne_of_begins {own rest : List Token} {other : TokenKind} (hne : own ≠ [])
    (hbegins : beginsExpression (nextToken own).kind) (hother : beginsExpression other = false) :
    (nextToken (own ++ rest)).kind ≠ other := by
  rw [nextToken_append_of_ne_nil hne]
  rintro rfl
  simp [hother] at hbegins

theorem ItemList.begins {own : List Token} {items : List Expr} (hitems : ItemList own items) :
    own ≠ [] ∧ beginsExpression (nextToken own).kind := by
  cases hitems with
  | last hitem | next hitem =>
    have hne := hitem.anchored.1
    exact ⟨by simp [hne], by rw [nextToken_append_of_ne_nil hne]; exact hitem.begins⟩

/-- A map goes on with a key or with its closing brace, perhaps after newlines. -/
theorem Entries.begins {own : List Token} {entries : List (String × Expr)}
    (hentries : Entries own entries) :
    ∃ breaks token more, own = breaks ++ token :: more ∧ Newlines breaks ∧
      (token.kind = .rightBrace ∨ token.kind = .identifier ∨ token.kind = .string) := by
  cases hentries with
  | none hbreaks hclosing => exact ⟨_, _, _, rfl, hbreaks, .inl hclosing⟩
  | next hbreaks hkey =>
    cases hkey with
    | name hkind => exact ⟨_, _, _, rfl, hbreaks, .inr (.inl hkind)⟩
    | string hkind => exact ⟨_, _, _, rfl, hbreaks, .inr (.inr hkind)⟩

/-- Behind an expression stand newlines and a token that ends expressions. -/
theorem endsExpression_newlines {breaks rest : List Token} (hbreaks : Newlines breaks)
    (hrest : endsExpression (nextToken rest).kind) :
    endsExpression (nextToken (breaks ++ rest)).kind := by
  cases breaks with
  | nil => exact hrest
  | cons token breaks =>
    rw [List.cons_append, nextToken_cons, hbreaks token List.mem_cons_self]
    rfl

theorem KeyToken.reads {token : Token} {key : String} (hkey : KeyToken token key)
    (rest : List Token) : Parse.mapKey (token :: rest) = .done key rest := by
  cases hkey with
  | name hkind | string hkind =>
    simp only [Parse.mapKey, peek_bind, nextToken_cons, hkind]
    rfl

theorem entryList_skip (depth : Nat) (tokens : List Token) :
    Parse.entryList depth (tokens.dropWhile (·.kind = .newline)) =
      Parse.entryList depth tokens := by
  cases depth with
  | zero => rfl
  | succ depth =>
    simp only [Parse.entryList, skipNewlines_bind]
    rw [List.dropWhile_idempotent]

/-- Between the value of an entry and the rest of the map stand newlines and perhaps a
comma. -/
theorem entries_after_value {after commas list rest following : List Token}
    {entries : List (String × Expr)} {depth : Nat} (hafter : Newlines after)
    (hcommas : OptionalComma commas) (hlist : Entries list entries)
    (hread : Parse.entryList depth (list ++ rest) = .done entries following)
    (continuation : List (String × Expr) → Phrase (List (String × Expr))) :
    endsExpression (nextToken (after ++ (commas ++ (list ++ rest)))).kind ∧
    (do
      skipNewlines
      let _ ← eat .comma
      let others ← Parse.entryList depth
      continuation others : Phrase (List (String × Expr))) (after ++ (commas ++ (list ++ rest))) =
      continuation entries following := by
  rcases hcommas with rfl | ⟨comma, hcomma, rfl⟩
  · obtain ⟨breaks, token, more, rfl, hbreaks, hkind⟩ := hlist.begins
    have hends : endsExpression token.kind := by
      rcases hkind with hkind | hkind | hkind <;> rw [hkind] <;> rfl
    have hnewline : token.kind ≠ .newline := by
      rcases hkind with hkind | hkind | hkind <;> simp [hkind]
    have hcomma : token.kind ≠ .comma := by
      rcases hkind with hkind | hkind | hkind <;> simp [hkind]
    have hfront : (breaks ++ token :: more ++ rest).dropWhile (·.kind = .newline) =
        token :: (more ++ rest) := by
      rw [List.append_assoc]
      exact dropWhile_newlines hbreaks hnewline
    constructor
    · rw [List.nil_append, List.append_assoc]
      exact endsExpression_newlines hafter (endsExpression_newlines hbreaks hends)
    · rw [List.nil_append, skipNewlines_bind,
        List.dropWhile_append_of_pos (by simpa [Newlines] using hafter), hfront,
        eat_of_ne (by exact hcomma), ← hfront]
      exact bind_of_done ((entryList_skip depth _).trans hread)
  · constructor
    · exact endsExpression_newlines hafter (by rw [List.cons_append, nextToken_cons, hcomma]; rfl)
    · rw [List.cons_append, List.nil_append, skipNewlines_bind,
        dropWhile_newlines hafter (by simp [hcomma]), eat_cons hcomma]
      exact bind_of_done hread

mutual

/-- Operators and operands of one level are read from each derivation. -/
theorem Binary.reads {levels : List Parse.Level} (hlevels : levels <:+ Parse.levels)
    {own : List Token} {value : Expr} : Binary levels own value → ReadsBinary levels own value
  | .operand hvalue => by
      intro depth rest hdepth hstops
      obtain ⟨depth, rfl⟩ := Nat.exists_eq_succ_of_ne_zero (show depth ≠ 0 by omega)
      exact hvalue.reads depth rest (by omega) hstops
  | .tighter hvalue => by
      intro depth rest hdepth hstops
      have htighter := (List.suffix_cons _ _).trans hlevels
      have hread := (hvalue.reads htighter).reads depth rest (by omega) hstops
      exact ⟨depth, le_rfl, by omega, bind_of_done hread⟩
  | @Binary.joined level tighter left right sign operator leftValue rightValue
      hleft hsign hright => by
      intro depth rest hdepth hstops
      simp only [List.length_append, List.length_cons] at hdepth ⊢
      obtain ⟨first, _, hused, hread⟩ := hleft.reads hlevels depth (sign :: (right ++ rest))
        (by omega) (stops_of_lookup hlevels hsign).1
      obtain ⟨first, rfl⟩ := Nat.exists_eq_succ_of_ne_zero (show first ≠ 0 by omega)
      have htighter := (List.suffix_cons _ _).trans hlevels
      have hsecond := (hright.reads htighter).reads first rest (by omega) hstops
      refine ⟨first, by omega, by omega, ?_⟩
      rw [List.append_assoc, List.cons_append, hread]
      simp only [Parse.operands, peek_bind, nextToken_cons, hsign]
      rw [advance_cons, bind_of_done hsecond, hleft.anchored.2,
        anchor_append hleft.anchored.1]

theorem Unary.reads {own : List Token} {value : Expr} :
    Unary own value → Reads Parse.unary 1 (Stops []) own value
  | .plain hvalue => by
      intro depth rest hdepth hstops
      obtain ⟨depth, rfl⟩ := Nat.exists_eq_succ_of_ne_zero (show depth ≠ 0 by omega)
      have hlength := List.length_pos_of_ne_nil hvalue.anchored.1
      obtain ⟨left, _, hused, hread⟩ := hvalue.reads depth rest (by omega)
      simp only [Parse.unary, peek_bind]
      rw [nextToken_append_of_ne_nil hvalue.anchored.1, hvalue.unsigned]
      exact hread.trans (suffixes_of_stops (by omega) hstops)
  | .signed hsign hvalue => by
      intro depth rest hdepth hstops
      rw [List.length_cons] at hdepth
      obtain ⟨depth, rfl⟩ := Nat.exists_eq_succ_of_ne_zero (show depth ≠ 0 by omega)
      simp only [Parse.unary, peek_bind, List.cons_append, nextToken_cons, hsign]
      rw [advance_cons, bind_of_done (hvalue.reads depth rest (by omega) hstops)]
      rfl

/-- Calls and properties behind a target are read from each derivation. -/
theorem Suffixed.reads {own : List Token} {value : Expr} :
    Suffixed own value → ReadsSuffixes own value
  | .plain hvalue => by
      intro depth rest hdepth
      exact ⟨depth, le_rfl, by omega, bind_of_done (hvalue.reads depth rest hdepth trivial)⟩
  | @Suffixed.property own dot name target htarget hdot hname => by
      intro depth rest hdepth
      simp only [List.length_append, List.length_cons, List.length_nil] at hdepth ⊢
      obtain ⟨left, _, hused, hread⟩ := htarget.reads depth (dot :: name :: rest) (by omega)
      obtain ⟨left, rfl⟩ := Nat.exists_eq_succ_of_ne_zero (show left ≠ 0 by omega)
      refine ⟨left, by omega, by omega, ?_⟩
      rw [List.append_assoc, List.cons_append, List.cons_append, List.nil_append, hread]
      simp only [Parse.suffixes, peek_bind, nextToken_cons, hdot]
      rw [advance_cons, bind_of_done (expect_cons _ hname rest), htarget.anchored.2,
        anchor_append htarget.anchored.1]
  | @Suffixed.call own list opening target arguments htarget hopening harguments => by
      intro depth rest hdepth
      simp only [List.length_append, List.length_cons] at hdepth ⊢
      obtain ⟨left, _, hused, hread⟩ :=
        htarget.reads depth (opening :: (list ++ rest)) (by omega)
      obtain ⟨left, rfl⟩ := Nat.exists_eq_succ_of_ne_zero (show left ≠ 0 by omega)
      refine ⟨left, by omega, by omega, ?_⟩
      rw [List.append_assoc, List.cons_append, hread]
      simp only [Parse.suffixes, peek_bind, nextToken_cons, hopening]
      rw [advance_cons]
      refine (harguments.reads left rest _ (by omega)).trans ?_
      rw [htarget.anchored.2, anchor_append htarget.anchored.1]

theorem Arguments.reads {own : List Token} {arguments : List (Option String × Expr)} :
    Arguments own arguments → ReadsArguments own arguments
  | .none hbreaks hclosing => by
      intro depth rest continuation _
      rw [List.append_assoc]
      exact bracketed_none hbreaks hclosing (by decide)
  | @Arguments.some breaks own arguments hbreaks harguments hdistinct => by
      intro depth rest continuation hdepth
      simp only [List.length_append] at hdepth
      have hread := harguments.reads depth rest [] (by omega) hdistinct (by simp)
      obtain ⟨hne, hbegins⟩ := harguments.begins
      rw [List.append_assoc]
      exact bracketed_some hbreaks (kind_ne_of_begins hne hbegins rfl)
        (kind_ne_of_begins hne hbegins rfl) hread

/-- An argument is read from its derivation if its name is new. -/
theorem Argument.reads {own : List Token} {argument : Option String × Expr} :
    Argument own argument → ReadsArgument own argument
  | .named hname hcolon hvalue => by
      intro depth rest used continuation hdepth hrest hnew
      simp only [List.length_cons] at hdepth
      have hread := (hvalue.reads List.suffix_rfl).expression depth rest (by omega)
        (stops_of_endsExpression hrest).1
      rw [List.cons_append, List.cons_append,
        bind_of_done (argumentName_named hname hcolon (hnew _ rfl)), bind_of_done hread]
  | .unnamed hvalue => by
      intro depth rest used continuation hdepth hrest _
      obtain ⟨hstops, hassign⟩ := stops_of_endsExpression hrest
      have hread := (hvalue.reads List.suffix_rfl).expression depth rest hdepth hstops
      rw [bind_of_done (argumentName_unnamed (hvalue.notAssigning List.suffix_rfl)
        hvalue.anchored.1 hassign), bind_of_done hread]

theorem ArgumentList.reads {own : List Token} {arguments : List (Option String × Expr)} :
    ArgumentList own arguments → ReadsArgumentList own arguments
  | @ArgumentList.last own breaks closing argument hargument hbreaks hclosing => by
      intro depth rest used hdepth _ hnew
      simp only [List.length_append, List.length_cons, List.length_nil] at hdepth
      obtain ⟨depth, rfl⟩ := Nat.exists_eq_succ_of_ne_zero (show depth ≠ 0 by omega)
      have hname : ∀ name, argument.1 = some name → name ∉ used := fun name hgiven =>
        hnew name (by simp [argumentNames, hgiven])
      simp only [List.append_assoc, List.cons_append, List.nil_append]
      refine (hargument.reads depth _ used _ (by omega)
        (endsExpression_newlines hbreaks (by rw [nextToken_cons, hclosing]; rfl)) hname).trans ?_
      exact separator_closing hbreaks hclosing (by decide)
  | @ArgumentList.next own before after list comma argument arguments
      hargument hbefore hcomma hafter hlist => by
      intro depth rest used hdepth hdistinct hnew
      simp only [List.length_append, List.length_cons] at hdepth
      obtain ⟨depth, rfl⟩ := Nat.exists_eq_succ_of_ne_zero (show depth ≠ 0 by omega)
      obtain ⟨hne, hbegins⟩ := hlist.begins
      have hname : ∀ name, argument.1 = some name → name ∉ used := fun name hgiven =>
        hnew name (by simp [argumentNames, hgiven])
      have hothers : Parse.argumentList depth (used ++ argument.1.toList) (list ++ rest) =
          .done arguments rest := by
        refine hlist.reads depth rest _ (by omega) ?_ ?_
        · exact (argumentNames_cons argument arguments ▸ hdistinct).of_append_right
        · intro name hmem hused
          rw [argumentNames_cons] at hdistinct hnew
          rcases List.mem_append.1 hused with hold | hgiven
          · exact hnew name (List.mem_append_right _ hmem) hold
          · exact List.disjoint_of_nodup_append hdistinct hgiven hmem
      simp only [List.append_assoc, List.cons_append]
      refine (hargument.reads depth _ used _ (by omega)
        (endsExpression_newlines hbefore (by rw [nextToken_cons, hcomma]; rfl)) hname).trans ?_
      exact (separator_comma hbefore hcomma hafter
        (kind_ne_of_begins hne hbegins rfl)).trans (bind_of_done hothers)

/-- An operand is read from each of its derivations, whatever follows. -/
theorem Primary.reads {own : List Token} {value : Expr} :
    Primary own value → Reads Parse.primary 0 (fun _ => True) own value
  | .literal hvalue => by
      intro depth rest hdepth _
      obtain ⟨depth, rfl⟩ := Nat.exists_eq_succ_of_ne_zero (show depth ≠ 0 by simp at hdepth; omega)
      exact hvalue.reads depth rest
  | .var hkind => by
      intro depth rest hdepth _
      obtain ⟨depth, rfl⟩ := Nat.exists_eq_succ_of_ne_zero (show depth ≠ 0 by simp at hdepth; omega)
      simp only [Parse.primary, peek_bind, List.cons_append, nextToken_cons, hkind]
      rfl
  | .storage hkind htext => by
      intro depth rest hdepth _
      obtain ⟨depth, rfl⟩ := Nat.exists_eq_succ_of_ne_zero (show depth ≠ 0 by simp at hdepth; omega)
      simp only [Parse.primary, peek_bind, List.cons_append, nextToken_cons, hkind, Parse.named,
        htext, if_true]
      rfl
  | .name hkind htext => by
      intro depth rest hdepth _
      obtain ⟨depth, rfl⟩ := Nat.exists_eq_succ_of_ne_zero (show depth ≠ 0 by simp at hdepth; omega)
      simp only [Parse.primary, peek_bind, List.cons_append, nextToken_cons, hkind, Parse.named,
        htext, if_false]
      rfl
  | @Primary.group opening closing before own after value
      hopening hbefore hvalue hafter hclosing => by
      intro depth rest hdepth _
      simp only [List.length_append, List.length_cons, List.length_nil] at hdepth
      obtain ⟨depth, rfl⟩ := Nat.exists_eq_succ_of_ne_zero (show depth ≠ 0 by omega)
      have hends : endsExpression (nextToken (after ++ closing :: rest)).kind :=
        endsExpression_newlines hafter (by rw [nextToken_cons, hclosing]; rfl)
      have hread := (hvalue.reads List.suffix_rfl).expression depth (after ++ closing :: rest)
        (by omega) (stops_of_endsExpression hends).1
      simp only [List.append_assoc, List.cons_append, List.nil_append]
      simp only [Parse.primary, peek_bind, nextToken_cons, hopening]
      rw [advance_cons, skipNewlines_bind, dropWhile_newlines hbefore
        (kind_ne_of_begins hvalue.anchored.1 hvalue.begins rfl), bind_of_done hread,
        skipNewlines_bind, dropWhile_newlines hafter (by simp [hclosing]),
        bind_of_done (expect_cons _ hclosing rest)]
      rfl
  | .array hopening hitems => by
      intro depth rest hdepth _
      simp only [List.length_cons] at hdepth
      obtain ⟨depth, rfl⟩ := Nat.exists_eq_succ_of_ne_zero (show depth ≠ 0 by omega)
      simp only [Parse.primary, peek_bind, List.cons_append, nextToken_cons, hopening]
      rw [advance_cons]
      exact hitems.reads depth rest _ (by omega)
  | .map hopening hentries => by
      intro depth rest hdepth _
      simp only [List.length_cons] at hdepth
      obtain ⟨depth, rfl⟩ := Nat.exists_eq_succ_of_ne_zero (show depth ≠ 0 by omega)
      simp only [Parse.primary, peek_bind, List.cons_append, nextToken_cons, hopening]
      rw [advance_cons, bind_of_done (hentries.reads depth rest (by omega) trivial)]
      rfl

theorem Items.reads {own : List Token} {items : List Expr} :
    Items own items → ReadsItems own items
  | .none hbreaks hclosing => by
      intro depth rest continuation _
      rw [List.append_assoc]
      exact bracketed_none hbreaks hclosing (by decide)
  | @Items.some breaks own items hbreaks hitems => by
      intro depth rest continuation hdepth
      simp only [List.length_append] at hdepth
      have hread := hitems.reads depth rest (by omega) trivial
      obtain ⟨hne, hbegins⟩ := hitems.begins
      rw [List.append_assoc]
      exact bracketed_some hbreaks (kind_ne_of_begins hne hbegins rfl)
        (kind_ne_of_begins hne hbegins rfl) hread

/-- The items of an array are read up to the bracket that closes it. -/
theorem ItemList.reads {own : List Token} {items : List Expr} :
    ItemList own items → Reads Parse.itemList 0 (fun _ => True) own items
  | @ItemList.last own breaks closing item hitem hbreaks hclosing => by
      intro depth rest hdepth _
      simp only [List.length_append, List.length_cons, List.length_nil] at hdepth
      obtain ⟨depth, rfl⟩ := Nat.exists_eq_succ_of_ne_zero (show depth ≠ 0 by omega)
      have hends : endsExpression (nextToken (breaks ++ closing :: rest)).kind :=
        endsExpression_newlines hbreaks (by rw [nextToken_cons, hclosing]; rfl)
      have hread := (hitem.reads List.suffix_rfl).expression depth (breaks ++ closing :: rest)
        (by omega) (stops_of_endsExpression hends).1
      simp only [List.append_assoc, List.cons_append, List.nil_append]
      exact (bind_of_done hread).trans (separator_closing hbreaks hclosing (by decide))
  | @ItemList.next own before after list comma item items
      hitem hbefore hcomma hafter hlist => by
      intro depth rest hdepth _
      simp only [List.length_append, List.length_cons] at hdepth
      obtain ⟨depth, rfl⟩ := Nat.exists_eq_succ_of_ne_zero (show depth ≠ 0 by omega)
      obtain ⟨hne, hbegins⟩ := hlist.begins
      have hends : endsExpression
          (nextToken (before ++ comma :: (after ++ (list ++ rest)))).kind :=
        endsExpression_newlines hbefore (by rw [nextToken_cons, hcomma]; rfl)
      have hread := (hitem.reads List.suffix_rfl).expression depth
        (before ++ comma :: (after ++ (list ++ rest))) (by omega)
        (stops_of_endsExpression hends).1
      have hothers := hlist.reads depth rest (by omega) trivial
      simp only [List.append_assoc, List.cons_append]
      refine (bind_of_done hread).trans ?_
      exact (separator_comma hbefore hcomma hafter
        (kind_ne_of_begins hne hbegins rfl)).trans (bind_of_done hothers)

/-- The entries of a map are read up to the brace that closes it. -/
theorem Entries.reads {own : List Token} {entries : List (String × Expr)} :
    Entries own entries → Reads Parse.entryList 0 (fun _ => True) own entries
  | @Entries.none breaks closing hbreaks hclosing => by
      intro depth rest hdepth _
      simp only [List.length_append, List.length_cons, List.length_nil] at hdepth
      obtain ⟨depth, rfl⟩ := Nat.exists_eq_succ_of_ne_zero (show depth ≠ 0 by omega)
      rw [List.append_assoc, List.cons_append, List.nil_append, Parse.entryList,
        skipNewlines_bind, dropWhile_newlines hbreaks (by simp [hclosing]), eat_cons hclosing]
      rfl
  | @Entries.next breaks middle own after commas list token colon key value entries
      hbreaks hkey hcolon hmiddle hvalue hafter hcommas hlist => by
      intro depth rest hdepth _
      simp only [List.length_append, List.length_cons] at hdepth
      obtain ⟨depth, rfl⟩ := Nat.exists_eq_succ_of_ne_zero (show depth ≠ 0 by omega)
      have hothers := hlist.reads depth rest (by omega) trivial
      obtain ⟨hends, hafterValue⟩ := entries_after_value hafter hcommas hlist hothers
        (fun others => pure ((key, value) :: others))
      have hread := (hvalue.reads List.suffix_rfl).expression depth
        (after ++ (commas ++ (list ++ rest))) (by omega) (stops_of_endsExpression hends).1
      have hkind : token.kind ≠ .newline ∧ token.kind ≠ .rightBrace := by
        cases hkey with
        | name hkind | string hkind => simp [hkind]
      simp only [List.append_assoc, List.cons_append]
      rw [Parse.entryList, skipNewlines_bind, dropWhile_newlines hbreaks (by exact hkind.1),
        eat_of_ne (by exact hkind.2)]
      refine (bind_of_done (hkey.reads _)).trans ?_
      rw [bind_of_done (expect_cons _ hcolon _), skipNewlines_bind, dropWhile_newlines hmiddle
        (kind_ne_of_begins hvalue.anchored.1 hvalue.begins rfl), bind_of_done hread]
      exact hafterValue

end

end MetricScript.Grammar
