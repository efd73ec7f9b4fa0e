import Mathlib
import MetricScript.Proofs.Script.Lexemes

/-!
# When the token stream ends

A stream ends unless it comes to white space that the language does not skip.  Such white space
does no harm inside of strings and comments, so the question is where strings and comments begin
and end.  `Region` answers it character by character, without tokens.

Main statement: the stream of a source ends exactly if none of these characters stands outside
of strings and comments.  If it ends, its last token is its only end token, and all others take
characters of the source.  If not, it stands still before the first such character and gives
empty identifiers for ever.
-/

namespace MetricScript

namespace Scan

open Rendering (spelling)

/-! ## Strings and comments in a text -/

/-- Where the next character of a text stands. -/
inductive Region where
  | code
  /-- Behind a slash, which may turn out to open a comment. -/
  | slash
  | string
  /-- Behind a backslash in a string. -/
  | escape
  | comment
  /-- Behind a star in a comment, which may turn out to close it. -/
  | star
deriving DecidableEq

namespace Region

def next (region : Region) (c : Char) : Region :=
  match region with
  | code => if c = '"' then string else if c = '/' then slash else code
  | slash =>
      if c = '*' then comment
      else if c = '"' then string else if c = '/' then slash else code
  | string => if c = '"' then code else if c = '\\' then escape else string
  | escape => string
  | comment => if c = '*' then star else comment
  | star => if c = '/' then code else if c = '*' then star else comment

def after (region : Region) (text : List Char) : Region := text.foldl next region

/-- Neither in a string nor in a comment. -/
def Outside (region : Region) : Prop := region = code ∨ region = slash

instance : DecidablePred Outside := fun region =>
  inferInstanceAs (Decidable (region = code ∨ region = slash))

theorem after_append (region : Region) (left right : List Char) :
    region.after (left ++ right) = (region.after left).after right :=
  List.foldl_append

end Region

instance : DecidablePred Unskipped := fun c =>
  inferInstanceAs (Decidable (Text.isBlank c ∧ c ∉ [' ', '\t', '\r', '\n']))

/-- White space that is not skipped stands outside of strings and comments, behind a text. -/
def Stray (before : List Char) (c : Char) : Prop :=
  (Region.code.after before).Outside ∧ Unskipped c

/-- From a region on there is no stray white space in the text. -/
def Clear : Region → List Char → Prop
  | _, [] => True
  | region, c :: rest => (region.Outside → ¬ Unskipped c) ∧ Clear (region.next c) rest

instance decidableClear : (region : Region) → (text : List Char) → Decidable (Clear region text)
  | _, [] => inferInstanceAs (Decidable True)
  | region, c :: rest =>
    have := decidableClear (region.next c) rest
    inferInstanceAs (Decidable (_ ∧ _))

theorem clear_append {region : Region} {left right : List Char} :
    Clear region (left ++ right) ↔ Clear region left ∧ Clear (region.after left) right := by
  induction left generalizing region with
  | nil => simp [Clear, Region.after]
  | cons c left ih => simp only [List.cons_append, Clear, ih, and_assoc]; rfl

/-- A text is clear if no character outside of strings and comments is one that no token takes. -/
theorem clear_iff {region : Region} {text : List Char} :
    Clear region text ↔ ∀ before c after, text = before ++ c :: after →
      (region.after before).Outside → ¬ Unskipped c := by
  induction text generalizing region with
  | nil => simp [Clear]
  | cons first text ih =>
    rw [Clear, ih]
    constructor
    · rintro ⟨hfirst, htext⟩ before c after heq
      cases before with
      | nil =>
        obtain ⟨rfl, rfl⟩ := List.cons.inj heq
        exact hfirst
      | cons d before =>
        obtain ⟨rfl, rfl⟩ := List.cons.inj heq
        exact htext before c after rfl
    · intro hall
      refine ⟨hall [] first text rfl, fun before c after heq => ?_⟩
      exact hall (first :: before) c after (by rw [heq]; rfl)

/-- A slash that does not open a comment changes nothing. -/
theorem clear_slash {text : List Char} (hhead : text.head? ≠ some '*') :
    Clear .slash text ↔ Clear .code text := by
  cases text with
  | nil => exact Iff.rfl
  | cons c text =>
    have hc : c ≠ '*' := by simpa using hhead
    simp [Clear, Region.next, Region.Outside, hc]

/-- Characters that neither open anything nor are stray. -/
def Ordinary (c : Char) : Prop := c ≠ '"' ∧ c ≠ '/' ∧ ¬ Unskipped c

instance : DecidablePred Ordinary := fun c =>
  inferInstanceAs (Decidable (c ≠ '"' ∧ c ≠ '/' ∧ ¬ Unskipped c))

theorem clear_ordinary {run : List Char} (hrun : ∀ c ∈ run, Ordinary c) :
    Clear .code run ∧ Region.code.after run = .code := by
  induction run with
  | nil => exact ⟨trivial, rfl⟩
  | cons c run ih =>
    obtain ⟨⟨hquote, hslash, hc⟩, hrest⟩ := List.forall_mem_cons.1 hrun
    have hnext : Region.code.next c = .code := by simp [Region.next, hquote, hslash]
    refine ⟨⟨fun _ => hc, ?_⟩, ?_⟩
    · rw [hnext]
      exact (ih hrest).1
    · change (Region.code.next c).after run = .code
      rw [hnext]
      exact (ih hrest).2

/-- The body of a string is clear and does not end the string. -/
theorem clear_body {body : List Char} (hbody : Body body) :
    Clear .string body ∧ Region.string.after body = .string := by
  induction hbody with
  | nil => exact ⟨trivial, rfl⟩
  | @plain c rest hquote hslash _ ih =>
    have hnext : Region.string.next c = .string := by simp [Region.next, hquote, hslash]
    refine ⟨⟨by simp [Region.Outside], ?_⟩, ?_⟩
    · rw [hnext]
      exact ih.1
    · change (Region.string.next c).after rest = .string
      rw [hnext]
      exact ih.2
  | escaped c _ ih =>
    exact ⟨⟨by simp [Region.Outside], by simp [Region.Outside, Region.next], ih.1⟩, ih.2⟩

/-- A comment lasts until its end occurs. -/
theorem clear_unclosed {region : Region} {body : List Char} (hbody : Unclosed body)
    (hregion : region = .comment ∨ region = .star ∧ body.head? ≠ some '/') :
    Clear region body ∧ (region.after body = .comment ∨ region.after body = .star) := by
  induction body generalizing region with
  | nil => exact ⟨trivial, hregion.imp_right And.left⟩
  | cons c body ih =>
    obtain ⟨hends, hrest⟩ := unclosed_cons.1 hbody
    have hinside : ¬ region.Outside := by
      rcases hregion with rfl | ⟨rfl, _⟩ <;> simp [Region.Outside]
    have hnext : region.next c = .comment ∨ region.next c = .star ∧ body.head? ≠ some '/' := by
      by_cases hstar : c = '*'
      · refine .inr ⟨?_, fun hhead => hends ⟨hstar, hhead⟩⟩
        rcases hregion with rfl | ⟨rfl, _⟩ <;> simp [Region.next, hstar]
      · rcases hregion with rfl | ⟨rfl, hhead⟩
        · simp [Region.next, hstar]
        · have hslash : c ≠ '/' := by simpa using hhead
          simp [Region.next, hstar, hslash]
    exact ⟨⟨fun houtside => absurd houtside hinside, (ih hrest hnext).1⟩, (ih hrest hnext).2⟩

/-- A gap is clear and ends in the code. -/
theorem clear_gap {gap : List Char} (hgap : Gap gap) :
    Clear .code gap ∧ Region.code.after gap = .code := by
  induction hgap with
  | nil => exact ⟨trivial, rfl⟩
  | @blank c rest hc _ ih =>
    have hordinary : ∀ d ∈ [c], Ordinary d := by
      simp only [List.mem_cons, List.not_mem_nil, or_false] at hc
      rcases hc with rfl | rfl | rfl <;> simp [Ordinary, Unskipped]
    obtain ⟨hclear, hafter⟩ := clear_ordinary hordinary
    rw [← List.singleton_append, clear_append, Region.after_append, hafter]
    exact ⟨⟨hclear, ih.1⟩, ih.2⟩
  | @comment body rest hbody _ ih =>
    obtain ⟨hclear, hafter⟩ := clear_unclosed hbody (.inl rfl)
    have hclosed : (Region.comment.after body).after ['*', '/'] = .code := by
      rcases hafter with heq | heq <;> rw [heq] <;> rfl
    have hclosing : Clear (Region.comment.after body) ['*', '/'] := by
      rcases hafter with heq | heq <;> rw [heq] <;> decide
    have htext : '/' :: '*' :: (body ++ '*' :: '/' :: rest) =
        ['/', '*'] ++ (body ++ (['*', '/'] ++ rest)) := by simp
    have hopening : Region.code.after ['/', '*'] = .comment := rfl
    rw [htext]
    simp only [clear_append, Region.after_append, hopening, hclosed]
    exact ⟨⟨by decide, hclear, hclosing, ih.1⟩, ih.2⟩

theorem ordinary_identifierChar {c : Char} (hc : isIdentifierChar c) : Ordinary c := by
  obtain ⟨hblank, hsymbol, hquote, -⟩ := Rendering.identifierChar_cases hc
  refine ⟨hquote, ?_, fun hunskipped => ?_⟩
  · rintro rfl
    simp [isSymbol] at hsymbol
  · exact absurd hunskipped.1 (by simp [hblank])

theorem isBlank_printable {c : Char} (hlow : 33 ≤ c.toNat) (hhigh : c.toNat ≤ 126) :
    Text.isBlank c = false := by
  simp only [Text.isBlank, Bool.or_eq_false_iff, Bool.and_eq_false_iff, decide_eq_false_iff_not,
    beq_eq_false_iff_ne]
  omega

theorem ordinary_printable {c : Char} (hlow : 33 ≤ c.toNat) (hhigh : c.toNat ≤ 126)
    (hquote : c ≠ '"') (hslash : c ≠ '/') : Ordinary c := by
  have hblank := isBlank_printable hlow hhigh
  exact ⟨hquote, hslash, fun hunskipped => absurd hunskipped.1 (by simp [hblank])⟩

theorem ordinary_newline : Ordinary '\n' := by simp [Ordinary, Unskipped]

theorem ordinary_digit {c : Char} (hc : Number.isDigit c) : Ordinary c := by
  have hrange := hc
  simp only [Number.isDigit, Bool.and_eq_true, decide_eq_true_eq] at hrange
  have hlow : 48 ≤ c.toNat := hrange.1
  have hhigh : c.toNat ≤ 57 := hrange.2
  refine ordinary_printable (by omega) (by omega) ?_ ?_
  · rintro rfl
    exact absurd hc (by decide)
  · rintro rfl
    exact absurd hc (by decide)

theorem ordinary_numberChar {c : Char} (hc : isNumberChar c) : Ordinary c := by
  simp only [isNumberChar, Bool.or_eq_true, decide_eq_true_eq] at hc
  rcases hc with hdigit | rfl
  · exact ordinary_digit hdigit
  · simp [ordinary_printable]

theorem ordinary_spelling {kind : TokenKind} (hkind : kind ≠ .slash) :
    ∀ c ∈ (spelling kind).toList, Ordinary c := by
  cases kind <;>
    first | exact absurd rfl hkind | simp [spelling, ordinary_printable, ordinary_newline]

/-- What a lexeme does to the region: nothing is stray in it, and behind it stands code, unless
it is a slash that opens no comment or the source ends inside of it. -/
structure Contained (lexeme rest : List Char) : Prop where
  clear : Clear .code lexeme
  after : Region.code.after lexeme = .code ∨
    Region.code.after lexeme = .slash ∧ rest.head? ≠ some '*' ∨ rest = []

theorem contained_ordinary {run rest : List Char} (hrun : ∀ c ∈ run, Ordinary c) :
    Contained run rest :=
  ⟨(clear_ordinary hrun).1, .inl (clear_ordinary hrun).2⟩

theorem contained_spelling {kind : TokenKind} {rest : List Char}
    (hunsplit : Unsplit (spelling kind).toList rest) : Contained (spelling kind).toList rest := by
  by_cases hkind : kind = .slash
  · subst hkind
    exact ⟨by decide, .inr (.inl ⟨rfl, fun hhead => (hunsplit '*' hhead).2 rfl⟩)⟩
  · exact contained_ordinary (ordinary_spelling hkind)

/-- A lexeme keeps strings and comments to itself. -/
theorem contained_lexemeOf {kind : TokenKind} {text rest : List Char}
    (hreads : Reads kind text rest) : Contained (lexemeOf kind text) rest := by
  cases hreads with
  | @number first run rest hfirst hrun =>
    refine contained_ordinary (List.forall_mem_cons.2 ⟨ordinary_digit hfirst, fun c hmem => ?_⟩)
    exact ordinary_numberChar (hrun.1 c hmem)
  | @variableName run rest _ hrun =>
    refine contained_ordinary (List.forall_mem_cons.2 ⟨by simp [ordinary_printable],
      fun c hmem => ordinary_identifierChar (hrun.1 c hmem)⟩)
  | emptyVariable => exact contained_ordinary (by simp [lexemeOf, ordinary_printable])
  | identifier _ _ hrun =>
    exact contained_ordinary fun c hmem => ordinary_identifierChar (hrun.1 c hmem)
  | keyword hkind hrun =>
    rw [lexemeOf_verbatim (by rintro rfl; exact absurd hkind (by decide))
      (by rintro rfl; exact absurd hkind (by decide))]
    exact contained_ordinary fun c hmem => ordinary_identifierChar (hrun.1 c hmem)
  | symbol hkind _ hunsplit =>
    rw [lexemeOf_verbatim (by rintro rfl; cases hkind) (by rintro rfl; cases hkind)]
    exact contained_spelling hunsplit
  | unknown hc =>
    refine contained_ordinary ?_
    rcases hc with rfl | rfl <;> simp [lexemeOf, ordinary_printable]
  | string hbody =>
    obtain ⟨hclear, hafter⟩ := clear_body hbody
    have hopening : Region.code.after ['"'] = .string := rfl
    rw [lexemeOf, ← List.singleton_append]
    constructor
    · rw [clear_append, clear_append, hopening, hafter]
      exact ⟨by decide, hclear, by decide⟩
    · rw [Region.after_append, Region.after_append, hopening, hafter]
      exact .inl rfl
  | openString hbody htail =>
    obtain ⟨hclear, hafter⟩ := clear_body hbody
    have hopening : Region.code.after ['"'] = .string := rfl
    refine ⟨?_, .inr (.inr rfl)⟩
    rw [lexemeOf, ← List.singleton_append, clear_append, clear_append, hopening, hafter]
    rcases htail with rfl | rfl
    · exact ⟨by decide, hclear, trivial⟩
    · exact ⟨by decide, hclear, by decide⟩
  | openComment hbody =>
    refine ⟨?_, .inr (.inr rfl)⟩
    exact ⟨by decide, by decide, (clear_unclosed hbody (.inl rfl)).1⟩
  | eof => exact ⟨trivial, .inl rfl⟩

/-- Whether there is stray white space behind a token does not depend on the token. -/
theorem clear_taken {gap lexeme rest behind : List Char} (hgap : Gap gap)
    (hlexeme : Contained lexeme rest) (hbehind : behind.head? = rest.head?) :
    Clear .code (gap ++ (lexeme ++ behind)) ↔ Clear .code behind := by
  have hclear := hlexeme.clear
  simp only [clear_append, clear_gap hgap, hclear, true_and]
  rcases hlexeme.after with hafter | ⟨hafter, hhead⟩ | rfl
  · rw [hafter]
  · rw [hafter, clear_slash (by rwa [hbehind])]
  · obtain rfl : behind = [] := List.head?_eq_none_iff.1 hbehind
    exact Iff.rfl

end Scan

/-! ## The stream -/

namespace Cursor

open Scan

/-- The tokens that the stream gives on the way from one cursor to another. -/
inductive Yields : Cursor → List Token → Cursor → Prop where
  | nothing (cursor : Cursor) : Yields cursor [] cursor
  | next {cursor following final : Cursor} {token : Token} {tokens : List Token}
      (hnext : cursor.next? = some (token, following)) (hrest : Yields following tokens final) :
      Yields cursor (token :: tokens) final

/-- The stream gives these tokens and then nothing more. -/
def Gives (cursor : Cursor) (tokens : List Token) : Prop :=
  ∃ final, cursor.Yields tokens final ∧ final.next? = none

theorem exists_next? {cursor : Cursor} (hended : cursor.ended = false) :
    ∃ token following, cursor.next? = some (token, following) := by
  cases hnext : cursor.next? with
  | none => simp [(next?_eq_none_iff cursor).1 hnext] at hended
  | some step => exact ⟨step.1, step.2, rfl⟩

/-- A stream that has ended gives nothing. -/
theorem gives_of_ended {cursor : Cursor} (hended : cursor.ended = true) : cursor.Gives [] :=
  ⟨cursor, .nothing cursor, (next?_eq_none_iff cursor).2 hended⟩

/-- A stream with a first token is that token and the stream behind it. -/
theorem gives_cons {cursor following : Cursor} {token : Token}
    (hnext : cursor.next? = some (token, following)) {tokens : List Token} :
    cursor.Gives (token :: tokens) ↔ following.Gives tokens := by
  constructor
  · rintro ⟨final, hyields, hfinal⟩
    cases hyields with
    | next hfirst hrest =>
      obtain ⟨-, rfl⟩ := Prod.mk.inj (Option.some.inj (hnext.symm.trans hfirst))
      exact ⟨final, hrest, hfinal⟩
  · rintro ⟨final, hyields, hfinal⟩
    exact ⟨final, .next hnext hyields, hfinal⟩

/-- A stream that has not ended gives a first token. -/
theorem Gives.exists_cons {cursor : Cursor} {tokens : List Token} (hgives : cursor.Gives tokens)
    (hended : cursor.ended = false) :
    ∃ token following others, cursor.next? = some (token, following) ∧
      tokens = token :: others ∧ following.Gives others := by
  obtain ⟨final, hyields, hfinal⟩ := hgives
  cases hyields with
  | nothing => simp [(next?_eq_none_iff cursor).1 hfinal] at hended
  | next hnext hrest => exact ⟨_, _, _, hnext, rfl, final, hrest, hfinal⟩

theorem ended_of_next? {cursor : Cursor} {step : Token × Cursor}
    (hnext : cursor.next? = some step) : cursor.ended = false := by
  by_contra hended
  rw [(next?_eq_none_iff cursor).2 (by simpa using hended)] at hnext
  cases hnext

theorem gives_iff_of_ended {cursor : Cursor} {tokens : List Token} (hended : cursor.ended = true) :
    cursor.Gives tokens ↔ tokens = [] := by
  constructor
  · rintro ⟨final, hyields, -⟩
    cases hyields with
    | nothing => rfl
    | next hnext _ => exact absurd hended (by simp [ended_of_next? hnext])
  · rintro rfl
    exact gives_of_ended hended

theorem gives_iff_of_next {cursor following : Cursor} {token : Token} {tokens : List Token}
    (hnext : cursor.next? = some (token, following)) :
    cursor.Gives tokens ↔ ∃ others, following.Gives others ∧ token :: others = tokens := by
  constructor
  · intro hgives
    obtain ⟨first, _, others, hfirst, rfl, hothers⟩ := hgives.exists_cons (ended_of_next? hnext)
    obtain ⟨rfl, rfl⟩ := Prod.mk.inj (Option.some.inj (hnext.symm.trans hfirst))
    exact ⟨others, hothers, rfl⟩
  · rintro ⟨others, hothers, rfl⟩
    exact (gives_cons hnext).2 hothers

/-- In front of such a character an empty identifier is taken. -/
theorem take_unskipped {c : Char} (hc : Unskipped c) (after : List Char) :
    isGapChar c = false ∧ c ≠ '/' ∧ take c after = .verbatim .identifier [] (c :: after) := by
  have hgap : isGapChar c = false := by
    have hother := hc.2
    simp_all [isGapChar]
  have hsymbol : isSymbol c = false := by
    by_contra hsymbol
    have hall : ∀ symbol ∈ "+-/*:.,()[]=&|!\x7b\x7d\n;<>".toList, ¬ Unskipped symbol := by
      simp [Unskipped, isBlank_printable]
    rw [Bool.not_eq_false] at hsymbol
    exact hall c (of_decide_eq_true hsymbol) hc
  have hdigit : ¬ ('0' ≤ c && c ≤ '9') = true := fun hdigit => (ordinary_digit hdigit).2.2 hc
  have hchar : isIdentifierChar c = false := by simp [isIdentifierChar, hc.1]
  have hne : c ≠ '"' ∧ c ≠ '$' ∧ c ≠ '/' := by
    refine ⟨?_, ?_, ?_⟩ <;> rintro rfl <;> exact absurd hc.1 (by decide)
  refine ⟨hgap, hne.2.2, ?_⟩
  rw [take, if_neg (by simp [hsymbol]), if_neg hdigit, if_neg hne.1, if_neg hne.2.1]
  simp [hchar, wordKind]

/-- Before white space that is not skipped the stream stands still. -/
theorem next?_stuck {c : Char} (hc : Unskipped c) (after : List Char) (position : Position) :
    (⟨c :: after, position, false⟩ : Cursor).next? =
      some (⟨.identifier, "", position⟩, ⟨c :: after, position, false⟩) := by
  obtain ⟨hgap, hslash, htake⟩ := take_unskipped hc after
  have hskip := @Rendering.skipGap_cons c after hgap (fun heq => absurd heq hslash) position
  simp only [next?, Bool.false_eq_true, if_false, hskip, htake]
  rfl

/-- A stream that stands still gives one and the same token for ever. -/
theorem yields_stuck {cursor following : Cursor} {token : Token}
    (hnext : cursor.next? = some (token, following))
    (hstuck : following.next? = some (token, following)) (count : Nat) :
    ∃ later, cursor.Yields (List.replicate count token) later := by
  have hstays : ∀ count, following.Yields (List.replicate count token) following := by
    intro count
    induction count with
    | zero => exact .nothing following
    | succ count ih => exact .next hstuck ih
  cases count with
  | zero => exact ⟨cursor, .nothing cursor⟩
  | succ count => exact ⟨following, .next hnext (hstays count)⟩

/-- A cursor that gives itself back never comes to an end. -/
theorem not_gives_stuck {cursor : Cursor} {token : Token}
    (hstuck : cursor.next? = some (token, cursor)) (tokens : List Token) :
    ¬ cursor.Gives tokens := by
  induction tokens with
  | nil =>
    rintro ⟨final, hyields, hfinal⟩
    cases hyields with
    | nothing => simp [hfinal] at hstuck
  | cons first tokens ih =>
    rintro ⟨final, hyields, hfinal⟩
    cases hyields with
    | next hnext hrest =>
      obtain ⟨-, rfl⟩ := Prod.mk.inj (Option.some.inj (hstuck.symm.trans hnext))
      exact ih ⟨final, hrest, hfinal⟩

/-- Without stray white space the stream ends. -/
theorem exists_gives {cursor : Cursor} (hended : cursor.ended = false)
    (hclear : Clear .code cursor.rest) : ∃ tokens, cursor.Gives tokens := by
  induction hlength : cursor.rest.length using Nat.strong_induction_on generalizing cursor with
  | _ length ih =>
    obtain ⟨token, following, hnext⟩ := exists_next? hended
    cases step_of_next? hnext with
    | @taken gap rest position token hgap _ hlexeme hreads =>
      have hrest : Clear .code rest :=
        (clear_taken hgap (contained_lexemeOf hreads) rfl).1 hclear
      have hshorter : rest.length < length := by
        have hpositive := List.length_pos_iff.2 hlexeme
        simp only [List.length_append] at hlength
        omega
      obtain ⟨tokens, htokens⟩ := @ih rest.length hshorter
        ⟨rest, (position.afterAll gap).afterAll token.lexeme, false⟩ rfl hrest rfl
      exact ⟨token :: tokens, (gives_cons hnext).2 htokens⟩
    | finished => exact ⟨_, (gives_cons hnext).2 (gives_of_ended rfl)⟩
    | stuck hgap hc =>
      rw [clear_append, (clear_gap hgap).2] at hclear
      exact absurd hc (hclear.2.1 (.inl rfl))

/-- What holds at the end of a source, and in front of a token if it holds behind it, holds of
every stream that ends. -/
@[elab_as_elim]
theorem Gives.induction {motive : Cursor → List Token → Prop} {cursor : Cursor}
    {tokens : List Token} (hgives : cursor.Gives tokens) (hended : cursor.ended = false)
    (taken : ∀ {gap rest : List Char} {position : Position} {token : Token} {tokens : List Token},
      Gap gap → token.position = position.afterAll gap → token.lexeme ≠ [] →
      token.kind ≠ .eof → Reads token.kind token.text.toList rest →
      motive ⟨rest, (position.afterAll gap).afterAll token.lexeme, false⟩ tokens →
      motive ⟨gap ++ (token.lexeme ++ rest), position, false⟩ (token :: tokens))
    (finished : ∀ {gap : List Char} {position : Position}, Gap gap →
      motive ⟨gap, position, false⟩ [.atEnd (position.afterAll gap)]) :
    motive cursor tokens := by
  induction tokens generalizing cursor with
  | nil =>
    obtain ⟨_, _, _, _, hnil, _⟩ := hgives.exists_cons hended
    cases hnil
  | cons first tokens ih =>
    obtain ⟨token, following, others, hnext, hcons, hrest⟩ := hgives.exists_cons hended
    obtain ⟨rfl, rfl⟩ := List.cons.inj hcons
    have hkinds := next?_cases hnext
    cases step_of_next? hnext with
    | taken hgap hposition hlexeme hreads =>
      have hkind : first.kind ≠ .eof := by simpa using hkinds
      exact taken hgap hposition hlexeme hkind hreads (ih hrest rfl)
    | finished hgap =>
      obtain rfl := (gives_iff_of_ended rfl).1 hrest
      exact finished hgap
    | stuck _ hc => exact absurd hrest (not_gives_stuck (next?_stuck hc _ _) _)

/-- A stream that ends comes to no stray white space. -/
theorem Gives.clear {cursor : Cursor} {tokens : List Token} (hgives : cursor.Gives tokens)
    (hended : cursor.ended = false) : Clear .code cursor.rest := by
  refine hgives.induction hended ?taken ?finished
  case taken =>
    intro gap rest position token tokens hgap _ _ _ hreads hrest
    exact (clear_taken hgap (contained_lexemeOf hreads) rfl).2 hrest
  case finished => exact fun hgap => (clear_gap hgap).1

theorem stray_iff {before : List Char} (hclear : Clear .code before) {c : Char} :
    Stray before c ↔ ¬ Clear .code (before ++ [c]) := by
  rw [clear_append, Stray, Clear, Clear]
  simp [hclear]

/-- With stray white space the stream takes tokens up to the first such character and gives
empty identifiers from there on. -/
theorem exists_stuck {cursor : Cursor} (hended : cursor.ended = false)
    (hstray : ¬ Clear .code cursor.rest) :
    ∃ before c after own standing, cursor.rest = before ++ c :: after ∧ Clear .code before ∧
      Stray before c ∧ cursor.Yields own standing ∧ (∀ token ∈ own, token.lexeme ≠ []) ∧
      (∃ gap, Gap gap ∧ standing.rest = gap ++ c :: after) ∧
      ∀ count, ∃ later, standing.Yields
        (List.replicate count ⟨.identifier, "", cursor.position.afterAll before⟩) later := by
  induction hlength : cursor.rest.length using Nat.strong_induction_on generalizing cursor with
  | _ length ih =>
    obtain ⟨token, following, hnext⟩ := exists_next? hended
    cases step_of_next? hnext with
    | @taken gap rest position token hgap _ hlexeme hreads =>
      have hcontained : Contained token.lexeme rest := contained_lexemeOf hreads
      have hrest : ¬ Clear .code rest := fun hrest =>
        hstray ((clear_taken hgap hcontained rfl).2 hrest)
      have hshorter : rest.length < length := by
        have hpositive := List.length_pos_iff.2 hlexeme
        simp only [List.length_append] at hlength
        omega
      obtain ⟨before, c, after, own, standing, rfl, hbefore, hc, hyields, hown, hstanding,
        hforever⟩ := @ih rest.length hshorter
          ⟨rest, (position.afterAll gap).afterAll token.lexeme, false⟩ rfl hrest rfl
      have hfront : Clear .code (gap ++ (token.lexeme ++ before)) := by
        cases before with
        | nil =>
          rw [List.append_nil, clear_append, (clear_gap hgap).2]
          exact ⟨(clear_gap hgap).1, hcontained.clear⟩
        | cons first before =>
          exact (@clear_taken _ _ _ (first :: before) hgap hcontained rfl).2 hbefore
      have hhead : (before ++ [c]).head? = (before ++ c :: after).head? := by
        cases before <;> rfl
      refine ⟨gap ++ (token.lexeme ++ before), c, after, token :: own, standing, by simp, hfront,
        ?_, .next hnext hyields, List.forall_mem_cons.2 ⟨hlexeme, hown⟩, hstanding, ?_⟩
      · rw [stray_iff hbefore] at hc
        rw [stray_iff hfront, List.append_assoc, List.append_assoc,
          clear_taken hgap hcontained hhead]
        exact hc
      · rw [Position.afterAll_append, Position.afterAll_append]
        exact hforever
    | finished hgap => exact absurd (clear_gap hgap).1 hstray
    | @stuck gap after position c hgap hc =>
      have hregion : (Region.code.after gap).Outside := .inl (clear_gap hgap).2
      exact ⟨gap, c, after, [], _, rfl, (clear_gap hgap).1, ⟨hregion, hc⟩, .nothing _,
        by simp, ⟨gap, hgap, rfl⟩, yields_stuck hnext (next?_stuck hc after _)⟩

/-- What has been given is the front of all that is given. -/
theorem Gives.after {cursor earlier : Cursor} {tokens own : List Token}
    (hgives : cursor.Gives tokens) (hyields : cursor.Yields own earlier) :
    ∃ further, earlier.Gives further := by
  induction hyields generalizing tokens with
  | nothing => exact ⟨tokens, hgives⟩
  | next hnext _ ih =>
    obtain ⟨others, hothers, -⟩ := (gives_iff_of_next hnext).1 hgives
    exact ih hothers

/-- In a stream that ends every step but the last takes characters. -/
theorem Gives.shorter {cursor following : Cursor} {tokens : List Token} {token : Token}
    (hgives : cursor.Gives tokens) (hnext : cursor.next? = some (token, following))
    (hkind : token.kind ≠ .eof) : following.rest.length < cursor.rest.length := by
  cases step_of_next? hnext with
  | taken _ _ hlexeme _ =>
    have hpositive := List.length_pos_iff.2 hlexeme
    simp only [List.length_append]
    omega
  | finished => exact absurd rfl hkind
  | stuck _ hc =>
    obtain ⟨_, hothers, -⟩ := (gives_iff_of_next hnext).1 hgives
    exact absurd hothers (not_gives_stuck (next?_stuck hc _ _) _)

/-- There is an end token, at the end, and at most one more token than characters. -/
theorem Gives.ends {cursor : Cursor} {tokens : List Token} (hgives : cursor.Gives tokens)
    (hended : cursor.ended = false) :
    tokens.length ≤ cursor.rest.length + 1 ∧ ∃ own final, tokens = own ++ [final] ∧
      final.kind = .eof ∧ ∀ token ∈ own, token.kind ≠ .eof := by
  refine hgives.induction hended ?taken ?finished
  case taken =>
    rintro gap rest position token tokens - - hlexeme hkind -
      ⟨hlength, own, final, rfl, hfinal, hown⟩
    refine ⟨?_, token :: own, final, rfl, hfinal, List.forall_mem_cons.2 ⟨hkind, hown⟩⟩
    have hpositive := List.length_pos_iff.2 hlexeme
    simp only [List.length_cons, List.length_append] at hlength ⊢
    omega
  case finished =>
    exact fun _ => ⟨by simp, [], _, rfl, rfl, by simp⟩

/-- In a stream that ends every step leaves less to do. -/
theorem Gives.size_lt {cursor following : Cursor} {tokens : List Token} {token : Token}
    (hgives : cursor.Gives tokens) (hended : cursor.ended = false)
    (hnext : cursor.next? = some (token, following)) : following.size < cursor.size := by
  rcases next?_cases hnext with ⟨_, hfollowing⟩ | ⟨hkind, hfollowing⟩
  · have hrest : following.rest.length ≤ cursor.rest.length := by
      cases step_of_next? hnext with
      | taken => simp; omega
      | finished => simp
      | stuck => simp
    simp [size, hfollowing, hended]
    omega
  · have hshorter := hgives.shorter hnext hkind
    simp only [size, hfollowing, hended]
    omega

/-- The list of tokens is that of the stream, and it is there if the stream ends. -/
theorem tokens?_eq_some_iff {cursor : Cursor} {tokens : List Token} :
    cursor.tokens? = some tokens ↔ cursor.Gives tokens := by
  induction hsize : cursor.size using Nat.strong_induction_on generalizing cursor tokens with
  | _ size ih =>
    subst hsize
    cases hended : cursor.ended with
    | true =>
      rw [tokens?_of_ended hended, gives_iff_of_ended hended, Option.some_inj, eq_comm]
    | false =>
      obtain ⟨token, following, hnext⟩ := exists_next? hended
      by_cases hsize : following.size < cursor.size
      · rw [tokens?_of_next? hnext hsize, Option.map_eq_some_iff, gives_iff_of_next hnext]
        exact exists_congr fun others => and_congr_left fun _ => ih _ hsize rfl
      · have hnone : cursor.tokens? = none := by
          rw [tokens?, hnext]
          simp [hsize]
        rw [hnone]
        exact iff_of_false (Option.some_ne_none _).symm fun hgives =>
          hsize (hgives.size_lt hended hnext)

/-- A stream that gives no more than these tokens, if asked for one more, ends with them. -/
theorem gives_of_firstTokens {cursor : Cursor} {tokens : List Token}
    (hfirst : cursor.firstTokens (tokens.length + 1) = tokens) : cursor.Gives tokens := by
  induction tokens generalizing cursor with
  | nil =>
    cases hnext : cursor.next? with
    | none => exact gives_of_ended ((next?_eq_none_iff cursor).1 hnext)
    | some step =>
      rw [List.length_nil, firstTokens, hnext] at hfirst
      cases hfirst
  | cons first tokens ih =>
    cases hnext : cursor.next? with
    | none =>
      rw [firstTokens, hnext] at hfirst
      cases hfirst
    | some step =>
      obtain ⟨token, following⟩ := step
      rw [List.length_cons, firstTokens, hnext] at hfirst
      obtain ⟨rfl, hothers⟩ := List.cons.inj hfirst
      exact (gives_cons hnext).2 (ih hothers)

end Cursor

theorem tokens?_of_firstTokens {source : String} {tokens : List Token}
    (hfirst : firstTokens (tokens.length + 1) source = tokens) : tokens? source = some tokens :=
  Cursor.tokens?_eq_some_iff.2 (Cursor.gives_of_firstTokens hfirst)

/-- **When the token stream ends.**  It ends exactly if no white space that the language does not
skip stands outside of strings and comments.  A stream that ends has one end token, which is its
last one, and every other token takes characters of the source.  A stream that does not end
takes tokens up to the first stray character and gives empty identifiers at its place from there
on. -/
theorem stream_ends_iff (source : String) :
    let start := Cursor.ofSource source
    ((∃ tokens, start.Gives tokens) ↔
      ∀ before c after, source.toList = before ++ c :: after → ¬ Scan.Stray before c) ∧
    (∀ tokens, start.Gives tokens →
      (∃ own final, tokens = own ++ [final] ∧ final.kind = .eof ∧
        ∀ token ∈ own, token.kind ≠ .eof) ∧
      (∀ own earlier token later, start.Yields own earlier →
        earlier.next? = some (token, later) → token.kind ≠ .eof →
          later.rest.length < earlier.rest.length) ∧
      tokens.length ≤ source.length + 1) ∧
    ((¬ ∃ tokens, start.Gives tokens) →
      ∃ before c after own standing, source.toList = before ++ c :: after ∧
        Scan.Stray before c ∧ Scan.Clear .code before ∧
        start.Yields own standing ∧ (∀ token ∈ own, token.lexeme ≠ []) ∧
        (∃ gap, Scan.Gap gap ∧ standing.rest = gap ++ c :: after) ∧
        ∀ count, ∃ later, standing.Yields
          (List.replicate count ⟨.identifier, "", Position.start.afterAll before⟩) later) := by
  intro start
  have hends : (∃ tokens, start.Gives tokens) ↔ Scan.Clear .code source.toList :=
    ⟨fun ⟨_, hgives⟩ => hgives.clear rfl, fun hclear => Cursor.exists_gives rfl hclear⟩
  refine ⟨?_, ?_, ?_⟩
  · rw [hends, Scan.clear_iff]
    simp only [Scan.Stray, not_and]
  · intro tokens hgives
    obtain ⟨hlength, hlast⟩ := hgives.ends rfl
    refine ⟨hlast, fun own earlier token later hyields hnext hkind => ?_, ?_⟩
    · obtain ⟨further, hfurther⟩ := hgives.after hyields
      exact hfurther.shorter hnext hkind
    · exact hlength
  · intro hendless
    rw [hends] at hendless
    obtain ⟨before, c, after, own, standing, hsource, hclear, hstray, hrest⟩ :=
      @Cursor.exists_stuck start rfl hendless
    exact ⟨before, c, after, own, standing, hsource, hstray, hclear, hrest⟩

end MetricScript
