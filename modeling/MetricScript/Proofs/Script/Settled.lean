import Mathlib
import MetricScript.Proofs.Script.Tiling

/-!
# Tiles that are read back

The tiles of a source are settled: every gap is a gap, and every lexeme goes as far as its kind
allows before the tiles behind it.  Whatever text is put together from settled tiles is scanned as
their tokens again, so to know the tokens of a changed source it is enough to settle its tiles.
-/

namespace MetricScript

open Rendering (spelling)

namespace Scan

/-! ## Skipping a gap -/

theorem skipGap_blank {c : Char} (hc : isGapChar c) (position : Position) (text : List Char) :
    skipGap position none (c :: text) = skipGap (position.after c) none text := by
  cases text with
  | nil => simp [skipGap, hc]
  | cons d text => rw [skipGap, if_pos hc]

/-- A comment is skipped up to where it closes. -/
theorem skipGap_closed {body : List Char} (hbody : Unclosed body) (position : Position)
    (opening : Position × List Char) (rest : List Char) :
    skipGap position (some opening) (body ++ '*' :: '/' :: rest) =
      skipGap (position.afterAll (body ++ ['*', '/'])) none rest := by
  induction body generalizing position with
  | nil => rfl
  | cons c body ih =>
    obtain ⟨hends, hbody⟩ := unclosed_cons.1 hbody
    obtain ⟨d, more, hmore⟩ := List.exists_cons_of_ne_nil
      (show body ++ '*' :: '/' :: rest ≠ [] by simp)
    have hopen : ¬ (c = '*' && d = '/') = true := by
      intro hboth
      obtain ⟨rfl, rfl⟩ : c = '*' ∧ d = '/' := by simpa using hboth
      cases body with
      | nil => cases hmore
      | cons first body => exact hends ⟨rfl, by rw [(List.cons.inj hmore).1]; rfl⟩
    rw [List.cons_append, hmore, skipGap, if_neg hopen, ← hmore]
    exact ih hbody (position.after c)

theorem skipGap_unclosed {body : List Char} (hbody : Unclosed body) (position : Position)
    (opening : Position × List Char) :
    skipGap position (some opening) body = .openComment opening.1 opening.2 := by
  rcases skipGap_comment position opening body with ⟨front, rest, rfl, -, -⟩ | ⟨-, hopen⟩
  · exact absurd ⟨front, rest, by simp⟩ hbody
  · exact hopen

theorem skipGap_opening (position : Position) (text : List Char) :
    skipGap position none ('/' :: '*' :: text) =
      skipGap (position.afterAll ['/', '*']) (some (position, '/' :: '*' :: text)) text := by
  rw [skipGap, if_neg (by decide), if_pos (by simp)]
  rfl

/-- A gap is skipped as a whole, whatever stands behind it. -/
theorem skipGap_append {gap : List Char} (hgap : Gap gap) (position : Position)
    (text : List Char) :
    skipGap position none (gap ++ text) = skipGap (position.afterAll gap) none text := by
  induction hgap generalizing position with
  | nil => rfl
  | @blank c rest hc _ ih =>
    have hblank : isGapChar c := by simpa [isGapChar, or_assoc] using hc
    rw [List.cons_append, skipGap_blank hblank]
    exact ih (position.after c)
  | @comment body rest hbody _ ih =>
    calc skipGap position none ('/' :: '*' :: (body ++ '*' :: '/' :: rest) ++ text)
        = skipGap (position.afterAll ['/', '*']) (some (position, _))
            (body ++ '*' :: '/' :: (rest ++ text)) := by
          rw [List.cons_append, List.cons_append, List.append_assoc]
          exact skipGap_opening _ _
      _ = skipGap (position.afterAll ('/' :: '*' :: (body ++ ['*', '/']))) none (rest ++ text) :=
          skipGap_closed hbody _ _ _
      _ = _ := by
          rw [ih, ← Position.afterAll_append]
          simp

/-! ## Taking a token again -/

/-- Before this rest a token of a kind with a text is taken off the front. -/
def Retaken (kind : TokenKind) (text rest : List Char) : Prop :=
  ∃ first more, lexemeOf kind text = first :: more ∧ isGapChar first = false ∧
    (first = '/' → (more ++ rest).head? ≠ some '*') ∧
    take first (more ++ rest) = ⟨kind, text, lexemeOf kind text, rest⟩

/-- A longest run is what the scanner takes, and the rest is what it leaves. -/
theorem LongestRun.split {keep : Char → Bool} {run rest : List Char}
    (hrun : LongestRun keep run rest) :
    (run ++ rest).takeWhile keep = run ∧ (run ++ rest).dropWhile keep = rest := by
  rw [List.takeWhile_append_of_pos hrun.1, List.dropWhile_append_of_pos hrun.1]
  cases rest with
  | nil => simp
  | cons c rest => simp [hrun.2 c rfl]

theorem retaken_number {first : Char} {run rest : List Char} (hfirst : Number.isDigit first)
    (hrun : LongestRun isNumberChar run rest) : Retaken .number (first :: run) rest := by
  have hsymbol : ¬ isSymbol first := by
    intro hsymbol
    simp [Rendering.symbol_not_digit hsymbol] at hfirst
  refine ⟨first, run, rfl, Rendering.digit_not_gap hfirst, ?_, ?_⟩
  · rintro rfl
    simp [Number.isDigit] at hfirst
  · rw [take, if_neg hsymbol, if_pos (by exact hfirst), hrun.split.1, hrun.split.2]
    rfl

/-- A word is taken again in front of a rest that does not continue it. -/
theorem retaken_word {run rest : List Char} (hne : run ≠ [])
    (hdigit : ∀ c ∈ run.head?, Number.isDigit c = false)
    (hrun : LongestRun isIdentifierChar run rest) {kind : TokenKind}
    (hkind : wordKind (String.ofList run) = kind) (hlexeme : lexemeOf kind run = run) :
    Retaken kind run rest := by
  obtain ⟨first, more, rfl⟩ := List.exists_cons_of_ne_nil hne
  obtain ⟨hblank, hsymbol, hquote, hdollar⟩ :=
    Rendering.identifierChar_cases (hrun.1 first (by simp))
  have hfirst : ¬ ('0' ≤ first && first ≤ '9') = true := Bool.eq_false_iff.1 (hdigit first rfl)
  have hgap : isGapChar first = false := by
    by_contra hgap
    simp [Rendering.gapChar_blank (by simpa using hgap)] at hblank
  refine ⟨first, more, hlexeme, hgap, ?_, ?_⟩
  · rintro rfl
    simp [isSymbol] at hsymbol
  · subst hkind
    have hsplit := hrun.split
    rw [List.cons_append] at hsplit
    rw [take, if_neg (by simp [hsymbol]), if_neg hfirst, if_neg hquote, if_neg hdollar, hsplit.1,
      hsplit.2, hlexeme]
    rfl

theorem retaken_variable {run rest : List Char} (hrun : LongestRun isIdentifierChar run rest)
    {kind : TokenKind}
    (hkind : kind = if run.isEmpty then .error .emptyVariable else .variableName) :
    Retaken kind ('$' :: run) rest := by
  have hlexeme : lexemeOf kind ('$' :: run) = '$' :: run := by
    apply lexemeOf_verbatim <;> (rw [hkind]; split <;> simp)
  refine ⟨'$', run, hlexeme, by decide, by simp, ?_⟩
  have htake : take '$' (run ++ rest) = takeVariable (run ++ rest) := rfl
  rw [htake, takeVariable, hrun.split.1, hrun.split.2, hlexeme, hkind]
  rfl

/-- What pairs with a symbol would be the longer symbol that it is torn off. -/
theorem Unsplit.pairKind? {c d : Char} {rest : List Char} (hunsplit : Unsplit [c] (d :: rest)) :
    pairKind? c d = none := by
  cases hkind : Scan.pairKind? c d with
  | none => rfl
  | some kind => exact absurd (spelling_of_pairKind? hkind).2.2 ((hunsplit d rfl).1 kind)

theorem retaken_single {c : Char} (hc : isSymbol c) {rest : List Char}
    (hunsplit : Unsplit [c] rest) {kind : TokenKind} (hkind : singleKind c = kind)
    (hlexeme : lexemeOf kind [c] = [c]) : Retaken kind [c] rest := by
  refine ⟨c, [], hlexeme, Rendering.symbol_not_gap hc, ?_, ?_⟩
  · rintro rfl hstar
    exact (hunsplit '*' hstar).2 rfl
  · rw [List.nil_append, take, if_pos hc, hlexeme, ← hkind]
    cases rest with
    | nil => rfl
    | cons d rest => rw [takeSymbol, hunsplit.pairKind?]; rfl

/-- A symbol has one character or two. -/
theorem symbol_cases {kind : TokenKind} (hkind : Rendering.isFixed kind) (hword : kind ∉ keywords) :
    (∃ c, isSymbol c ∧ singleKind c = kind ∧ (spelling kind).toList = [c]) ∨
      ∃ c d, pairKind? c d = some kind ∧ (spelling kind).toList = [c, d] := by
  cases kind with
  | number | string | identifier | variableName | eof | error => exact nomatch hkind
  | trueLiteral | falseLiteral | nullLiteral | ifKeyword | elseKeyword | whileKeyword =>
    simp [keywords] at hword
  | equal => exact .inr ⟨'=', '=', rfl, rfl⟩
  | notEqual => exact .inr ⟨'!', '=', rfl, rfl⟩
  | greaterEqual => exact .inr ⟨'>', '=', rfl, rfl⟩
  | lessEqual => exact .inr ⟨'<', '=', rfl, rfl⟩
  | logicalAnd => exact .inr ⟨'&', '&', rfl, rfl⟩
  | logicalOr => exact .inr ⟨'|', '|', rfl, rfl⟩
  | _ => exact .inl ⟨_, by decide, by decide, rfl⟩

/-- A symbol is taken again in front of a rest that makes no longer one. -/
theorem retaken_symbol {kind : TokenKind} {rest : List Char} (hkind : Rendering.isFixed kind)
    (hword : kind ∉ keywords) (hunsplit : Unsplit (spelling kind).toList rest) :
    Retaken kind (spelling kind).toList rest := by
  have hlexeme : lexemeOf kind (spelling kind).toList = (spelling kind).toList := by
    apply lexemeOf_verbatim <;> (rintro rfl; cases hkind)
  rcases symbol_cases hkind hword with ⟨c, hc, hsingle, htext⟩ | ⟨c, d, hpair, htext⟩
  · rw [htext] at hunsplit hlexeme ⊢
    exact retaken_single hc hunsplit hsingle hlexeme
  · obtain ⟨hc, hslash, -⟩ := Rendering.isSymbol_of_pairKind? hpair
    rw [htext] at hlexeme ⊢
    refine ⟨c, [d], hlexeme, Rendering.symbol_not_gap hc, fun heq => absurd heq hslash, ?_⟩
    rw [List.singleton_append, take, if_pos hc, takeSymbol, hpair, hlexeme]
    rfl

theorem splitString_body {body : List Char} (hbody : Body body) (rest : List Char) :
    splitString (body ++ '"' :: rest) = (body, some rest) := by
  induction hbody with
  | nil => cases rest <;> rfl
  | @plain c remaining hquote hslash _ ih =>
    obtain ⟨d, more, hmore⟩ := List.exists_cons_of_ne_nil
      (show remaining ++ '"' :: rest ≠ [] by simp)
    rw [List.cons_append, hmore, splitString, if_neg hquote, if_neg hslash, ← hmore, ih]
  | @escaped c remaining _ ih =>
    rw [List.cons_append, List.cons_append, splitString, if_neg (by decide), if_pos rfl, ih]

theorem splitString_unclosed {body tail : List Char} (hbody : Body body)
    (htail : tail = [] ∨ tail = ['\\']) : splitString (body ++ tail) = (body ++ tail, none) := by
  induction hbody with
  | nil => rcases htail with rfl | rfl <;> rfl
  | @plain c remaining hquote hslash _ ih =>
    rw [List.cons_append]
    cases hmore : remaining ++ tail with
    | nil => rw [splitString, if_neg hquote]
    | cons d more => rw [splitString, if_neg hquote, if_neg hslash, ← hmore, ih]
  | @escaped c remaining _ ih =>
    rw [List.cons_append, List.cons_append, splitString, if_neg (by decide), if_pos rfl, ih]

theorem retaken_string {body : List Char} (hbody : Body body) (rest : List Char) :
    Retaken .string body rest := by
  refine ⟨'"', body ++ ['"'], rfl, by decide, by simp, ?_⟩
  have htake (text : List Char) : take '"' text = takeString text := rfl
  rw [htake, takeString, List.append_assoc, List.singleton_append, splitString_body hbody]
  rfl

theorem retaken_openString {body tail : List Char} (hbody : Body body)
    (htail : tail = [] ∨ tail = ['\\']) :
    Retaken (.error .unterminatedString) (body ++ tail) [] := by
  refine ⟨'"', body ++ tail, rfl, by decide, by simp, ?_⟩
  have htake (text : List Char) : take '"' text = takeString text := rfl
  rw [htake, takeString, List.append_nil, splitString_unclosed hbody htail]
  rfl

/-- A keyword is a word of its own kind. -/
theorem keyword_word {kind : TokenKind} (hkind : kind ∈ keywords) :
    (spelling kind).toList ≠ [] ∧
      (∀ c ∈ (spelling kind).toList.head?, Number.isDigit c = false) ∧
      wordKind (String.ofList (spelling kind).toList) = kind ∧
      lexemeOf kind (spelling kind).toList = (spelling kind).toList := by
  rw [String.ofList_toList]
  revert kind
  simp [keywords, spelling, Number.isDigit, wordKind, lexemeOf]

/-- What a token was read as, it is taken as. -/
theorem Reads.retaken {kind : TokenKind} {text rest : List Char} (hreads : Reads kind text rest)
    (heof : kind ≠ .eof) (hcomment : kind ≠ .error .unterminatedComment) :
    Retaken kind text rest := by
  cases hreads with
  | number hfirst hrun => exact retaken_number hfirst hrun
  | @variableName run _ hne hrun =>
    exact retaken_variable hrun (by rw [if_neg (by simpa using hne)])
  | emptyVariable hrest => exact retaken_variable hrest rfl
  | @identifier run _ hne hdigit hrun hname =>
    refine retaken_word hne hdigit hrun ?_ rfl
    rcases wordKind_cases (String.ofList text) with ⟨-, hspelling⟩ | ⟨hkind, -⟩
    · exact absurd (by rw [hspelling, String.toList_ofList]) (hname (wordKind (String.ofList text)))
    · exact hkind
  | keyword hkind hrun =>
    obtain ⟨hne, hdigit, hword, hlexeme⟩ := keyword_word hkind
    exact retaken_word hne hdigit hrun hword hlexeme
  | symbol hkind hword hunsplit => exact retaken_symbol hkind hword hunsplit
  | @unknown c _ hc hunsplit =>
    rcases hc with rfl | rfl <;> exact retaken_single (by decide) hunsplit rfl rfl
  | string hbody => exact retaken_string hbody rest
  | openString hbody htail => exact retaken_openString hbody htail
  | openComment => exact absurd rfl hcomment
  | eof => exact absurd rfl heof

/-- Every token but the end has a lexeme. -/
theorem Reads.lexeme_ne_nil {kind : TokenKind} {text rest : List Char}
    (hreads : Reads kind text rest) (heof : kind ≠ .eof) : lexemeOf kind text ≠ [] := by
  by_cases hcomment : kind = .error .unterminatedComment
  · subst hcomment
    cases hreads with
    | keyword hkind => simp [keywords] at hkind
    | symbol hkind => cases hkind
    | openComment => simp [lexemeOf]
  · obtain ⟨first, more, hlexeme, -⟩ := hreads.retaken heof hcomment
    simp [hlexeme]

/-! ## What may stand behind a token -/

/-- Characters that begin a gap, and the newline: none of them goes on with a token. -/
def Separates (c : Char) : Prop := c ∈ [' ', '\t', '\r', '\n', '/']

theorem separates_newline : Separates '\n' := by simp [Separates]

theorem separates_not_kept {c : Char} (hc : Separates c) :
    isNumberChar c = false ∧ isIdentifierChar c = false := by
  simp only [Separates, List.mem_cons, List.not_mem_nil, or_false] at hc
  rcases hc with rfl | rfl | rfl | rfl | rfl <;>
    simp [isNumberChar, isIdentifierChar, Text.isBlank, isSymbol]

/-- In front of a separator no symbol becomes a longer one. -/
theorem separates_unsplit {c : Char} (hc : Separates c) {symbol : List Char} (hne : symbol ≠ [])
    (rest : List Char) : Unsplit symbol (c :: rest) := by
  intro d hmem
  obtain rfl : c = d := by simpa using hmem
  have hlast (kind : TokenKind) : ∀ d ∈ (spelling kind).toList.tail.getLast?, ¬ Separates d := by
    cases kind <;> simp [spelling, Separates]
  obtain ⟨first, more, rfl⟩ := List.exists_cons_of_ne_nil hne
  refine ⟨fun kind hspelling => hlast kind c (by simp [hspelling]) hc, fun hopens => ?_⟩
  obtain ⟨rfl, rfl, rfl⟩ : first = '/' ∧ more = [] ∧ c = '*' := by
    cases more with
    | nil => simpa using hopens
    | cons => simp at hopens
  simp [Separates] at hc

/-- Kinds of tokens that have no end of their own. -/
def Unbounded (kind : TokenKind) : Prop :=
  kind ∈ [.error .unterminatedString, .error .unterminatedComment, .eof]

theorem Reads.rest_of_unbounded {kind : TokenKind} {text rest : List Char}
    (hreads : Reads kind text rest) (hkind : Unbounded kind) : rest = [] := by
  cases hreads with
  | keyword hkeyword =>
    simp only [Unbounded, keywords, List.mem_cons, List.not_mem_nil, or_false] at hkind hkeyword
    rcases hkind with rfl | rfl | rfl <;> simp at hkeyword
  | symbol hfixed =>
    simp only [Unbounded, List.mem_cons, List.not_mem_nil, or_false] at hkind
    rcases hkind with rfl | rfl | rfl <;> cases hfixed
  | openString | openComment | eof => rfl
  | number | variableName | emptyVariable | identifier | unknown | string =>
    simp [Unbounded] at hkind

theorem Reads.text_of_eof {text rest : List Char} (hreads : Reads .eof text rest) : text = [] := by
  generalize hkind : TokenKind.eof = kind at hreads
  cases hreads with
  | keyword hkeyword => simp [keywords, ← hkind] at hkeyword
  | symbol hfixed => rw [← hkind] at hfixed; cases hfixed
  | eof => rfl
  | _ => cases hkind

/-- A token is read as it was if the text behind it begins as it did, or with something that
separates. -/
theorem Reads.before {kind : TokenKind} {text rest rest' : List Char}
    (hreads : Reads kind text rest) (hkind : ¬ Unbounded kind)
    (hrest : rest'.head? = rest.head? ∨ ∃ c ∈ rest'.head?, Separates c) :
    Reads kind text rest' := by
  have hrun {keep : Char → Bool} {run : List Char} (hstops : ∀ c, Separates c → keep c = false)
      (hrun : LongestRun keep run rest) : LongestRun keep run rest' := by
    refine ⟨hrun.1, ?_⟩
    rcases hrest with hhead | ⟨c, hmem, hc⟩
    · rw [hhead]
      exact hrun.2
    · rw [Option.mem_def.1 hmem]
      rintro d ⟨⟩
      exact hstops _ hc
  have hsplit {symbol : List Char} (hne : symbol ≠ []) (hunsplit : Unsplit symbol rest) :
      Unsplit symbol rest' := by
    rcases hrest with hhead | ⟨c, hmem, hc⟩
    · intro d hmem
      exact hunsplit d (hhead ▸ hmem)
    · cases rest' with
      | nil => cases hmem
      | cons d rest' =>
        obtain rfl : d = c := by simpa using hmem
        exact separates_unsplit hc hne rest'
  have hnumber (c : Char) (hc : Separates c) := (separates_not_kept hc).1
  have hname (c : Char) (hc : Separates c) := (separates_not_kept hc).2
  cases hreads with
  | number hfirst hlongest => exact .number hfirst (hrun hnumber hlongest)
  | variableName hne hlongest => exact .variableName hne (hrun hname hlongest)
  | emptyVariable hlongest => exact .emptyVariable (hrun hname hlongest)
  | identifier hne hdigit hlongest hother =>
    exact .identifier hne hdigit (hrun hname hlongest) hother
  | keyword hkeyword hlongest => exact .keyword hkeyword (hrun hname hlongest)
  | @symbol kind _ hfixed hword hunsplit =>
    refine .symbol hfixed hword (hsplit ?_ hunsplit)
    rcases symbol_cases hfixed hword with ⟨c, -, -, htext⟩ | ⟨c, d, -, htext⟩ <;> simp [htext]
  | unknown hc hunsplit => exact .unknown hc (hsplit (by simp) hunsplit)
  | string hbody => exact .string hbody
  | openString | openComment | eof => simp [Unbounded] at hkind

theorem Gap.append {left right : List Char} (hleft : Gap left) (hright : Gap right) :
    Gap (left ++ right) := by
  induction hleft with
  | nil => exact hright
  | blank hc _ ih => exact .blank hc ih
  | comment hbody _ ih => simpa using Gap.comment hbody ih

/-- A gap that is not empty begins with a separator. -/
theorem Gap.head? {gap : List Char} (hgap : Gap gap) (hne : gap ≠ []) :
    ∃ c ∈ gap.head?, Separates c := by
  cases hgap with
  | nil => exact absurd rfl hne
  | @blank c _ hc =>
    refine ⟨c, rfl, ?_⟩
    simp only [List.mem_cons, List.not_mem_nil, or_false] at hc
    rcases hc with rfl | rfl | rfl <;> simp [Separates]
  | comment => exact ⟨'/', rfl, by simp [Separates]⟩

end Scan

/-! ## Settled tiles -/

open Scan

namespace Tile

/-- The end token comes last, behind its gap, and every tile before it is read as it stands. -/
inductive Settled : List Tile → Prop where
  | last {tile : Tile} (hgap : Gap tile.gap) (hkind : tile.token.kind = .eof)
      (htext : tile.token.text = "") : Settled [tile]
  | next {tile : Tile} {behind : List Tile} (hgap : Gap tile.gap) (hkind : tile.token.kind ≠ .eof)
      (hreads : Reads tile.token.kind tile.token.text.toList (textOf behind))
      (hrest : Settled behind) : Settled (tile :: behind)

/-- The tokens of some tiles, each at the place where its lexeme begins. -/
def placed : Position → List Tile → List Token
  | _, [] => []
  | start, tile :: behind =>
      { tile.token with position := start.afterAll tile.gap } ::
        placed (start.afterAll tile.text) behind

@[simp]
theorem textOf_cons (tile : Tile) (behind : List Tile) :
    textOf (tile :: behind) = tile.gap ++ (tile.token.lexeme ++ textOf behind) := by
  simp [textOf, text]

@[simp]
theorem textOf_append (left right : List Tile) :
    textOf (left ++ right) = textOf left ++ textOf right :=
  List.flatMap_append

/-- The tiles behind others are placed where these end. -/
theorem placed_append (start : Position) (left right : List Tile) :
    placed start (left ++ right) =
      placed start left ++ placed (start.afterAll (textOf left)) right := by
  induction left generalizing start with
  | nil => rfl
  | cons tile left ih =>
    have hplace : (start.afterAll tile.text).afterAll (textOf left) =
        start.afterAll (textOf (tile :: left)) := by
      rw [← Position.afterAll_append]
      simp [text]
    rw [List.cons_append, placed, ih, hplace]
    rfl

end Tile

namespace Cursor

/-- The step that takes a token behind a gap. -/
theorem next?_of_reads {gap text rest : List Char} {kind : TokenKind} (hgap : Gap gap)
    (heof : kind ≠ .eof) (hreads : Reads kind text rest) (position : Position) :
    (⟨gap ++ (lexemeOf kind text ++ rest), position, false⟩ : Cursor).next? =
      some (⟨kind, String.ofList text, position.afterAll gap⟩,
        ⟨rest, (position.afterAll gap).afterAll (lexemeOf kind text), false⟩) := by
  simp only [next?, Bool.false_eq_true, if_false, skipGap_append hgap]
  by_cases hcomment : kind = .error .unterminatedComment
  · subst hcomment
    cases hreads with
    | keyword hkind => simp [keywords] at hkind
    | symbol hkind => cases hkind
    | @openComment body hbody =>
      have hlanding : skipGap (position.afterAll gap) none ('/' :: '*' :: body) =
          .openComment (position.afterAll gap) ('/' :: '*' :: body) := by
        rw [skipGap_opening, skipGap_unclosed hbody]
      simp [lexemeOf, hlanding]
  · obtain ⟨first, more, hlexeme, hfirst, hopens, htake⟩ := hreads.retaken heof hcomment
    rw [hlexeme, List.cons_append, Rendering.skipGap_cons hfirst hopens]
    simp only [htake, hlexeme]

theorem next?_of_gap {gap : List Char} (hgap : Gap gap) (position : Position) :
    (⟨gap, position, false⟩ : Cursor).next? =
      some (.atEnd (position.afterAll gap), ⟨[], position.afterAll gap, true⟩) := by
  have hskip := skipGap_append hgap position []
  rw [List.append_nil] at hskip
  simp [next?, hskip, skipGap]

/-- A text of settled tiles is scanned as their tokens. -/
theorem gives_of_settled {tiles : List Tile} (hsettled : Tile.Settled tiles) (position : Position) :
    (⟨Tile.textOf tiles, position, false⟩ : Cursor).Gives (Tile.placed position tiles) := by
  induction hsettled generalizing position with
  | @last tile hgap hkind htext =>
    obtain ⟨gap, kind, text, place⟩ := tile
    obtain rfl : kind = .eof := hkind
    obtain rfl : text = "" := htext
    have hwhole : Tile.textOf [⟨gap, .eof, "", place⟩] = gap := by
      simp [Tile.textOf, Tile.text, Token.lexeme, lexemeOf]
    rw [hwhole]
    exact (gives_cons (next?_of_gap hgap position)).2 (gives_of_ended rfl)
  | @next tile behind hgap hkind hreads _ ih =>
    have hnext := next?_of_reads hgap hkind hreads position
    rw [String.ofList_toList] at hnext
    rw [Tile.textOf_cons, Tile.placed, Tile.text, Position.afterAll_append]
    exact (gives_cons hnext).2 (ih _)

end Cursor

namespace Tile

/-- Every tile lies between those before it and those behind it. -/
def AllLaid (start : Position) (tiles : List Tile) : Prop :=
  ∀ left tile right, tiles = left ++ tile :: right →
    tile.Laid start (textOf left) (textOf right)

theorem Laid.lexeme_of_eof {start : Position} {before behind : List Char} {tile : Tile}
    (hlaid : tile.Laid start before behind) (hkind : tile.token.kind = .eof) :
    tile.token.lexeme = [] := by
  have hreads := hlaid.reads
  rw [hkind] at hreads
  rw [Token.lexeme, hkind]
  exact hreads.text_of_eof

theorem AllLaid.tail {start : Position} {tile : Tile} {behind : List Tile}
    (hlaid : AllLaid start (tile :: behind)) : AllLaid (start.afterAll tile.text) behind := by
  intro left other right hsplit
  have hother := hlaid (tile :: left) other right (by rw [hsplit]; rfl)
  refine ⟨hother.gap, ?_, hother.reads⟩
  rw [hother.position, ← Position.afterAll_append]
  simp [text]

theorem AllLaid.placed {start : Position} {tiles : List Tile} (hlaid : AllLaid start tiles) :
    placed start tiles = tiles.map Tile.token := by
  induction tiles generalizing start with
  | nil => rfl
  | cons tile behind ih =>
    have hplace := (hlaid [] tile behind rfl).position
    have hplace : tile.token.position = start.afterAll tile.gap := hplace
    rw [Tile.placed, ih hlaid.tail, ← hplace]
    rfl

theorem length_placed (start : Position) (tiles : List Tile) :
    (Tile.placed start tiles).length = tiles.length := by
  induction tiles generalizing start with
  | nil => rfl
  | cons tile behind ih => rw [Tile.placed, List.length_cons, ih, List.length_cons]

theorem AllLaid.placed_left {start : Position} {left right : List Tile}
    (hlaid : AllLaid start (left ++ right)) : Tile.placed start left = left.map Tile.token := by
  have hplaced := hlaid.placed
  rw [placed_append, List.map_append] at hplaced
  exact List.append_inj_left hplaced (by rw [length_placed, List.length_map])

/-- Tiles that are laid and end with their only end token are settled. -/
theorem AllLaid.settled {start : Position} {tiles : List Tile} (hlaid : AllLaid start tiles)
    {own : List Token} {final : Token} (hends : tiles.map Tile.token = own ++ [final])
    (hfinal : final.kind = .eof ∧ final.text = "") (hown : ∀ token ∈ own, token.kind ≠ .eof) :
    Settled tiles := by
  induction tiles generalizing start own with
  | nil => simp at hends
  | cons tile behind ih =>
    have hfirst := hlaid [] tile behind rfl
    cases own with
    | nil =>
      obtain ⟨rfl, rfl⟩ : tile.token = final ∧ behind = [] := by simpa using hends
      exact .last hfirst.gap hfinal.1 hfinal.2
    | cons token own =>
      obtain ⟨rfl, hbehind⟩ := List.cons.inj hends
      exact .next hfirst.gap (hown _ (by simp)) hfirst.reads
        (ih hlaid.tail hbehind fun other hmem => hown other (by simp [hmem]))

end Tile

/-- The tokens of a stream that ends are those of settled tiles. -/
theorem Cursor.Gives.settled {cursor : Cursor} {tokens : List Token} (hgives : cursor.Gives tokens)
    (hended : cursor.ended = false) :
    ∃ tiles, Tile.Settled tiles ∧ Tile.AllLaid cursor.position tiles ∧
      tiles.map Tile.token = tokens ∧ cursor.rest = Tile.textOf tiles := by
  obtain ⟨tiles, rfl, htext, hlaid⟩ := hgives.tiles hended
  have hlaid : Tile.AllLaid cursor.position tiles := hlaid
  obtain ⟨-, own, final, hends, hfinal, hown⟩ := hgives.ends hended
  refine ⟨tiles, hlaid.settled hends ⟨hfinal, ?_⟩ hown, hlaid, rfl, htext⟩
  obtain ⟨left, tile, hsplit, -, rfl⟩ : ∃ left tile, tiles = left ++ [tile] ∧
      left.map Tile.token = own ∧ tile.token = final := by
    obtain ⟨left, right, rfl, hleft, hright⟩ := List.map_eq_append_iff.1 hends
    obtain ⟨tile, rfl, htile⟩ := List.map_eq_singleton_iff.1 hright
    exact ⟨left, tile, rfl, hleft, htile⟩
  have hreads := (hlaid left tile [] hsplit).reads
  rw [hfinal] at hreads
  exact String.toList_eq_nil_iff.1 hreads.text_of_eof

/-- A source with a list of tokens is made of settled tiles. -/
theorem tokens?_settled {source : String} {tokens : List Token}
    (htokens : tokens? source = some tokens) :
    ∃ tiles, Tile.Settled tiles ∧ Tile.AllLaid .start tiles ∧ tiles.map Tile.token = tokens ∧
      source.toList = Tile.textOf tiles :=
  (Cursor.tokens?_eq_some_iff.1 htokens).settled rfl

/-- A source that is made of settled tiles has their tokens. -/
theorem tokens?_of_settled {source : String} {tiles : List Tile} (hsettled : Tile.Settled tiles)
    (hsource : source.toList = Tile.textOf tiles) :
    tokens? source = some (Tile.placed .start tiles) := by
  rw [tokens?, Cursor.tokens?_eq_some_iff, Cursor.ofSource, hsource]
  exact Cursor.gives_of_settled hsettled .start

/-! ## Other tiles behind -/

namespace Tile

/-- A tile that is not the last one. -/
theorem Settled.of_cons {tile : Tile} {behind : List Tile} (hsettled : Settled (tile :: behind))
    (hkind : tile.token.kind ≠ .eof) :
    Gap tile.gap ∧ Reads tile.token.kind tile.token.text.toList (textOf behind) ∧
      Settled behind := by
  generalize hwhole : tile :: behind = whole at hsettled
  cases hsettled with
  | last _ heof =>
    obtain ⟨rfl, -⟩ := List.cons.inj hwhole
    exact absurd heof hkind
  | next hgap _ hreads hrest =>
    obtain ⟨rfl, rfl⟩ := List.cons.inj hwhole
    exact ⟨hgap, hreads, hrest⟩

/-- Tiles stay settled before other tiles, if what is behind them begins as it did or with something
that separates. -/
theorem Settled.replace {left right right' : List Tile} (hsettled : Settled (left ++ right))
    (hleft : ∀ tile ∈ left, ¬ Unbounded tile.token.kind) (hright : Settled right')
    (hhead : (textOf right').head? = (textOf right).head? ∨
      ∃ c ∈ (textOf right').head?, Separates c) : Settled (left ++ right') := by
  have hkind {tile : Tile} (hbounded : ¬ Unbounded tile.token.kind) : tile.token.kind ≠ .eof := by
    intro heof
    simp [Unbounded, heof] at hbounded
  induction left with
  | nil => exact hright
  | cons tile left ih =>
    obtain ⟨hbounded, hmore⟩ := List.forall_mem_cons.1 hleft
    obtain ⟨hgap, hreads, hrest⟩ := hsettled.of_cons (hkind hbounded)
    refine .next hgap (hkind hbounded) (hreads.before hbounded ?_) (ih hrest hmore)
    cases left with
    | nil => exact hhead
    | cons second left =>
      have hsecond := hkind (List.forall_mem_cons.1 hmore).1
      have hlexeme : second.token.lexeme ≠ [] :=
        (hrest.of_cons hsecond).2.1.lexeme_ne_nil hsecond
      have hne : second.gap ++ second.token.lexeme ≠ [] := by simp [hlexeme]
      obtain ⟨c, more, hfront⟩ := List.exists_cons_of_ne_nil hne
      refine .inl ?_
      simp [← List.append_assoc, hfront]

theorem reads_newline (rest : List Char) : Reads .newline "\n".toList rest := by
  refine .symbol rfl (by decide) fun d _ => ⟨fun kind => ?_, by simp [spelling]⟩
  cases kind <;> simp [spelling]

/-- What separates, behind a gap, begins as the gap does, or separates. -/
theorem head?_separated {c : Char} (hc : Separates c) (gap more rest : List Char) :
    (gap ++ c :: more).head? = (gap ++ rest).head? ∨
      ∃ first ∈ (gap ++ c :: more).head?, Separates first := by
  cases gap with
  | nil => exact .inr ⟨c, rfl, hc⟩
  | cons first gap => exact .inl rfl

end Tile

end MetricScript
