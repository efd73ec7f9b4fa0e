import Mathlib
import MetricScript.Proofs.Script.Layout

/-!
# What one step of the scanner takes

A step of the token stream skips a gap and takes a lexeme, ends the stream, or stands still
before white space that the language does not skip.  `Cursor.Step` says this once, with the
characters that are taken and what makes the lexeme end where it does; everything about whole
streams follows from it.
-/

namespace MetricScript

open Rendering (spelling)

/-! ## Gaps and lexemes -/

namespace Scan

/-- The end of a comment does not occur in the text. -/
def Unclosed (text : List Char) : Prop := ¬ ['*', '/'] <:+: text

/-- Blanks and complete comments. -/
inductive Gap : List Char → Prop where
  | nil : Gap []
  | blank {c : Char} {rest : List Char} (hc : c ∈ [' ', '\t', '\r']) (hrest : Gap rest) :
      Gap (c :: rest)
  | comment {body rest : List Char} (hbody : Unclosed body) (hrest : Gap rest) :
      Gap ('/' :: '*' :: (body ++ '*' :: '/' :: rest))

/-- What may stand between the quotes of a string.  A backslash takes the next character with
it, and no other quote is there. -/
inductive Body : List Char → Prop where
  | nil : Body []
  | plain {c : Char} {rest : List Char} (hquote : c ≠ '"') (hslash : c ≠ '\\')
      (hrest : Body rest) : Body (c :: rest)
  | escaped (c : Char) {rest : List Char} (hrest : Body rest) : Body ('\\' :: c :: rest)

/-- A run of characters of a class that goes as far as it can. -/
def LongestRun (keep : Char → Bool) (run rest : List Char) : Prop :=
  (∀ c ∈ run, keep c) ∧ ∀ c ∈ rest.head?, keep c = false

/-- A symbol is not torn off a longer one, nor off the opening of a comment. -/
def Unsplit (symbol rest : List Char) : Prop :=
  ∀ d ∈ rest.head?, (∀ kind, (spelling kind).toList ≠ symbol ++ [d]) ∧ symbol ++ [d] ≠ ['/', '*']

def keywords : List TokenKind :=
  [.trueLiteral, .falseLiteral, .nullLiteral, .ifKeyword, .elseKeyword, .whileKeyword]

/-- A token of a kind with a text, before the rest of the source: the text fits the kind, and
nothing of the rest could have belonged to it. -/
inductive Reads : TokenKind → (text rest : List Char) → Prop where
  | number {first : Char} {run rest : List Char} (hfirst : Number.isDigit first)
      (hrun : LongestRun isNumberChar run rest) : Reads .number (first :: run) rest
  | variableName {run rest : List Char} (hne : run ≠ [])
      (hrun : LongestRun isIdentifierChar run rest) : Reads .variableName ('$' :: run) rest
  | emptyVariable {rest : List Char} (hrest : LongestRun isIdentifierChar [] rest) :
      Reads (.error .emptyVariable) ['$'] rest
  | identifier {run rest : List Char} (hne : run ≠ [])
      (hdigit : ∀ c ∈ run.head?, Number.isDigit c = false)
      (hrun : LongestRun isIdentifierChar run rest)
      (hname : ∀ kind, (spelling kind).toList ≠ run) : Reads .identifier run rest
  | keyword {kind : TokenKind} {rest : List Char} (hkind : kind ∈ keywords)
      (hrun : LongestRun isIdentifierChar (spelling kind).toList rest) :
      Reads kind (spelling kind).toList rest
  | symbol {kind : TokenKind} {rest : List Char} (hkind : Rendering.isFixed kind)
      (hword : kind ∉ keywords) (hunsplit : Unsplit (spelling kind).toList rest) :
      Reads kind (spelling kind).toList rest
  | unknown {c : Char} {rest : List Char} (hc : c = '&' ∨ c = '|') (hunsplit : Unsplit [c] rest) :
      Reads (.error .unknownSymbol) [c] rest
  | string {body rest : List Char} (hbody : Body body) : Reads .string body rest
  /-- The source may end right behind a backslash. -/
  | openString {body tail : List Char} (hbody : Body body) (htail : tail = [] ∨ tail = ['\\']) :
      Reads (.error .unterminatedString) (body ++ tail) []
  | openComment {body : List Char} (hbody : Unclosed body) :
      Reads (.error .unterminatedComment) ('/' :: '*' :: body) []
  | eof : Reads .eof [] []

/-- White space that the language neither skips nor takes as the end of a line. -/
def Unskipped (c : Char) : Prop := Text.isBlank c ∧ c ∉ [' ', '\t', '\r', '\n']

/-- The characters of a token as they stand in the source, with the quotes of a string. -/
def lexemeOf (kind : TokenKind) (text : List Char) : List Char :=
  match kind with
  | .string => '"' :: (text ++ ['"'])
  | .error .unterminatedString => '"' :: text
  | _ => text

theorem lexemeOf_verbatim {kind : TokenKind} (hstring : kind ≠ .string)
    (hopen : kind ≠ .error .unterminatedString) (text : List Char) :
    lexemeOf kind text = text := by
  unfold lexemeOf
  split <;> first | rfl | contradiction

end Scan

def Token.lexeme (token : Token) : List Char := Scan.lexemeOf token.kind token.text.toList

namespace Cursor

open Scan

/-- What one step of the stream does. -/
inductive Step : Cursor → Token → Cursor → Prop where
  | taken {gap rest : List Char} {position : Position} {token : Token} (hgap : Gap gap)
      (hposition : token.position = position.afterAll gap) (hlexeme : token.lexeme ≠ [])
      (hreads : Reads token.kind token.text.toList rest) :
      Step ⟨gap ++ (token.lexeme ++ rest), position, false⟩ token
        ⟨rest, (position.afterAll gap).afterAll token.lexeme, false⟩
  | finished {gap : List Char} {position : Position} (hgap : Gap gap) :
      Step ⟨gap, position, false⟩ (.atEnd (position.afterAll gap))
        ⟨[], position.afterAll gap, true⟩
  | stuck {gap after : List Char} {position : Position} {c : Char} (hgap : Gap gap)
      (hc : Unskipped c) :
      Step ⟨gap ++ c :: after, position, false⟩ ⟨.identifier, "", position.afterAll gap⟩
        ⟨c :: after, position.afterAll gap, false⟩

end Cursor

/-! ## Skipping gaps -/

theorem Position.afterAll_append (position : Position) (left right : List Char) :
    position.afterAll (left ++ right) = (position.afterAll left).afterAll right :=
  List.foldl_append

namespace Scan

theorem unclosed_nil : Unclosed [] := by simp [Unclosed]

theorem unclosed_cons {c : Char} {text : List Char} :
    Unclosed (c :: text) ↔ ¬ (c = '*' ∧ text.head? = some '/') ∧ Unclosed text := by
  rw [Unclosed, List.infix_cons_iff, not_or, Unclosed]
  apply and_congr_left'
  cases text with
  | nil => simp
  | cons d text => simp [List.cons_prefix_cons, eq_comm]

/-- Inside of a comment everything up to its end is passed over. -/
theorem skipGap_comment (position : Position) (opening : Position × List Char)
    (text : List Char) :
    (∃ body rest, text = body ++ '*' :: '/' :: rest ∧ Unclosed body ∧
      skipGap position (some opening) text =
        skipGap (position.afterAll (body ++ ['*', '/'])) none rest) ∨
    (Unclosed text ∧ skipGap position (some opening) text = .openComment opening.1 opening.2) := by
  induction text generalizing position with
  | nil => exact .inr ⟨unclosed_nil, rfl⟩
  | cons c text ih =>
    cases text with
    | nil => exact .inr ⟨unclosed_cons.2 ⟨by simp, unclosed_nil⟩, rfl⟩
    | cons d text =>
      by_cases hends : c = '*' ∧ d = '/'
      · obtain ⟨rfl, rfl⟩ := hends
        exact .inl ⟨[], text, rfl, unclosed_nil, rfl⟩
      · have hskip : skipGap position (some opening) (c :: d :: text) =
            skipGap (position.after c) (some opening) (d :: text) := by
          rw [skipGap, if_neg (by simpa using hends)]
        rw [hskip]
        rcases ih (position.after c) with ⟨body, rest, htext, hbody, hrest⟩ | ⟨htext, hopen⟩
        · refine .inl ⟨c :: body, rest, by rw [htext]; rfl, unclosed_cons.2 ⟨?_, hbody⟩, hrest⟩
          rintro ⟨rfl, hhead⟩
          cases body with
          | nil => simp at hhead
          | cons first body =>
            obtain rfl : first = '/' := by simpa using hhead
            exact hends ⟨rfl, (List.cons.inj htext).1⟩
        · exact .inr ⟨unclosed_cons.2 ⟨by simpa using hends, htext⟩, hopen⟩

/-- Where skipping a gap ends. -/
inductive Skips (position : Position) : List Char → Landing → Prop where
  | found {gap rest : List Char} (hgap : Gap gap)
      (hrest : ∀ c ∈ rest.head?, isGapChar c = false ∧ (c = '/' → rest.tail.head? ≠ some '*')) :
      Skips position (gap ++ rest) (.found (position.afterAll gap) rest)
  | openComment {gap body : List Char} (hgap : Gap gap) (hbody : Unclosed body) :
      Skips position (gap ++ '/' :: '*' :: body)
        (.openComment (position.afterAll gap) ('/' :: '*' :: body))

theorem Skips.blank {position : Position} {c : Char} {text : List Char} {landing : Landing}
    (hc : isGapChar c) (hskips : Skips (position.after c) text landing) :
    Skips position (c :: text) landing := by
  have hmem : c ∈ [' ', '\t', '\r'] := by
    simpa [isGapChar, or_assoc] using hc
  cases hskips with
  | found hgap hrest => exact .found (.blank hmem hgap) hrest
  | openComment hgap hbody => exact .openComment (.blank hmem hgap) hbody

/-- A closed comment is skipped, and its lines are counted. -/
theorem Skips.comment {position : Position} {body text : List Char} {landing : Landing}
    (hbody : Unclosed body)
    (hskips : Skips (position.afterAll ('/' :: '*' :: (body ++ ['*', '/']))) text landing) :
    Skips position ('/' :: '*' :: (body ++ '*' :: '/' :: text)) landing := by
  cases hskips with
  | @found gap rest hgap hrest =>
    have htext : '/' :: '*' :: (body ++ '*' :: '/' :: (gap ++ rest)) =
        '/' :: '*' :: (body ++ '*' :: '/' :: gap) ++ rest := by simp
    have hplace : (position.afterAll ('/' :: '*' :: (body ++ ['*', '/']))).afterAll gap =
        position.afterAll ('/' :: '*' :: (body ++ '*' :: '/' :: gap)) := by
      rw [← Position.afterAll_append]
      simp
    rw [htext, hplace]
    exact .found (.comment hbody hgap) hrest
  | @openComment gap inner hgap hinner =>
    have htext : '/' :: '*' :: (body ++ '*' :: '/' :: (gap ++ '/' :: '*' :: inner)) =
        '/' :: '*' :: (body ++ '*' :: '/' :: gap) ++ '/' :: '*' :: inner := by simp
    have hplace : (position.afterAll ('/' :: '*' :: (body ++ ['*', '/']))).afterAll gap =
        position.afterAll ('/' :: '*' :: (body ++ '*' :: '/' :: gap)) := by
      rw [← Position.afterAll_append]
      simp
    rw [htext, hplace]
    exact .openComment (.comment hbody hgap) hinner

/-- Skipping ends before a lexeme, at the end of the text or inside of an open comment. -/
theorem skips_skipGap (position : Position) (text : List Char) :
    Skips position text (skipGap position none text) := by
  -- A comment is passed over as a whole, so the induction is on the length of the text.
  induction hlength : text.length using Nat.strong_induction_on generalizing position text with
  | _ length ih =>
    subst hlength
    cases text with
    | nil => exact .found .nil (by simp)
    | cons c text =>
      by_cases hblank : isGapChar c
      · have hskip : skipGap position none (c :: text) = skipGap (position.after c) none text := by
          cases text with
          | nil => simp [skipGap, hblank]
          | cons d text => rw [skipGap, if_pos hblank]
        rw [hskip]
        exact .blank hblank (ih text.length (by simp) (position.after c) text rfl)
      · by_cases hopens : c = '/' ∧ text.head? = some '*'
        · obtain ⟨rfl, hhead⟩ := hopens
          obtain ⟨inner, rfl⟩ : ∃ inner, text = '*' :: inner := by
            cases text with
            | nil => simp at hhead
            | cons d inner => exact ⟨inner, by simpa using hhead⟩
          have hskip : skipGap position none ('/' :: '*' :: inner) =
              skipGap (position.afterAll ['/', '*']) (some (position, '/' :: '*' :: inner))
                inner := by
            rw [skipGap, if_neg hblank, if_pos (by simp)]
            rfl
          rw [hskip]
          rcases skipGap_comment (position.afterAll ['/', '*'])
            (position, '/' :: '*' :: inner) inner with
            ⟨body, rest, rfl, hbody, hrest⟩ | ⟨hbody, hopen⟩
          · rw [hrest, ← Position.afterAll_append]
            exact .comment hbody (ih rest.length (by simp; omega) _ rest rfl)
          · rw [hopen]
            exact .openComment .nil hbody
        · have hfound := Rendering.skipGap_cons (by simpa using hblank)
            (fun hslash hstar => hopens ⟨hslash, hstar⟩) position
          rw [hfound]
          refine .found .nil fun d hmem => ?_
          obtain rfl : c = d := by simpa using hmem
          exact ⟨by simpa using hblank, fun hslash hstar => hopens ⟨hslash, hstar⟩⟩

/-! ## Taking lexemes -/

theorem longestRun_takeWhile (keep : Char → Bool) (text : List Char) :
    LongestRun keep (text.takeWhile keep) (text.dropWhile keep) := by
  refine ⟨fun c hmem => (List.mem_takeWhile_imp hmem), fun c hmem => ?_⟩
  have hhead := List.head?_dropWhile_not keep text
  rw [Option.mem_def.1 hmem] at hhead
  exact hhead

/-- A string ends at its first quote that no backslash escapes. -/
theorem splitString_closed {text body rest : List Char}
    (hsplit : splitString text = (body, some rest)) : text = body ++ '"' :: rest ∧ Body body := by
  fun_induction splitString text generalizing body rest with
  | case1 => simp at hsplit
  | case2 => simp_all [Body.nil]
  | case3 => simp at hsplit
  | case4 d remaining => simp_all [Body.nil]
  | case5 d remaining inner closed hinner _ ih =>
    obtain ⟨rfl, rfl⟩ : '\\' :: d :: inner = body ∧ closed = some rest := by simpa using hsplit
    obtain ⟨rfl, hbody⟩ := ih hinner
    exact ⟨rfl, .escaped d hbody⟩
  | case6 c d remaining hquote hslash inner closed hinner ih =>
    obtain ⟨rfl, rfl⟩ : c :: inner = body ∧ closed = some rest := by simpa using hsplit
    obtain ⟨htext, hbody⟩ := ih hinner
    exact ⟨by rw [htext]; rfl, .plain hquote hslash hbody⟩

/-- A string without such a quote goes on to the end of the text. -/
theorem splitString_open {text body : List Char} (hsplit : splitString text = (body, none)) :
    text = body ∧ ∃ front tail, Body front ∧ (tail = [] ∨ tail = ['\\']) ∧
      body = front ++ tail := by
  fun_induction splitString text generalizing body with
  | case1 =>
    obtain rfl : [] = body := by simpa using hsplit
    exact ⟨rfl, [], [], .nil, .inl rfl, rfl⟩
  | case2 => simp at hsplit
  | case3 c hquote =>
    obtain rfl : [c] = body := by simpa using hsplit
    refine ⟨rfl, ?_⟩
    by_cases hslash : c = '\\'
    · exact ⟨[], ['\\'], .nil, .inr rfl, by rw [hslash]; rfl⟩
    · exact ⟨[c], [], .plain hquote hslash .nil, .inl rfl, rfl⟩
  | case4 => simp at hsplit
  | case5 d remaining inner closed hinner _ ih =>
    obtain ⟨rfl, rfl⟩ : '\\' :: d :: inner = body ∧ closed = none := by simpa using hsplit
    obtain ⟨rfl, front, tail, hfront, htail, rfl⟩ := ih hinner
    exact ⟨rfl, '\\' :: d :: front, tail, .escaped d hfront, htail, rfl⟩
  | case6 c d remaining hquote hslash inner closed hinner ih =>
    obtain ⟨rfl, rfl⟩ : c :: inner = body ∧ closed = none := by simpa using hsplit
    obtain ⟨htext, front, tail, hfront, htail, rfl⟩ := ih hinner
    exact ⟨by rw [htext], c :: front, tail, .plain hquote hslash hfront, htail, rfl⟩

/-- A character that begins a symbol is a symbol by itself, but for two of them. -/
theorem singleKind_cases {c : Char} (hc : isSymbol c) :
    (Rendering.isFixed (singleKind c) ∧ singleKind c ∉ keywords ∧
      (spelling (singleKind c)).toList = [c]) ∨
    ((c = '&' ∨ c = '|') ∧ singleKind c = .error .unknownSymbol) := by
  unfold singleKind
  split
  case h_20 => exact .inr ⟨by simp_all [isSymbol], rfl⟩
  all_goals exact .inl (by decide)

theorem spelling_of_pairKind? {c d : Char} {kind : TokenKind}
    (hkind : pairKind? c d = some kind) :
    Rendering.isFixed kind ∧ kind ∉ keywords ∧ (spelling kind).toList = [c, d] := by
  unfold pairKind? at hkind
  split at hkind <;> simp at hkind <;> subst hkind <;> decide

theorem pairKind?_of_spelling {c d : Char} (hc : isSymbol c) {kind : TokenKind}
    (hspelling : (spelling kind).toList = [c, d]) : pairKind? c d = some kind := by
  cases kind <;> simp [spelling] at hspelling
  all_goals obtain ⟨rfl, rfl⟩ := hspelling
  case ifKeyword => exact absurd hc (by decide)
  all_goals rfl

theorem spelling_length (kind : TokenKind) : (spelling kind).toList.length ≠ 3 := by
  cases kind <;> simp [spelling]

theorem unsplit_pair {c d : Char} (hc : c ≠ '/') (rest : List Char) : Unsplit [c, d] rest := by
  intro e _
  refine ⟨fun kind hspelling => ?_, by simp [hc]⟩
  exact spelling_length kind (by rw [hspelling]; rfl)

theorem unsplit_single {c : Char} (hc : isSymbol c) {rest : List Char}
    (hpair : ∀ d ∈ rest.head?, pairKind? c d = none)
    (hcomment : c = '/' → rest.head? ≠ some '*') : Unsplit [c] rest := by
  intro d hmem
  refine ⟨fun kind hspelling => ?_, fun hopens => ?_⟩
  · have hkind := pairKind?_of_spelling hc hspelling
    rw [hpair d hmem] at hkind
    cases hkind
  · obtain ⟨rfl, rfl⟩ : c = '/' ∧ d = '*' := by simpa using hopens
    exact hcomment rfl hmem

/-- The piece is a token at the front of a text. -/
structure Piece.Takes (piece : Piece) (text : List Char) : Prop where
  whole : text = piece.lexeme ++ piece.rest
  nonempty : piece.lexeme ≠ []
  lexeme : ∀ position, Token.lexeme ⟨piece.kind, String.ofList piece.text, position⟩ = piece.lexeme
  reads : Reads piece.kind piece.text piece.rest

theorem takes_verbatim {kind : TokenKind} {lexeme rest : List Char}
    (hreads : Reads kind lexeme rest) (hne : lexeme ≠ []) (hstring : kind ≠ .string)
    (hopen : kind ≠ .error .unterminatedString) :
    (Piece.verbatim kind lexeme rest).Takes (lexeme ++ rest) where
  whole := rfl
  nonempty := hne
  lexeme position := by
    rw [Token.lexeme, String.toList_ofList]
    exact lexemeOf_verbatim hstring hopen lexeme
  reads := hreads

theorem takes_symbol {kind : TokenKind} {lexeme rest : List Char} (hkind : Rendering.isFixed kind)
    (hword : kind ∉ keywords) (hspelling : (spelling kind).toList = lexeme) (hne : lexeme ≠ [])
    (hunsplit : Unsplit lexeme rest) : (Piece.verbatim kind lexeme rest).Takes (lexeme ++ rest) := by
  subst hspelling
  refine takes_verbatim (.symbol hkind hword hunsplit) hne ?_ ?_
  · rintro rfl
    cases hkind
  · rintro rfl
    cases hkind

theorem takes_single {c : Char} (hc : isSymbol c) {rest : List Char} (hunsplit : Unsplit [c] rest) :
    (Piece.verbatim (singleKind c) [c] rest).Takes (c :: rest) := by
  rcases singleKind_cases hc with ⟨hfixed, hword, hspelling⟩ | ⟨hunknown, hkind⟩
  · exact takes_symbol hfixed hword hspelling (by simp) hunsplit
  · rw [hkind]
    exact takes_verbatim (.unknown hunknown hunsplit) (by simp) (by simp) (by simp)

/-- A symbol takes its own characters and leaves the rest. -/
theorem takes_takeSymbol {first : Char} (hfirst : isSymbol first) {rest : List Char}
    (hcomment : first = '/' → rest.head? ≠ some '*') :
    (takeSymbol first rest).Takes (first :: rest) := by
  cases rest with
  | nil => exact takes_single hfirst fun d hmem => by cases hmem
  | cons second rest =>
    rw [takeSymbol]
    split
    · next kind hkind =>
      obtain ⟨hfixed, hword, hspelling⟩ := spelling_of_pairKind? hkind
      have hslash := (Rendering.isSymbol_of_pairKind? hkind).2.1
      exact takes_symbol hfixed hword hspelling (by simp) (unsplit_pair hslash rest)
    · next hpair =>
      exact takes_single hfirst (unsplit_single hfirst (by simpa using hpair) hcomment)

theorem takes_takeString (text : List Char) : (takeString text).Takes ('"' :: text) := by
  rw [takeString]
  split
  · next body rest hsplit =>
    obtain ⟨rfl, hbody⟩ := splitString_closed hsplit
    exact ⟨by simp, by simp, fun _ => by simp [Token.lexeme, lexemeOf], .string hbody⟩
  · next body hsplit =>
    obtain ⟨rfl, front, tail, hfront, htail, rfl⟩ := splitString_open hsplit
    exact ⟨by simp, by simp, fun _ => by simp [Token.lexeme, lexemeOf], .openString hfront htail⟩

theorem takes_takeVariable (text : List Char) : (takeVariable text).Takes ('$' :: text) := by
  have hrun := longestRun_takeWhile isIdentifierChar text
  have htext : '$' :: text =
      '$' :: text.takeWhile isIdentifierChar ++ text.dropWhile isIdentifierChar := by simp
  rw [takeVariable, htext]
  split
  · next hempty =>
    rw [List.isEmpty_iff.1 hempty] at hrun ⊢
    exact takes_verbatim (.emptyVariable hrun) (by simp) (by simp) (by simp)
  · next hne =>
    rw [List.isEmpty_iff] at hne
    exact takes_verbatim (.variableName hne hrun) (by simp) (by simp) (by simp)

/-- A word is a keyword by its spelling, or it is an identifier. -/
theorem wordKind_cases (word : String) :
    (wordKind word ∈ keywords ∧ spelling (wordKind word) = word) ∨
      (wordKind word = .identifier ∧ ∀ kind ∈ keywords, spelling kind ≠ word) := by
  unfold wordKind
  split
  case h_7 => simp_all [keywords, spelling, eq_comm]
  all_goals exact .inl (by decide)

theorem isSymbol_of_spelling {kind : TokenKind} (hkind : kind ∉ keywords) :
    ∀ c ∈ (spelling kind).toList.head?, isSymbol c := by
  cases kind <;> simp_all [keywords, spelling, isSymbol]

/-- A run of identifier characters is a keyword, or the spelling of nothing. -/
theorem reads_word {run rest : List Char} (hne : run ≠ [])
    (hdigit : ∀ c ∈ run.head?, Number.isDigit c = false)
    (hrun : LongestRun isIdentifierChar run rest) :
    Reads (wordKind (String.ofList run)) run rest := by
  rcases wordKind_cases (String.ofList run) with ⟨hkind, hspelling⟩ | ⟨hkind, hother⟩
  · have htext : (spelling (wordKind (String.ofList run))).toList = run := by
      rw [hspelling, String.toList_ofList]
    rw [← htext] at hrun
    have hreads := Reads.keyword hkind hrun
    rwa [htext] at hreads
  · rw [hkind]
    refine .identifier hne hdigit hrun fun kind hspelling => ?_
    by_cases hkeyword : kind ∈ keywords
    · exact hother kind hkeyword (by rw [← hspelling, String.ofList_toList])
    · obtain ⟨first, more, rfl⟩ := List.exists_cons_of_ne_nil hne
      have hsymbol := isSymbol_of_spelling hkeyword first (by rw [hspelling]; rfl)
      have hchar := Rendering.identifierChar_cases (hrun.1 first (by simp))
      simp [hsymbol] at hchar

theorem unskipped_of_other {c : Char} (hgap : isGapChar c = false) (hsymbol : isSymbol c = false)
    (hquote : c ≠ '"') (hdollar : c ≠ '$') (hchar : isIdentifierChar c = false) : Unskipped c := by
  have hblank : Text.isBlank c := by
    simpa [isIdentifierChar, hsymbol, hquote, hdollar] using hchar
  refine ⟨hblank, fun hmem => ?_⟩
  simp only [List.mem_cons, List.not_mem_nil, or_false] at hmem
  rcases hmem with rfl | rfl | rfl | rfl
  · exact absurd hgap (by decide)
  · exact absurd hgap (by decide)
  · exact absurd hgap (by decide)
  · simp [isSymbol] at hsymbol

/-- A word takes the longest run of its characters. -/
theorem takes_word {text : List Char} (hne : text.takeWhile isIdentifierChar ≠ [])
    (hdigit : ∀ c ∈ text.head?, Number.isDigit c = false) :
    let word := text.takeWhile isIdentifierChar
    (Piece.verbatim (wordKind (String.ofList word)) word
      (text.dropWhile isIdentifierChar)).Takes text := by
  have hhead : ∀ c ∈ (text.takeWhile isIdentifierChar).head?, Number.isDigit c = false := by
    intro c hmem
    rw [List.head?_takeWhile] at hmem
    exact hdigit c ((Option.mem_filter_iff.1 hmem).1)
  have hreads := reads_word hne hhead (longestRun_takeWhile isIdentifierChar text)
  have htext : text.takeWhile isIdentifierChar ++ text.dropWhile isIdentifierChar = text :=
    List.takeWhile_append_dropWhile
  have htakes := takes_verbatim hreads hne
  rw [htext] at htakes
  rcases wordKind_cases (String.ofList (text.takeWhile isIdentifierChar)) with hkind | hkind
  · refine htakes ?_ ?_
    · intro heq
      rw [heq] at hkind
      exact absurd hkind.1 (by decide)
    · intro heq
      rw [heq] at hkind
      exact absurd hkind.1 (by decide)
  · exact htakes (by simp [hkind.1]) (by simp [hkind.1])

/-- A text begins with a token, unless it begins with white space that is not skipped. -/
theorem takes_take {first : Char} {rest : List Char} (hgap : isGapChar first = false)
    (hcomment : first = '/' → rest.head? ≠ some '*') :
    (take first rest).Takes (first :: rest) ∨
      (Unskipped first ∧ take first rest = .verbatim .identifier [] (first :: rest)) := by
  unfold take
  split
  · next hsymbol => exact .inl (takes_takeSymbol hsymbol hcomment)
  next hsymbol =>
  split
  · next hdigit =>
    have hrun := longestRun_takeWhile isNumberChar rest
    have htext : first :: rest =
        first :: rest.takeWhile isNumberChar ++ rest.dropWhile isNumberChar := by simp
    rw [htext]
    exact .inl (takes_verbatim (.number hdigit hrun) (by simp) (by simp) (by simp))
  next hdigit =>
  split
  · next hquote =>
    subst hquote
    exact .inl (takes_takeString rest)
  next hquote =>
  split
  · next hdollar =>
    subst hdollar
    exact .inl (takes_takeVariable rest)
  next hdollar =>
  by_cases hchar : isIdentifierChar first
  · refine .inl (takes_word (by simp [hchar]) fun c hmem => ?_)
    obtain rfl : first = c := by simpa using hmem
    exact Bool.eq_false_iff.2 hdigit
  · refine .inr ⟨unskipped_of_other hgap (by simpa using hsymbol) hquote hdollar
      (by simpa using hchar), ?_⟩
    simp [hchar, wordKind]

end Scan

/-! ## One step -/

namespace Cursor

open Scan

/-- Every step is one of the three. -/
theorem step_of_next? {cursor following : Cursor} {token : Token}
    (hnext : cursor.next? = some (token, following)) : Step cursor token following := by
  obtain ⟨rest, position, ended⟩ := cursor
  cases ended with
  | true => cases hnext
  | false =>
    simp only [next?, Bool.false_eq_true, if_false] at hnext
    generalize hlanding : skipGap position none rest = landing at hnext
    have hskips := skips_skipGap position rest
    rw [hlanding] at hskips
    cases hskips with
    | @openComment gap body hgap hbody =>
      obtain ⟨rfl, rfl⟩ := Prod.mk.inj (Option.some.inj hnext)
      have hstep := @Step.taken gap [] position ⟨.error .unterminatedComment,
        String.ofList ('/' :: '*' :: body), position.afterAll gap⟩ hgap rfl
        (by simp [Token.lexeme, lexemeOf]) (by simpa using Reads.openComment hbody)
      simpa [Token.lexeme, lexemeOf] using hstep
    | @found gap text hgap htext =>
      cases text with
      | nil =>
        obtain ⟨rfl, rfl⟩ := Prod.mk.inj (Option.some.inj hnext)
        rw [List.append_nil]
        exact .finished hgap
      | cons first remaining =>
        obtain ⟨rfl, rfl⟩ := Prod.mk.inj (Option.some.inj hnext)
        obtain ⟨hblank, hcomment⟩ := htext first rfl
        rcases @takes_take first remaining hblank hcomment with htakes | ⟨hfirst, hpiece⟩
        · rw [htakes.whole, ← htakes.lexeme (position.afterAll gap)]
          refine .taken hgap rfl ?_ (by simpa using htakes.reads)
          rw [htakes.lexeme]
          exact htakes.nonempty
        · rw [hpiece]
          exact .stuck hgap hfirst

end Cursor

end MetricScript
