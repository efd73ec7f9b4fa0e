import MetricScript.Proofs.Script.Rendering
import MetricScript.Proofs.Script.Scanning

/-!
# Scanning what is set out

Words that are set out with blanks or newlines between them are scanned as the tokens of
these words.  Each kind of word has its own reason to end where it does: a name or a number
because no blank continues it, a symbol because no blank pairs with it, and a string because
every quote inside it is escaped.
-/

namespace MetricScript.Rendering

/-! ## Classes of characters -/

/-- What stands behind a word: nothing, a blank or a newline. -/
def Boundary (rest : List Char) : Prop := ∀ c ∈ rest.head?, c = ' ' ∨ c = '\n'

/-- The end of the text is a boundary. -/
theorem boundary_nil : Boundary [] := fun _ hmem => nomatch hmem

theorem boundary_cons {c : Char} (hc : c = ' ' ∨ c = '\n') (rest : List Char) :
    Boundary (c :: rest) := by
  intro d hmem
  obtain rfl : c = d := by simpa using hmem
  exact hc

theorem identifierChar_cases {c : Char} (hc : Scan.isIdentifierChar c) :
    Text.isBlank c = false ∧ Scan.isSymbol c = false ∧ c ≠ '"' ∧ c ≠ '$' := by
  simp only [Scan.isIdentifierChar, Bool.not_eq_true', Bool.or_eq_false_iff,
    decide_eq_false_iff_not] at hc
  tauto

theorem gapChar_blank {c : Char} (hc : Scan.isGapChar c) : Text.isBlank c := by
  simp only [Scan.isGapChar, Bool.or_eq_true, decide_eq_true_eq] at hc
  rcases hc with (rfl | rfl) | rfl <;> rfl

theorem symbol_not_digit {c : Char} (hc : Scan.isSymbol c) : Number.isDigit c = false := by
  have hall : ∀ symbol ∈ "+-/*:.,()[]=&|!\x7b\x7d\n;<>".toList,
      Number.isDigit symbol = false := by simp [Number.isDigit]
  exact hall c (by simpa [Scan.isSymbol] using hc)

theorem symbol_not_gap {c : Char} (hc : Scan.isSymbol c) : Scan.isGapChar c = false := by
  have hall : ∀ symbol ∈ "+-/*:.,()[]=&|!\x7b\x7d\n;<>".toList,
      Scan.isGapChar symbol = false := by simp [Scan.isGapChar]
  exact hall c (by simpa [Scan.isSymbol] using hc)

theorem digit_not_gap {c : Char} (hc : Number.isDigit c) : Scan.isGapChar c = false := by
  by_contra hgap
  simp only [Scan.isGapChar, Bool.not_eq_false, Bool.or_eq_true, decide_eq_true_eq] at hgap
  rcases hgap with (rfl | rfl) | rfl <;> exact nomatch hc

/-! ## One word -/

/-- Before the rest of a text the word is taken as one token. -/
def TakenBefore (word : Word) (rest : List Char) : Prop :=
  ∃ first more, word.lexeme = first :: more ∧ Scan.isGapChar first = false ∧
    (first = '/' → (more ++ rest).head? ≠ some '*') ∧
    Scan.take first (more ++ rest) = ⟨word.kind, word.text.toList, word.lexeme, rest⟩

/-- A word that is taken as one token wherever its neighbours leave it apart. -/
def Scannable (word : Word) : Prop := ∀ rest, Boundary rest → TakenBefore word rest

/-- A run of characters in front of a boundary is taken as a whole. -/
theorem takeWhile_run {keep : Char → Bool} {run rest : List Char} (hrun : ∀ c ∈ run, keep c)
    (hblank : keep ' ' = false) (hline : keep '\n' = false) (hrest : Boundary rest) :
    (run ++ rest).takeWhile keep = run ∧ (run ++ rest).dropWhile keep = rest := by
  rw [List.takeWhile_append_of_pos hrun, List.dropWhile_append_of_pos hrun]
  cases rest with
  | nil => simp
  | cons c rest =>
    have hc : keep c = false := by
      rcases hrest c rfl with rfl | rfl
      · exact hblank
      · exact hline
    simp [hc]

/-- A run of identifier characters that does not begin like a number. -/
theorem run_taken {text : String} (hne : text.toList ≠ [])
    (hrun : ∀ c ∈ text.toList, Scan.isIdentifierChar c)
    (hdigit : ∀ c ∈ text.toList.head?, Number.isDigit c = false)
    (hkind : Scan.wordKind text ≠ .string) : Scannable ⟨Scan.wordKind text, text⟩ := by
  intro rest hrest
  obtain ⟨first, more, htext⟩ := List.exists_cons_of_ne_nil hne
  have hlexeme : Word.lexeme ⟨Scan.wordKind text, text⟩ = first :: more := by
    rw [Word.lexeme, if_neg hkind, htext]
  have hsplit := takeWhile_run hrun (by decide) (by decide) hrest
  rw [htext] at hrun hdigit hsplit
  obtain ⟨hblank, hsymbol, hquote, hdollar⟩ := identifierChar_cases (hrun first (by simp))
  have hfirst : ¬ ('0' ≤ first && first ≤ '9') = true := Bool.eq_false_iff.1 (hdigit first rfl)
  have hgap : Scan.isGapChar first = false := by
    by_contra hgap
    simp [gapChar_blank (by simpa using hgap)] at hblank
  refine ⟨first, more, hlexeme, hgap, ?_, ?_⟩
  · rintro rfl
    simp [Scan.isSymbol] at hsymbol
  · rw [List.cons_append] at hsplit
    rw [Scan.take, if_neg (by simp [hsymbol]), if_neg hfirst, if_neg hquote, if_neg hdollar,
      hsplit.1, hsplit.2, Scan.Piece.verbatim, hlexeme, htext, ← htext, String.ofList_toList]

/-- A number is scanned as one token in front of a boundary. -/
theorem number_scannable {text : String} (htext : NumberText text) :
    Scannable ⟨.number, text⟩ := by
  intro rest hrest
  obtain ⟨first, more, hchars, hfirst, hmore⟩ := htext
  have hsplit := takeWhile_run hmore (by decide) (by decide) hrest
  have hsymbol : Scan.isSymbol first = false := by
    by_contra hsymbol
    simp [symbol_not_digit (by simpa using hsymbol)] at hfirst
  have hlexeme : Word.lexeme ⟨.number, text⟩ = first :: more := hchars
  refine ⟨first, more, hlexeme, digit_not_gap hfirst, ?_, ?_⟩
  · rintro rfl
    simp [Number.isDigit] at hfirst
  · rw [Scan.take, if_neg (by simp [hsymbol]), if_pos (by exact hfirst), hsplit.1, hsplit.2,
      hlexeme, hchars]
    rfl

theorem variable_scannable {name : String} (hname : VariableName name) :
    Scannable (variableWord name) := by
  intro rest hrest
  obtain ⟨run, hchars, hne, hrun⟩ := hname
  have hsplit := takeWhile_run hrun (by decide) (by decide) hrest
  have hlexeme : (variableWord name).lexeme = '$' :: run := hchars
  refine ⟨'$', run, hlexeme, by decide, by simp, ?_⟩
  have htake : Scan.take '$' (run ++ rest) = Scan.takeVariable (run ++ rest) := rfl
  rw [htake, Scan.takeVariable, hsplit.1, hsplit.2, hlexeme]
  simp [Scan.Piece.verbatim, variableWord, hchars, hne]

/-- An escaped text ends at the quote behind it and at no other. -/
theorem splitString_escape (text rest : List Char) :
    Scan.splitString (escape text ++ '"' :: rest) = (escape text, some rest) := by
  induction text with
  | nil => cases rest <;> rfl
  | cons c text ih =>
    by_cases hspecial : c = '\\' ∨ c = '"'
    · rw [escape, if_pos hspecial, List.cons_append, List.cons_append, Scan.splitString,
        if_neg (by decide), if_pos rfl, ih]
    · obtain ⟨hslash, hquote⟩ := not_or.1 hspecial
      rw [escape, if_neg hspecial, List.cons_append]
      obtain ⟨d, more, hmore⟩ := List.exists_cons_of_ne_nil
        (show escape text ++ '"' :: rest ≠ [] by simp)
      rw [hmore] at ih ⊢
      rw [Scan.splitString, if_neg hquote, if_neg hslash, ih]

theorem quoted_scannable (text : String) : Scannable (quoted text) := by
  intro rest hrest
  have hlexeme : (quoted text).lexeme = '"' :: (escape text.toList ++ ['"']) := by
    simp [Word.lexeme, quoted]
  refine ⟨'"', escape text.toList ++ ['"'], hlexeme, by decide, by simp, ?_⟩
  have htake (chars : List Char) : Scan.take '"' chars = Scan.takeString chars := rfl
  rw [htake, Scan.takeString, List.append_assoc, List.singleton_append, splitString_escape,
    hlexeme]
  simp [quoted]

theorem keyword_scannable {kind : TokenKind} {text : String} (hkind : Scan.wordKind text = kind)
    (hrun : text.toList ≠ [] ∧ (∀ c ∈ text.toList, Scan.isIdentifierChar c) ∧
      ∀ c ∈ text.toList.head?, Number.isDigit c = false) (hstring : kind ≠ .string) :
    Scannable ⟨kind, text⟩ := by
  subst hkind
  exact run_taken hrun.1 hrun.2.1 hrun.2.2 hstring

theorem wordKind_identifier {name : String} (hname : Identifier name) :
    Scan.wordKind name = .identifier := by
  have hkeywords := hname.2.2.2
  unfold Scan.wordKind
  split <;> first | rfl | simp at hkeywords

theorem name_scannable {name : String} (hname : Identifier name) :
    Scannable (nameWord name) :=
  keyword_scannable (wordKind_identifier hname) ⟨hname.1, hname.2.1, hname.2.2.1⟩ (by decide)

/-! ## Symbols -/

theorem pairKind?_boundary (first : Char) {second : Char} (hsecond : second = ' ' ∨ second = '\n') :
    Scan.pairKind? first second = none := by
  unfold Scan.pairKind?
  split <;> simp at hsecond ⊢

theorem isSymbol_of_singleKind {c : Char} (hkind : Scan.singleKind c ≠ .error .unknownSymbol) :
    Scan.isSymbol c := by
  unfold Scan.singleKind at hkind
  split at hkind <;> simp [Scan.isSymbol] at hkind ⊢

theorem isSymbol_of_pairKind? {c d : Char} {kind : TokenKind}
    (hkind : Scan.pairKind? c d = some kind) : Scan.isSymbol c ∧ c ≠ '/' ∧ kind ≠ .string := by
  unfold Scan.pairKind? at hkind
  split at hkind <;> simp at hkind <;> subst hkind <;> simp [Scan.isSymbol]

/-- A symbol of one character is taken alone if it makes no pair with the next one. -/
theorem single_taken {kind : TokenKind} {c : Char} {rest : List Char}
    (hkind : Scan.singleKind c = kind) (hvalid : kind ≠ .string ∧ kind ≠ .error .unknownSymbol)
    (htext : (spelling kind).toList = [c])
    (hrest : ∀ d ∈ rest.head?, Scan.pairKind? c d = none ∧ (c = '/' → d ≠ '*')) :
    TakenBefore (fixed kind) rest := by
  have hsymbol := isSymbol_of_singleKind (hkind ▸ hvalid.2)
  have hlexeme : (fixed kind).lexeme = [c] := by
    rw [Word.lexeme, if_neg (by exact hvalid.1)]
    exact htext
  refine ⟨c, [], hlexeme, symbol_not_gap hsymbol, ?_, ?_⟩
  · intro hslash hstar
    exact (hrest '*' hstar).2 hslash rfl
  · rw [List.nil_append, Scan.take, if_pos hsymbol, hlexeme]
    have hword : (fixed kind).text.toList = [c] := htext
    cases rest with
    | nil =>
      rw [Scan.takeSymbol, hkind, hword]
      rfl
    | cons d rest =>
      rw [Scan.takeSymbol, (hrest d rfl).1, hkind, hword]
      rfl

theorem single_scannable {kind : TokenKind} (c : Char) (hkind : Scan.singleKind c = kind)
    (htext : (spelling kind).toList = [c])
    (hvalid : kind ≠ .string ∧ kind ≠ .error .unknownSymbol := by decide) :
    Scannable (fixed kind) := by
  intro rest hrest
  refine single_taken hkind hvalid htext fun d hmem => ?_
  refine ⟨pairKind?_boundary c (hrest d hmem), fun _ => ?_⟩
  rintro rfl
  exact absurd (hrest '*' hmem) (by decide)

/-- A newline is a token whatever stands behind it. -/
theorem newline_taken (rest : List Char) : TakenBefore (fixed .newline) rest := by
  have hpair (d : Char) : Scan.pairKind? '\n' d = none := by
    unfold Scan.pairKind?
    split <;> simp_all
  exact single_taken rfl (by decide) rfl fun d _ => ⟨hpair d, fun hslash => nomatch hslash⟩

theorem pair_scannable {kind : TokenKind} (c d : Char) (hkind : Scan.pairKind? c d = some kind)
    (htext : (spelling kind).toList = [c, d]) : Scannable (fixed kind) := by
  intro rest _
  obtain ⟨hsymbol, hslash, hstring⟩ := isSymbol_of_pairKind? hkind
  have hlexeme : (fixed kind).lexeme = [c, d] := by
    rw [Word.lexeme, if_neg (by exact hstring)]
    exact htext
  have hword : (fixed kind).text.toList = [c, d] := htext
  refine ⟨c, [d], hlexeme, symbol_not_gap hsymbol, fun heq => absurd heq hslash, ?_⟩
  rw [Scan.take, if_pos hsymbol, hlexeme, List.singleton_append, Scan.takeSymbol, hkind, hword]
  rfl

/-- Symbols and keywords, which have a spelling of their own. -/
def isFixed : TokenKind → Bool
  | .number | .string | .identifier | .variableName | .eof | .error _ => false
  | _ => true

/-- Every symbol and every keyword is scanned as it is spelled. -/
theorem fixed_scannable {kind : TokenKind} (hkind : isFixed kind) : Scannable (fixed kind) := by
  cases kind with
  | number | string | identifier | variableName | eof | error => exact nomatch hkind
  | trueLiteral | falseLiteral | nullLiteral | ifKeyword | elseKeyword | whileKeyword =>
    exact keyword_scannable rfl (by
      simp [spelling, Scan.isIdentifierChar, Text.isBlank, Scan.isSymbol, Number.isDigit]) (by simp)
  | plus => exact single_scannable '+' rfl rfl
  | minus => exact single_scannable '-' rfl rfl
  | star => exact single_scannable '*' rfl rfl
  | slash => exact single_scannable '/' rfl rfl
  | assign => exact single_scannable '=' rfl rfl
  | equal => exact pair_scannable '=' '=' rfl rfl
  | notEqual => exact pair_scannable '!' '=' rfl rfl
  | greater => exact single_scannable '>' rfl rfl
  | greaterEqual => exact pair_scannable '>' '=' rfl rfl
  | less => exact single_scannable '<' rfl rfl
  | lessEqual => exact pair_scannable '<' '=' rfl rfl
  | logicalAnd => exact pair_scannable '&' '&' rfl rfl
  | logicalOr => exact pair_scannable '|' '|' rfl rfl
  | logicalNot => exact single_scannable '!' rfl rfl
  | colon => exact single_scannable ':' rfl rfl
  | dot => exact single_scannable '.' rfl rfl
  | comma => exact single_scannable ',' rfl rfl
  | leftParen => exact single_scannable '(' rfl rfl
  | rightParen => exact single_scannable ')' rfl rfl
  | leftBracket => exact single_scannable '[' rfl rfl
  | rightBracket => exact single_scannable ']' rfl rfl
  | leftBrace => exact single_scannable '\x7b' rfl rfl
  | rightBrace => exact single_scannable '\x7d' rfl rfl
  | newline => exact fun rest _ => newline_taken rest
  | semicolon => exact single_scannable ';' rfl rfl

/-! ## The token stream of a text -/

/-- At most one blank. -/
def Gap (gap : List Char) : Prop := gap = [] ∨ gap = [' ']

/-- The gap ends in front of a character that neither is blank nor opens a comment. -/
theorem skipGap_cons {first : Char} {following : List Char}
    (hfirst : Scan.isGapChar first = false)
    (hcomment : first = '/' → following.head? ≠ some '*') (position : Position) :
    Scan.skipGap position none (first :: following) = .found position (first :: following) := by
  cases following with
  | nil => simp [Scan.skipGap, hfirst]
  | cons second following =>
    have hopens : ¬ (first = '/' && second = '*') = true := by
      simpa using hcomment
    rw [Scan.skipGap, hfirst, if_neg (by simp), if_neg hopens]

theorem skipGap_gap {gap : List Char} (hgap : Gap gap) {first : Char} {following : List Char}
    (hfirst : Scan.isGapChar first = false)
    (hcomment : first = '/' → following.head? ≠ some '*') (position : Position) :
    Scan.skipGap position none (gap ++ first :: following) =
      .found (position.afterAll gap) (first :: following) := by
  rcases hgap with rfl | rfl
  · exact skipGap_cons hfirst hcomment position
  · exact skipGap_cons hfirst hcomment (position.after ' ')

theorem next?_of_taken {gap rest : List Char} (hgap : Gap gap) {word : Word}
    (htaken : TakenBefore word rest) (position : Position) :
    (⟨gap ++ (word.lexeme ++ rest), position, false⟩ : Cursor).next? =
      some (⟨word.kind, word.text, position.afterAll gap⟩,
        ⟨rest, (position.afterAll gap).afterAll word.lexeme, false⟩) := by
  obtain ⟨first, more, hlexeme, hfirst, hcomment, htake⟩ := htaken
  have hskip := skipGap_gap hgap hfirst hcomment position
  simp only [Cursor.next?, hlexeme, List.cons_append, Bool.false_eq_true, if_false]
  rw [hskip]
  simp only [htake, hlexeme, String.ofList_toList]

theorem next?_at_end {gap : List Char} (hgap : Gap gap) (position : Position) :
    (⟨gap, position, false⟩ : Cursor).next? =
      some (.atEnd (position.afterAll gap), ⟨[], position.afterAll gap, true⟩) := by
  rcases hgap with rfl | rfl
  · rfl
  · rfl

theorem tokens?_at_end {gap : List Char} (hgap : Gap gap) (position : Position) :
    (⟨gap, position, false⟩ : Cursor).tokens? = some [.atEnd (position.afterAll gap)] := by
  rw [Cursor.tokens?_of_next? (next?_at_end hgap position) (by simp [Cursor.size]),
    Cursor.tokens?_of_ended rfl]
  rfl

theorem tokens?_of_taken {gap rest : List Char} (hgap : Gap gap) {word : Word}
    (htaken : TakenBefore word rest) (position : Position) {tokens : List Token}
    (htokens : (⟨rest, (position.afterAll gap).afterAll word.lexeme, false⟩ : Cursor).tokens? =
      some tokens) :
    (⟨gap ++ (word.lexeme ++ rest), position, false⟩ : Cursor).tokens? =
      some (⟨word.kind, word.text, position.afterAll gap⟩ :: tokens) := by
  obtain ⟨first, more, hlexeme, _⟩ := id htaken
  rw [Cursor.tokens?_of_next? (next?_of_taken hgap htaken position)
    (by simp [Cursor.size, hlexeme]; omega), htokens]
  rfl

theorem SetOut.boundary {next : Word} {rest : List Word} {text : List Char}
    (htext : SetOut (next :: rest) text) (hnext : next = fixed .newline) : Boundary text := by
  subst hnext
  have hlexeme : (fixed .newline).lexeme = ['\n'] := rfl
  cases htext with
  | last | spaced | joined =>
    rw [hlexeme]
    exact boundary_cons (.inr rfl) _

def AllScannable (words : List Word) : Prop := ∀ word ∈ words, Scannable word

@[simp]
theorem allScannable_nil : AllScannable [] := fun _ hmem => nomatch hmem

@[simp]
theorem allScannable_cons (word : Word) (rest : List Word) :
    AllScannable (word :: rest) ↔ Scannable word ∧ AllScannable rest :=
  List.forall_mem_cons

@[simp]
theorem allScannable_append (left right : List Word) :
    AllScannable (left ++ right) ↔ AllScannable left ∧ AllScannable right :=
  List.forall_mem_append

/-- Scannable words that are set out are scanned as tokens with these words, and the end. -/
theorem SetOut.tokens? {words : List Word} {text : List Char} (htext : SetOut words text)
    (hwords : AllScannable words) {gap : List Char} (hgap : Gap gap) (position : Position) :
    ∃ tokens final, (⟨gap ++ text, position, false⟩ : Cursor).tokens? =
        some (tokens ++ [.atEnd final]) ∧ tokens.map wordOf = words := by
  induction htext generalizing gap position with
  | nothing =>
    rw [List.append_nil, tokens?_at_end hgap]
    exact ⟨[], _, rfl, rfl⟩
  | last word =>
    have htaken := hwords word (by simp) [] boundary_nil
    have hstream := tokens?_of_taken hgap htaken position (tokens?_at_end (.inl rfl) _)
    rw [List.append_nil] at hstream
    exact ⟨[_], _, hstream, rfl⟩
  | @spaced word next rest text _ ih =>
    have htaken := hwords word (by simp) (' ' :: text) (boundary_cons (.inl rfl) text)
    obtain ⟨tokens, final, htokens, hmap⟩ := ih (fun other hmem => hwords other (by simp [hmem]))
      (.inr rfl) ((position.afterAll gap).afterAll word.lexeme)
    exact ⟨_ :: tokens, final, tokens?_of_taken hgap htaken position htokens,
      by simp [wordOf, hmap]⟩
  | @joined word next rest text hline hrest ih =>
    have htaken : TakenBefore word text := by
      rcases hline with rfl | hnext
      · exact newline_taken text
      · exact hwords word (by simp) text (hrest.boundary hnext)
    obtain ⟨tokens, final, htokens, hmap⟩ := ih (fun other hmem => hwords other (by simp [hmem]))
      (.inl rfl) ((position.afterAll gap).afterAll word.lexeme)
    exact ⟨_ :: tokens, final, tokens?_of_taken hgap htaken position htokens,
      by simp [wordOf, hmap]⟩

/-! ## Words of well-formed scripts -/

theorem storage_identifier : Identifier "storage" := by
  simp [Identifier, Scan.isIdentifierChar, Text.isBlank, Scan.isSymbol, Number.isDigit]

theorem LiteralWritten.scannable {value : Literal} {word : Word}
    (hvalue : LiteralWritten value word) : Scannable word := by
  cases hvalue with
  | null | true | false => exact fixed_scannable rfl
  | number htext => exact number_scannable htext
  | string text => exact quoted_scannable text

theorem operator_scannable (operator : BinaryOperator) :
    Scannable (fixed (operatorKind operator)) := by
  cases operator <;> exact fixed_scannable rfl

theorem unary_scannable (operator : UnaryOperator) : Scannable (fixed (unaryKind operator)) := by
  cases operator <;> exact fixed_scannable rfl

theorem sign_scannable {sign : TokenKind} (hsign : sign = .colon ∨ sign = .assign) :
    Scannable (fixed sign) := by
  rcases hsign with rfl | rfl <;> exact fixed_scannable rfl

mutual

theorem Written.scannable {due : Nat} {value : Expr} {words : List Word} :
    Written due value words → ExprWellFormed value → AllScannable words
  | .bare _ hform => fun hwell => hform.scannable hwell
  | .grouped hinner => fun hwell => by
      simp (disch := decide) [hinner.scannable hwell, fixed_scannable]

/-- All words of an expression are scanned as they are. -/
theorem Form.scannable {value : Expr} {words : List Word} :
    Form value words → ExprWellFormed value → AllScannable words
  | .literal hvalue => fun _ => by simp [hvalue.scannable]
  | .array hitems => fun hwell => by
      simp (disch := decide) [hitems.scannable hwell, fixed_scannable]
  | .map hentries => fun hwell => by
      simp (disch := decide) [hentries.scannable hwell, fixed_scannable]
  | .var _ _ => fun hwell => by simp [variable_scannable hwell]
  | .binary hleft hright => fun hwell => by
      simp [hleft.scannable hwell.1, hright.scannable hwell.2, operator_scannable]
  | .unary hoperand => fun hwell => by simp [hoperand.scannable hwell, unary_scannable]
  | .name _ _ _ => fun hwell => by simp [name_scannable hwell.1]
  | .property htarget => fun hwell => by
      obtain ⟨htargetWell, hname⟩ := wellFormed_property hwell htarget.not_global
      simp (disch := decide) [htarget.scannable htargetWell, fixed_scannable,
        name_scannable hname]
  | .call htarget harguments => fun hwell => by
      simp (disch := decide) [htarget.scannable hwell.1, harguments.scannable hwell.2.1,
        fixed_scannable]
  | .storage _ => fun _ => by simp [name_scannable storage_identifier]

theorem ItemsWritten.scannable {items : List Expr} {words : List Word} :
    ItemsWritten items words → ItemsWellFormed items → AllScannable words
  | .none => fun _ => by simp (disch := decide) [fixed_scannable]
  | .last hitem => fun hwell => by simp (disch := decide) [hitem.scannable hwell.1, fixed_scannable]
  | .next hitem _ hrest => fun hwell => by
      simp (disch := decide) [hitem.scannable hwell.1, hrest.scannable hwell.2, fixed_scannable]

theorem EntriesWritten.scannable {entries : List (String × Expr)} {words : List Word} :
    EntriesWritten entries words → EntriesWellFormed entries → AllScannable words
  | .none => fun _ => by simp (disch := decide) [fixed_scannable]
  | .last hvalue => fun hwell => by
      simp (disch := decide) [hvalue.scannable hwell.1, quoted_scannable, fixed_scannable]
  | .next hvalue _ hrest => fun hwell => by
      simp (disch := decide) [hvalue.scannable hwell.1, hrest.scannable hwell.2, quoted_scannable,
        fixed_scannable]

theorem ArgumentWritten.scannable {argument : Option String × Expr} {words : List Word} :
    ArgumentWritten argument words → (∀ given ∈ argument.1, Identifier given) →
      ExprWellFormed argument.2 → AllScannable words
  | .named hvalue => fun hname hwell => by
      simp (disch := decide) [hvalue.scannable hwell, name_scannable (hname _ rfl), fixed_scannable]
  | .unnamed hvalue => fun _ hwell => hvalue.scannable hwell

theorem ArgumentsWritten.scannable {arguments : List (Option String × Expr)}
    {words : List Word} :
    ArgumentsWritten arguments words → ArgumentsWellFormed arguments → AllScannable words
  | .none => fun _ => by simp (disch := decide) [fixed_scannable]
  | .last hargument => fun hwell => by
      simp (disch := decide) [hargument.scannable hwell.1 hwell.2.1, fixed_scannable]
  | .next hargument _ hrest => fun hwell => by
      simp (disch := decide) [hargument.scannable hwell.1 hwell.2.1, hrest.scannable hwell.2.2,
        fixed_scannable]

end

theorem Breaks.scannable {words : List Word} (hbreaks : Breaks words) : AllScannable words := by
  intro word hmem
  rw [hbreaks word hmem]
  exact fixed_scannable rfl

mutual

/-- All words of a command are scanned as they are. -/
theorem CommandWritten.scannable {command : Command} {words : List Word} :
    CommandWritten command words → CommandWellFormed command → AllScannable words
  | .setVariable hsign hvalue => fun hwell => by
      simp [variable_scannable hwell.1, sign_scannable hsign, hvalue.scannable hwell.2]
  | .setOutput hsign hvalue => fun hwell => by
      simp [name_scannable hwell.1, sign_scannable hsign, hvalue.scannable hwell.2]
  | .evaluate hvalue => fun hwell => hvalue.scannable hwell
  | .ifThen hcondition hthen => fun hwell => by
      simp (disch := decide) [hcondition.scannable hwell.1, hthen.scannable hwell.2.1,
        fixed_scannable]
  | .ifElse hcondition hthen helse => fun hwell => by
      simp (disch := decide) [hcondition.scannable hwell.1, hthen.scannable hwell.2.1,
        helse.scannable hwell.2.2, fixed_scannable]
  | .elseIf hcondition hthen helse => fun hwell => by
      simp (disch := decide) [hcondition.scannable hwell.1, hthen.scannable hwell.2.1,
        helse.scannable hwell.2.2.1, fixed_scannable]
  | .whileLoop hcondition hbody => fun hwell => by
      simp (disch := decide) [hcondition.scannable hwell.1, hbody.scannable hwell.2,
        fixed_scannable]

theorem BlockWritten.scannable {commands : List Command} {words : List Word} :
    BlockWritten commands words → WellFormed commands → AllScannable words
  | .braces hcommands => fun hwell => by
      simp (disch := decide) [hcommands.scannable hwell, fixed_scannable]

theorem CommandsWritten.scannable {commands : List Command} {words : List Word} :
    CommandsWritten commands words → WellFormed commands → AllScannable words
  | .none hbreaks => fun _ => hbreaks.scannable
  | .next hbreaks hcommand _ hrest => fun hwell => by
      simp [hbreaks.scannable, hcommand.scannable hwell.1, hrest.scannable hwell.2]

end

end MetricScript.Rendering
