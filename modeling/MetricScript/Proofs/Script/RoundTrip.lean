import MetricScript.Proofs.Script.CommandReading
import MetricScript.Proofs.Script.Derivation
import MetricScript.Proofs.Script.Layout

/-!
# Parsing undoes rendering

Every well-formed script has renderings, and parsing any of them gives the script back, up
to the places of its nodes: the words of the rendering are scanned one by one, they are a
derivation of the script, and derivations are parsed.
-/

namespace MetricScript.Rendering

/-! ## Every well-formed script can be written -/

theorem written_of_form {value : Expr} {words : List Word} (hform : Form value words)
    (due : Nat) : ∃ words, Written due value words := by
  by_cases hdue : due ≤ strength value
  · exact ⟨words, .bare hdue hform⟩
  · exact ⟨_, .grouped (.bare (Nat.zero_le _) hform)⟩

theorem exists_literalWritten {value : Literal} (hwell : LiteralWellFormed value) :
    ∃ word, LiteralWritten value word := by
  match value, hwell with
  | .null, _ => exact ⟨_, .null⟩
  | .boolean true, _ => exact ⟨_, .true⟩
  | .boolean false, _ => exact ⟨_, .false⟩
  | .number _, ⟨text, htext, hread⟩ => exact ⟨_, .number htext hread⟩
  | .string text, _ => exact ⟨_, .string text⟩

mutual

/-- Every well-formed expression can be written down. -/
theorem exists_form : (value : Expr) → ExprWellFormed value → ∃ words, Form value words
  | .literal place value, hwell => by
      obtain ⟨word, hword⟩ := exists_literalWritten hwell
      exact ⟨_, .literal hword⟩
  | .array place items, hwell => by
      obtain ⟨words, hitems⟩ := exists_itemsWritten items hwell
      exact ⟨_, .array hitems⟩
  | .map place entries, hwell => by
      obtain ⟨words, hentries⟩ := exists_entriesWritten entries hwell
      exact ⟨_, .map hentries⟩
  | .var place name, _ => ⟨_, .var place name⟩
  | .binary place operator left right, hwell => by
      obtain ⟨_, hleft⟩ := exists_form left hwell.1
      obtain ⟨_, hright⟩ := exists_form right hwell.2
      obtain ⟨leftWords, hleft⟩ := written_of_form hleft (precedence operator)
      obtain ⟨rightWords, hright⟩ := written_of_form hright (precedence operator + 1)
      exact ⟨_, .binary hleft hright⟩
  | .unary place operator operand, hwell => by
      obtain ⟨_, hform⟩ := exists_form operand hwell
      obtain ⟨words, hoperand⟩ := written_of_form hform 6
      exact ⟨_, .unary hoperand⟩
  | .property place target name, hwell => by
      cases hglobal : target.isGlobal with
      | true =>
        cases target with
        | global other => exact ⟨_, .name place other name⟩
        | literal | array | map | var | binary | unary | property | call | storage =>
          exact nomatch hglobal
      | false =>
        obtain ⟨_, hform⟩ := exists_form target (wellFormed_property hwell hglobal).1
        obtain ⟨words, htarget⟩ := written_of_form hform 7
        exact ⟨_, .property htarget⟩
  | .call place target arguments, hwell => by
      obtain ⟨_, hform⟩ := exists_form target hwell.1
      obtain ⟨words, htarget⟩ := written_of_form hform 7
      obtain ⟨list, harguments⟩ := exists_argumentsWritten arguments hwell.2.1
      exact ⟨_, .call htarget harguments⟩
  | .global place, hwell => hwell.elim
  | .storage place, _ => ⟨_, .storage place⟩

theorem exists_itemsWritten : (items : List Expr) → ItemsWellFormed items →
    ∃ words, ItemsWritten items words
  | [], _ => ⟨_, .none⟩
  | item :: items, hwell => by
      obtain ⟨_, hform⟩ := exists_form item hwell.1
      obtain ⟨words, hitem⟩ := written_of_form hform 0
      obtain ⟨rest, hrest⟩ := exists_itemsWritten items hwell.2
      by_cases hmore : items = []
      · subst hmore
        exact ⟨_, .last hitem⟩
      · exact ⟨_, .next hitem hmore hrest⟩

theorem exists_entriesWritten : (entries : List (String × Expr)) → EntriesWellFormed entries →
    ∃ words, EntriesWritten entries words
  | [], _ => ⟨_, .none⟩
  | (key, value) :: entries, hwell => by
      obtain ⟨_, hform⟩ := exists_form value hwell.1
      obtain ⟨words, hvalue⟩ := written_of_form hform 0
      obtain ⟨rest, hrest⟩ := exists_entriesWritten entries hwell.2
      by_cases hmore : entries = []
      · subst hmore
        exact ⟨_, .last hvalue⟩
      · exact ⟨_, .next hvalue hmore hrest⟩

theorem exists_argumentsWritten : (arguments : List (Option String × Expr)) →
    ArgumentsWellFormed arguments → ∃ words, ArgumentsWritten arguments words
  | [], _ => ⟨_, .none⟩
  | (name, value) :: arguments, hwell => by
      obtain ⟨_, hform⟩ := exists_form value hwell.2.1
      obtain ⟨words, hvalue⟩ := written_of_form hform 0
      obtain ⟨rest, hrest⟩ := exists_argumentsWritten arguments hwell.2.2
      have hargument : ∃ words, ArgumentWritten (name, value) words := by
        cases name with
        | none => exact ⟨_, .unnamed hvalue⟩
        | some name => exact ⟨_, .named hvalue⟩
      obtain ⟨words, hargument⟩ := hargument
      by_cases hmore : arguments = []
      · subst hmore
        exact ⟨_, .last hargument⟩
      · exact ⟨_, .next hargument hmore hrest⟩

end

theorem exists_written {value : Expr} (hwell : ExprWellFormed value) :
    ∃ words, Written 0 value words := by
  obtain ⟨_, hform⟩ := exists_form value hwell
  exact written_of_form hform 0

mutual

/-- Every well-formed command can be written down. -/
theorem exists_commandWritten : (command : Command) → CommandWellFormed command →
    ∃ words, CommandWritten command words
  | .setVariable name value, hwell => by
      obtain ⟨words, hvalue⟩ := exists_written hwell.2
      exact ⟨_, .setVariable (.inr rfl) hvalue⟩
  | .setOutput name value, hwell => by
      obtain ⟨words, hvalue⟩ := exists_written hwell.2
      exact ⟨_, .setOutput (.inr rfl) hvalue⟩
  | .evaluate value, hwell => by
      obtain ⟨words, hvalue⟩ := exists_written hwell
      exact ⟨_, .evaluate hvalue⟩
  | .ifElse condition thenBranch elseBranch, hwell => by
      obtain ⟨test, hcondition⟩ := exists_written hwell.1
      obtain ⟨block, hthen⟩ := exists_commandsWritten thenBranch hwell.2.1
      obtain ⟨other, helse⟩ := exists_commandsWritten elseBranch hwell.2.2
      exact ⟨_, .ifElse hcondition (.braces hthen.1) (.braces helse.1)⟩
  | .whileLoop condition body, hwell => by
      obtain ⟨test, hcondition⟩ := exists_written hwell.1
      obtain ⟨block, hbody⟩ := exists_commandsWritten body hwell.2
      exact ⟨_, .whileLoop hcondition (.braces hbody.1)⟩

/-- Commands can be written so that a newline comes first, unless there are none. -/
theorem exists_commandsWritten : (commands : List Command) → WellFormed commands →
    ∃ words, CommandsWritten commands words ∧
      (words = [] ∨ words.head? = some (fixed .newline))
  | [], _ => ⟨[], .none (fun _ hmem => nomatch hmem), .inl rfl⟩
  | command :: commands, hwell => by
      obtain ⟨words, hcommand⟩ := exists_commandWritten command hwell.1
      obtain ⟨rest, hrest, hseparated⟩ := exists_commandsWritten commands hwell.2
      exact ⟨[fixed .newline] ++ (words ++ rest),
        .next (by simp [Breaks]) hcommand hseparated hrest, .inr rfl⟩

end

theorem exists_setOut (words : List Word) : ∃ text, SetOut words text := by
  induction words with
  | nil => exact ⟨[], .nothing⟩
  | cons word rest ih =>
    obtain ⟨text, htext⟩ := ih
    cases rest with
    | nil => exact ⟨_, .last word⟩
    | cons next rest => exact ⟨_, .spaced htext⟩

theorem exists_renders {script : Script} (hwell : WellFormed script) :
    ∃ source, Renders script source := by
  obtain ⟨words, hwords, _⟩ := exists_commandsWritten script hwell
  obtain ⟨text, htext⟩ := exists_setOut words
  exact ⟨String.ofList text, words, hwords, by rwa [String.toList_ofList]⟩

/-! ## Renderings are parsed -/

theorem tokens?_of_renders {script : Script} {source : String} (hwell : WellFormed script)
    (hrenders : Renders script source) :
    ∃ tokens parsed, tokens? source = some tokens ∧ Grammar.Script tokens parsed ∧
      Command.unplacedAll parsed = Command.unplacedAll script := by
  obtain ⟨words, hwords, htext⟩ := hrenders
  obtain ⟨tokens, final, hstream, hmap⟩ :=
    htext.tokens? (hwords.scannable hwell) (.inl rfl) .start
  obtain ⟨parsed, hparsed, hsame⟩ := hwords.derives hwell tokens hmap
  exact ⟨_, parsed, hstream, .commands hparsed rfl, hsame⟩

theorem parse_of_tokens {source : String} {tokens : List Token} {parsed : Script}
    (htokens : tokens? source = some tokens) (hscript : Grammar.Script tokens parsed) :
    parse source = .script parsed := by
  simp only [parse, htokens, hscript.parses]

/-- A rendering parses back to its script, up to positions. -/
theorem parse_of_renders {script : Script} {source : String} (hwell : WellFormed script)
    (hrenders : Renders script source) :
    ∃ parsed, parse source = .script parsed ∧
      Command.unplacedAll parsed = Command.unplacedAll script := by
  obtain ⟨tokens, parsed, htokens, hscript, hsame⟩ := tokens?_of_renders hwell hrenders
  exact ⟨parsed, parse_of_tokens htokens hscript, hsame⟩

/-- A well-formed script can be rendered, and every rendering of it is parsed as that
script. -/
theorem parse_undoes_render {script : Script} (hwell : WellFormed script) :
    (∃ source, Renders script source) ∧
      ∀ source, Renders script source →
        ∃ parsed, parse source = .script parsed ∧
          Command.unplacedAll parsed = Command.unplacedAll script :=
  ⟨exists_renders hwell, fun _ hrenders => parse_of_renders hwell hrenders⟩

/-- A difference of differences: the right one needs its parentheses, and the string in it
its escapes. -/
def nestedDifference : Script :=
  [.setOutput "out" (.binary .start .subtract (.var .start "$a")
    (.binary .start .subtract (.var .start "$b") (.literal .start (.string "\""))))]

theorem nestedDifference_wellFormed : WellFormed nestedDifference := by
  have hname : Identifier "out" := by
    simp [Identifier, Scan.isIdentifierChar, Text.isBlank, Scan.isSymbol, Number.isDigit]
  have hleft : VariableName "$a" :=
    ⟨['a'], rfl, by simp, by simp [Scan.isIdentifierChar, Text.isBlank, Scan.isSymbol]⟩
  have hright : VariableName "$b" :=
    ⟨['b'], rfl, by simp, by simp [Scan.isIdentifierChar, Text.isBlank, Scan.isSymbol]⟩
  exact ⟨⟨hname, hleft, hright, trivial⟩, trivial⟩

/-- One way to write the difference down, with more blanks than it needs. -/
theorem nestedDifference_renders :
    Renders nestedDifference "out = $a - ( $b - \"\\\"\" )" := by
  have hinner : Form (.binary .start .subtract (.var .start "$b")
      (.literal .start (.string "\""))) [variableWord "$b", fixed .minus, quoted "\""] :=
    .binary (.bare (by decide) (.var .start "$b")) (.bare (by decide) (.literal (.string "\"")))
  have houter : Form (.binary .start .subtract (.var .start "$a") (.binary .start .subtract
      (.var .start "$b") (.literal .start (.string "\""))))
      ([variableWord "$a"] ++ fixed .minus :: fixed .leftParen ::
        ([variableWord "$b", fixed .minus, quoted "\""] ++ [fixed .rightParen])) :=
    .binary (.bare (by decide) (.var .start "$a")) (.grouped (.bare (by decide) hinner))
  have hcommands : CommandsWritten nestedDifference
      ([] ++ ((nameWord "out" :: fixed .assign :: _) ++ [])) :=
    .next (by simp [Breaks]) (.setOutput (.inr rfl) (.bare (by decide) houter)) (.inl rfl)
      (.none (by simp [Breaks]))
  have htext : SetOut [nameWord "out", fixed .assign, variableWord "$a", fixed .minus,
      fixed .leftParen, variableWord "$b", fixed .minus, quoted "\"", fixed .rightParen] _ :=
    .spaced (.spaced (.spaced (.spaced (.spaced (.spaced (.spaced (.spaced (.last _))))))))
  exact ⟨_, hcommands, htext⟩

theorem parse_undoes_render_nestedDifference :
    WellFormed nestedDifference ∧ Renders nestedDifference "out = $a - ( $b - \"\\\"\" )" ∧
      ∃ parsed, parse "out = $a - ( $b - \"\\\"\" )" = .script parsed ∧
        Command.unplacedAll parsed = Command.unplacedAll nestedDifference :=
  ⟨nestedDifference_wellFormed, nestedDifference_renders,
    (parse_undoes_render nestedDifference_wellFormed).2 _ nestedDifference_renders⟩

end MetricScript.Rendering
