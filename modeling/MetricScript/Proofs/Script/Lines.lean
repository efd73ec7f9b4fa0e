import Mathlib
import MetricScript.Proofs.Script.CommandReading
import MetricScript.Proofs.Script.Loops
import MetricScript.Proofs.Script.Places
import MetricScript.Proofs.Script.Settled
import MetricScript.Proofs.Script.Soundness

/-!
# Parsing line by line

A script and a text below it are scanned and parsed as each of them alone, the text so many lines
further down.  The script has no open string or comment at its end, its last expression cannot go
on over a newline, and its last conditional can only go on with `else`; so nothing that was decided
at the end of the script is decided otherwise when more lines follow that do not begin with `else`.
-/

namespace MetricScript

open Scan

/-! ## Scanning further down -/

namespace Position

def down (lines : Nat) (position : Position) : Position := ⟨position.line + lines, position.column⟩

theorem after_down (lines : Nat) (position : Position) (c : Char) :
    (position.down lines).after c = (position.after c).down lines := by
  by_cases hc : c = '\n'
  · simp [after, down, hc, Nat.add_right_comm]
  · simp [after, down, hc]

theorem afterAll_down (lines : Nat) (position : Position) (text : List Char) :
    (position.down lines).afterAll text = (position.afterAll text).down lines := by
  induction text generalizing position with
  | nil => rfl
  | cons c text ih =>
    calc (position.down lines).afterAll (c :: text)
        = ((position.down lines).after c).afterAll text := rfl
      _ = ((position.after c).down lines).afterAll text := by rw [after_down]
      _ = (position.afterAll (c :: text)).down lines := ih (position.after c)

/-- Behind a newline a text begins below all lines before it. -/
theorem afterAll_line (text : List Char) :
    start.afterAll (text ++ ['\n']) = start.down (1 + text.count '\n') := by
  rw [afterAll_start]
  simp [start, down]
  omega

end Position

theorem Tile.placed_down (lines : Nat) (start : Position) (tiles : List Tile) :
    placed (start.down lines) tiles =
      (placed start tiles).map (Token.moved (Position.down lines)) := by
  induction tiles generalizing start with
  | nil => rfl
  | cons tile behind ih =>
    rw [placed, placed, Position.afterAll_down, Position.afterAll_down, ih]
    rfl

theorem not_unbounded_of_valid {kind : TokenKind} (hvalid : Grammar.isValid kind) :
    ¬ Unbounded kind := by
  intro hopen
  simp only [Unbounded, List.mem_cons, List.not_mem_nil, or_false] at hopen
  rcases hopen with rfl | rfl | rfl <;> cases hvalid

/-- Behind tokens that have an end, the newline where the script would end and the tokens of the
text below are scanned. -/
theorem tokens?_above {first second : String} {own tokens : List Token} {final : Token}
    (hfirst : tokens? first = some (own ++ [final]))
    (hbounded : ∀ token ∈ own, ¬ Unbounded token.kind) (hfinal : final.kind = .eof)
    (hsecond : tokens? second = some tokens) :
    ∃ newline : Token, newline.kind = .newline ∧ newline.position = final.position ∧
      tokens? (first ++ "\n" ++ second) = some (own ++ newline ::
        tokens.map (Token.moved (Position.down (1 + first.toList.count '\n')))) := by
  obtain ⟨upper, hupper, hlaid, hown, htext⟩ := tokens?_settled hfirst
  obtain ⟨lower, hlower, hbelow, rfl, hrest⟩ := tokens?_settled hsecond
  obtain ⟨left, right, rfl, rfl, hright⟩ := List.map_eq_append_iff.1 hown
  obtain ⟨last, rfl, rfl⟩ := List.map_eq_singleton_iff.1 hright
  have hlast := hlaid left last [] rfl
  have htext : first.toList = Tile.textOf left ++ last.gap := by
    rw [htext, Tile.textOf_append, Tile.textOf_cons, hlast.lexeme_of_eof hfinal]
    simp [Tile.textOf]
  -- The gap before the end of the script stands before the newline now.
  let line : Tile := ⟨last.gap, ⟨.newline, "\n", .start⟩⟩
  have hline : line.token.lexeme = ['\n'] := by simp [line, Token.lexeme, lexemeOf]
  have hsource : (first ++ "\n" ++ second).toList = Tile.textOf (left ++ line :: lower) := by
    rw [String.toList_append, String.toList_append, htext, hrest, Tile.textOf_append,
      Tile.textOf_cons, hline]
    simp [line]
  have hsettled : Tile.Settled (left ++ line :: lower) := by
    refine hupper.replace (fun tile hmem => ?_)
      (.next hlast.gap ?_ (Tile.reads_newline _) hlower) ?_
    · exact hbounded tile.token (List.mem_map_of_mem hmem)
    · simp [line]
    · rw [Tile.textOf_cons, Tile.textOf_cons, hline]
      exact Tile.head?_separated separates_newline _ _ _
  have hbehind : (Position.start.afterAll (Tile.textOf left)).afterAll line.text =
      Position.start.down (1 + first.toList.count '\n') := by
    rw [← Position.afterAll_append, ← Position.afterAll_line, htext, Tile.text, hline]
    simp [line]
  refine ⟨line.token.moved fun _ => (Position.start.afterAll (Tile.textOf left)).afterAll last.gap,
    rfl, ?_, ?_⟩
  · rw [hlast.position, Position.afterAll_append]
    rfl
  · rw [tokens?_of_settled hsettled hsource, Tile.placed_append, hlaid.placed_left, Tile.placed,
      hbehind, Tile.placed_down, hbelow.placed]
    rfl

/-- Behind valid tokens a newline and the tokens of the text below are scanned. -/
theorem tokens?_lines {first second : String} {own tokens : List Token} {final : Token}
    (hfirst : tokens? first = some (own ++ [final])) (hvalid : Grammar.AllValid own)
    (hfinal : final.kind = .eof) (hsecond : tokens? second = some tokens) :
    ∃ newline : Token, newline.kind = .newline ∧
      tokens? (first ++ "\n" ++ second) = some (own ++ newline ::
        tokens.map (Token.moved (Position.down (1 + first.toList.count '\n')))) := by
  obtain ⟨newline, hnewline, -, hlines⟩ := tokens?_above hfirst
    (fun token htoken => not_unbounded_of_valid (hvalid token htoken)) hfinal hsecond
  exact ⟨newline, hnewline, hlines⟩

/-! ## Reading on -/

namespace Report

variable {α β : Type}

/-- A chain reads on from where its first part left off. -/
theorem bind_congr {first second : Report β} {tokens tokens' : List Token}
    (hfirst : first tokens = second tokens') (next : β → Report α) :
    (first >>= next) tokens = (second >>= next) tokens' := by
  simp only [bind, hfirst]

end Report

namespace Grammar

/-- A script skips the terminators in front of it. -/
theorem scriptCommands_terminators {ends : List Token} (hends : Terminators ends) (depth : Nat)
    (rest : List Token) :
    Parse.scriptCommands depth (ends ++ rest) = Parse.scriptCommands depth rest := by
  cases depth with
  | zero => rfl
  | succ depth =>
    have hdrop : (ends ++ rest).dropWhile (·.kind.isTerminator) =
        rest.dropWhile (·.kind.isTerminator) := List.dropWhile_append_of_pos hends
    rw [Parse.scriptCommands, Report.skipTerminators_bind, Report.skipTerminators_bind, hdrop]

/-- The commands of a script are read before whatever ends them, and reading goes on with what
follows; each of them costs one step of the depth. -/
theorem Commands.scriptGoesOn {own rest : List Token} {commands : List Command}
    (hown : Commands own commands) (hends : EndsCommand (nextToken rest).kind)
    (helse : NoElse rest) {depth : Nat} (hdepth : 16 * own.length + 11 ≤ depth) :
    ∃ less, depth ≤ less + own.length ∧
      Parse.scriptCommands depth (own ++ rest) =
        ((commands ++ ·) <$> Parse.scriptCommands less) rest := by
  -- One command and the ones behind it; what is behind is shorter.
  induction hlength : own.length using Nat.strong_induction_on
    generalizing own commands depth with
  | _ length ih =>
    subst hlength
    have hcons {ends mine others : List Token} {command : Command} {more : List Command}
        (hterminators : Terminators ends) (hothers : Commands others more) (hne : mine ≠ [])
        (hbegins : beginsCommand (nextToken mine).kind)
        (hown : ends ++ (mine ++ others) = own)
        (hread : ∀ depth, 16 * mine.length + 10 ≤ depth →
          Parse.command depth (mine ++ (others ++ rest)) = ([], .done command (others ++ rest))) :
        ∃ less, depth ≤ less + own.length ∧ Parse.scriptCommands depth (own ++ rest) =
          ((command :: more ++ ·) <$> Parse.scriptCommands less) rest := by
      subst hown
      simp only [List.length_append] at hdepth ih ⊢
      obtain ⟨depth, rfl⟩ := Nat.exists_eq_succ_of_ne_zero (show depth ≠ 0 by omega)
      have hlength := List.length_pos_of_ne_nil hne
      obtain ⟨less, hless, hmore⟩ :=
        @ih others.length (by omega) others more hothers depth (by omega) rfl
      refine ⟨less, by omega, ?_⟩
      simp only [List.append_assoc]
      rw [scriptCommands_step hterminators hne hbegins (hread depth (by omega)),
        Report.bind_congr hmore]
      simp only [bind_pure_comp, Functor.map_map, List.cons_append]
    cases hown with
    | none hterminators =>
      refine ⟨depth, Nat.le_add_right _ _, ?_⟩
      rw [scriptCommands_terminators hterminators]
      exact (congrFun (id_map (Parse.scriptCommands depth)) rest).symm
    | simple hterminators hcommand hseparated hothers =>
      exact hcons hterminators hothers hcommand.begins.1 hcommand.begins.2 rfl fun depth hdepth =>
        hcommand.reports depth _ hdepth (hseparated.ends hends)
    | compound hterminators hcommand hothers =>
      exact hcons hterminators hothers hcommand.begins.1 hcommand.begins.2 rfl fun depth hdepth =>
        hcommand.reports depth _ hdepth (hothers.noElse helse)

end Grammar

/-! ## Scripts below each other -/

/-- What comes of parsing more below some commands. -/
def Parsed.below (commands : Script) : Parsed → Parsed
  | .script more => .script (commands ++ more)
  | other => other

/-- Commands read before are put in front of the script, and messages stay. -/
theorem Parsed.ofReport_append (commands : Script) (report : Report Script) (tokens : List Token) :
    Parsed.ofReport (((commands ++ ·) <$> report) tokens) =
      (Parsed.ofReport (report tokens)).below commands := by
  rw [map_eq_pure_bind]
  simp only [bind]
  rcases report tokens with ⟨errors, ⟨value, rest⟩ | ⟨error, rest⟩ | _⟩
  · change Parsed.ofReport (errors ++ [], .done (commands ++ value) rest) = _
    rw [List.append_nil]
    cases errors <;> rfl
  · cases errors <;> rfl
  · cases errors <;> rfl

theorem noElse_moved {move : Position → Position} {tokens : List Token}
    (htokens : Grammar.NoElse tokens) : Grammar.NoElse (tokens.map (Token.moved move)) := by
  have hdrop : (tokens.map (Token.moved move)).dropWhile (·.kind = .newline) =
      (tokens.dropWhile (·.kind = .newline)).map (Token.moved move) := List.dropWhile_map ..
  rwa [Grammar.NoElse, hdrop, kind_nextToken_moved]

/-- The tokens of a script, a newline and moved tokens are parsed one after the other. -/
theorem parseTokens_below {own tokens : List Token} {commands : Script} {newline : Token}
    (hown : Grammar.Commands own commands) (hnewline : newline.kind = .newline)
    (htokens : Closed tokens) (helse : Grammar.NoElse tokens) (move : Position → Position) :
    parseTokens (own ++ newline :: tokens.map (Token.moved move)) =
      ((parseTokens tokens).moved move).below commands := by
  have hline : Grammar.Terminators [newline] := by
    simp [Grammar.Terminators, hnewline, TokenKind.isTerminator]
  have hends : Grammar.EndsCommand (nextToken (newline :: tokens.map (Token.moved move))).kind :=
    .inl (hline newline (by simp))
  have henough : 16 * own.length + 11 ≤
      Parse.depthFor (own ++ newline :: tokens.map (Token.moved move)) := by
    simp only [Parse.depthFor, List.length_append, List.length_cons]
    omega
  obtain ⟨less, hless, hread⟩ :=
    hown.scriptGoesOn hends (hline.noElse (noElse_moved helse)) henough
  have hdepth : Parse.depthFor tokens ≤ less := by
    simp only [Parse.depthFor, List.length_append, List.length_cons, List.length_map] at hless ⊢
    omega
  calc parseTokens (own ++ newline :: tokens.map (Token.moved move))
      = .ofReport (((commands ++ ·) <$> Parse.scriptCommands less)
          (newline :: tokens.map (Token.moved move))) := by rw [parseTokens_eq, hread]
    _ = (Parsed.ofReport (Parse.scriptCommands less
          ([newline] ++ tokens.map (Token.moved move)))).below commands :=
        Parsed.ofReport_append ..
    _ = ((parseTokens tokens).moved move).below commands := by
        rw [Grammar.scriptCommands_terminators hline, Parse.scriptCommands_moved htokens hdepth]

/-- **Parsing goes line by line.**  Below a script that parses, a text that does not begin with
`else`, not even after newlines, is parsed as it is alone, so many lines further down: its commands
follow those of the script, or its messages are the only ones. -/
theorem parse_lines {first second : String} {commands : Script} {tokens : List Token}
    (hfirst : parse first = .script commands) (hsecond : tokens? second = some tokens)
    (helse : Grammar.NoElse tokens) :
    let down := Position.down (1 + first.toList.count '\n')
    (∀ more, parse second = .script more →
      parse (first ++ "\n" ++ second) = .script (commands ++ more.map (Command.moved down))) ∧
    (∀ errors, parse second = .errors errors →
      parse (first ++ "\n" ++ second) = .errors (errors.map (SyntaxError.moved down))) := by
  intro down
  obtain ⟨own, final, htokens, hfinal, hown⟩ := Grammar.commands_of_parse hfirst
  obtain ⟨newline, hnewline, hlines⟩ := tokens?_lines htokens hown.allValid hfinal hsecond
  have hclosed : Closed tokens := by
    obtain ⟨before, last, rfl, hlast, -⟩ := Cursor.tokens?_eq_append_eof hsecond rfl
    exact closed_append_eof before hlast
  have hparse : parse (first ++ "\n" ++ second) =
      ((parse second).moved down).below commands := by
    rw [parse, hlines, parse, hsecond]
    exact parseTokens_below hown hnewline hclosed helse down
  refine ⟨fun more hmore => ?_, fun errors herrors => ?_⟩
  · rw [hparse, hmore, Parsed.moved, Command.movedAll_eq_map]
    rfl
  · rw [hparse, herrors]
    rfl

/-- A conditional on the first line, and a line that does not begin with `else`. -/
theorem parse_lines_conditional :
    parse "if $a \x7b\x7d" = .script [.ifElse (.var ⟨1, 4⟩ "$a") [] []] ∧
      tokens? "$b" = some [⟨.variableName, "$b", ⟨1, 1⟩⟩, ⟨.eof, "", ⟨1, 3⟩⟩] ∧
      Grammar.NoElse [⟨.variableName, "$b", ⟨1, 1⟩⟩, ⟨.eof, "", ⟨1, 3⟩⟩] ∧
      parse ("if $a \x7b\x7d" ++ "\n" ++ "$b") =
        .script [.ifElse (.var ⟨1, 4⟩ "$a") [] [], .evaluate (.var ⟨2, 1⟩ "$b")] := by
  have hfirst : parse "if $a \x7b\x7d" = .script [.ifElse (.var ⟨1, 4⟩ "$a") [] []] := by
    have htokens : tokens? "if $a \x7b\x7d" =
        some [⟨.ifKeyword, "if", ⟨1, 1⟩⟩, ⟨.variableName, "$a", ⟨1, 4⟩⟩,
          ⟨.leftBrace, "\x7b", ⟨1, 7⟩⟩, ⟨.rightBrace, "\x7d", ⟨1, 8⟩⟩, ⟨.eof, "", ⟨1, 9⟩⟩] :=
      tokens?_of_firstTokens rfl
    rw [parse, htokens]
    rfl
  have hsecond : tokens? "$b" = some [⟨.variableName, "$b", ⟨1, 1⟩⟩, ⟨.eof, "", ⟨1, 3⟩⟩] :=
    tokens?_of_firstTokens rfl
  have hmore : parse "$b" = .script [.evaluate (.var ⟨1, 1⟩ "$b")] := by
    rw [parse, hsecond]
    rfl
  have helse : Grammar.NoElse [⟨.variableName, "$b", ⟨1, 1⟩⟩, ⟨.eof, "", ⟨1, 3⟩⟩] :=
    Grammar.noElse_of_kind (by simp) (by simp)
  exact ⟨hfirst, hsecond, helse, (parse_lines hfirst hsecond helse).1 _ hmore⟩

end MetricScript
