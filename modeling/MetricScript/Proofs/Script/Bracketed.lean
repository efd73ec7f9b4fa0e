import Mathlib
import MetricScript.Proofs.Script.Breaking
import MetricScript.Proofs.Script.Lines
import MetricScript.Proofs.Script.Spacing

/-!
# Newlines within brackets of a source

A newline that is put between two tokens of a source, directly within a bracket of an expression, is
a token of its own and leaves the other tokens as they are.  So the source parses to the same script
where the grammar skips newlines, and not at all where it does not.
-/

namespace MetricScript

open Scan
open Rendering (wordOf)
open Nesting (Within)

namespace Tile

/-- What is behind some tiles of a settled list is settled. -/
theorem Settled.of_append {left right : List Tile} (hsettled : Settled (left ++ right))
    (hleft : ∀ tile ∈ left, tile.token.kind ≠ .eof) : Settled right := by
  induction left with
  | nil => exact hsettled
  | cons tile left ih =>
    obtain ⟨hkind, hmore⟩ := List.forall_mem_cons.1 hleft
    exact ih (hsettled.of_cons hkind).2.2 hmore

/-- A tile on a new line, the newline somewhere in its gap. -/
def onNewLine (front back : List Char) (tile : Tile) : List Tile :=
  [⟨front, ⟨.newline, "\n", .start⟩⟩, { tile with gap := back }]

theorem textOf_onNewLine (front back : List Char) (tile : Tile) :
    textOf (onNewLine front back tile) = front ++ '\n' :: (back ++ tile.token.lexeme) := by
  have hline : (⟨.newline, "\n", .start⟩ : Token).lexeme = ['\n'] := by
    simp [Token.lexeme, lexemeOf]
  rw [onNewLine, textOf_cons, textOf_cons, hline]
  simp [textOf]

/-- Tiles stay settled with one of them on a new line. -/
theorem Settled.onNewLine {left right : List Tile} {next : Tile} {front back : List Char}
    (hsettled : Settled (left ++ next :: right))
    (hleft : ∀ tile ∈ left, Grammar.isValid tile.token.kind)
    (hnext : Grammar.isValid next.token.kind) (hgap : next.gap = front ++ back)
    (hfront : Gap front) (hback : Gap back) :
    Settled (left ++ (Tile.onNewLine front back next ++ right)) := by
  have heof {tile : Tile} (hvalid : Grammar.isValid tile.token.kind) : tile.token.kind ≠ .eof :=
    fun hkind => by rw [hkind] at hvalid; cases hvalid
  obtain ⟨-, hreads, hright⟩ :=
    (hsettled.of_append fun tile hmem => heof (hleft tile hmem)).of_cons (heof hnext)
  refine hsettled.replace (fun tile hmem => not_unbounded_of_valid (hleft tile hmem))
    (.next hfront (by simp) (reads_newline _) (.next hback (heof hnext) hreads hright)) ?_
  rw [textOf_append, textOf_onNewLine, textOf_cons, hgap]
  simpa using head?_separated separates_newline front (back ++ next.token.lexeme ++ textOf right)
    (back ++ (next.token.lexeme ++ textOf right))

/-- The tokens before the new line stay, and those behind it are the same words. -/
theorem placed_onNewLine {left right : List Tile} {next : Tile}
    (hlaid : AllLaid .start (left ++ next :: right)) (front back : List Char) :
    ∃ line moved behind, placed .start (left ++ (onNewLine front back next ++ right)) =
        left.map Tile.token ++ line :: moved :: behind ∧ line.kind = .newline ∧
      wordOf moved = wordOf next.token ∧
      behind.map wordOf = (right.map Tile.token).map wordOf := by
  rw [placed_append, hlaid.placed_left]
  refine ⟨_, _, _, rfl, rfl, rfl, ?_⟩
  rw [map_wordOf_placed, List.map_map]
  rfl

end Tile

namespace Grammar

/-- Behind the tokens of a script no bracket is open, so a bracket that is open closes before the
end. -/
theorem Commands.split_within {own left right : List Token} {final next : Token}
    {commands : List Command} (hcommands : Commands own commands)
    (hsplit : own ++ [final] = left ++ next :: right) {bracket : Bracket}
    (hwithin : Within (Nesting.start.after left).opened bracket) :
    ∃ more, right = more ++ [final] ∧ own = left ++ next :: more := by
  rcases List.eq_nil_or_concat' right with rfl | ⟨more, last, rfl⟩
  · obtain rfl := List.append_inj_left' hsplit rfl
    have hafter : Nesting.start.after own = Nesting.start :=
      hcommands.after Nesting.unbracketed_start
    rw [hafter] at hwithin
    exact absurd hwithin (Nesting.not_within Nesting.unbracketed_start bracket)
  · rw [← List.cons_append, ← List.append_assoc] at hsplit
    obtain ⟨rfl, hfinal⟩ := List.append_inj' hsplit rfl
    exact ⟨more, by rw [List.singleton_inj.1 hfinal], rfl⟩

end Grammar

/-- Where newlines are skipped, a source with one more newline parses to the same commands. -/
theorem parse_skipped {left more behind : List Token} {line next moved final : Token}
    {commands : Script} (hown : Grammar.Commands (left ++ next :: more) commands)
    (hfinal : final.kind = .eof) (hline : line.kind = .newline)
    (hskips : (Nesting.start.after left).Skips (Grammar.lastKind .newline left) next.kind)
    (hnext : wordOf moved = wordOf next)
    (hbehind : behind.map wordOf = (more ++ [final]).map wordOf) {source : String}
    (hscanned : tokens? source = some (left ++ line :: moved :: behind)) :
    ∃ found, parse source = .script found ∧
      Command.unplacedAll found = Command.unplacedAll commands := by
  have hcommands := hown.broken hline Nesting.unbracketed_start (.of_split hskips)
  refine parse_of_words hcommands hfinal hscanned ?_
  simp [hnext, hbehind]

/-- Where newlines are not skipped within a bracket, a source with a newline does not parse. -/
theorem parse_refused {left behind : List Token} {line moved : Token}
    (hline : line.kind = .newline) {bracket : Bracket}
    (hwithin : Within (Nesting.start.after left).opened bracket)
    (hbreaks : ¬ bracket.Breaks (Grammar.lastKind .newline left) moved.kind) {source : String}
    (hscanned : tokens? source = some (left ++ line :: moved :: behind)) :
    ∃ errors, parse source = .errors errors := by
  have hparse : parse source = parseTokens (left ++ line :: moved :: behind) := by
    rw [parse, hscanned]
  rcases parseTokens_cases (left ++ line :: moved :: behind) with
    ⟨commands, hcommands⟩ | ⟨errors, herrors, -⟩
  · obtain ⟨own, final, htokens, -, hown⟩ := Grammar.commands_of_parse (hparse.trans hcommands)
    have hsplit : own ++ [final] = (left ++ [line]) ++ moved :: behind := by
      rw [← Option.some.inj (hscanned.symm.trans htokens)]
      simp
    have hbelow : Within (Nesting.start.after (left ++ [line])).opened bracket := by
      rw [Nesting.after_append, Nesting.after_cons, hline]
      exact hwithin
    obtain ⟨more, -, rfl⟩ := hown.split_within hsplit hbelow
    rw [← List.append_cons] at hown
    exact absurd (hown.breaks hline hwithin .newline .eof) hbreaks
  · exact ⟨errors, hparse.trans herrors⟩

/-- **Where a newline may stand within brackets.**  A source that parses is its tiles one after the
other.  Between any two of its tokens that stand directly within a bracket of an expression, a
newline leaves the script as it is, up to places, if newlines are skipped between such neighbours in
such a bracket; if not, the source no longer parses. -/
theorem parse_onNewLine {source : String} {commands : Script}
    (hparse : parse source = .script commands) :
    ∃ tiles : List Tile, tokens? source = some (tiles.map Tile.token) ∧
      source.toList = Tile.textOf tiles ∧ Tile.AllLaid .start tiles ∧
      ∀ {left right : List Tile} {tile next : Tile} {front back : List Char} {bracket : Bracket},
        tiles = left ++ tile :: next :: right → next.gap = front ++ back → Gap front → Gap back →
        Within (Nesting.start.after ((left ++ [tile]).map Tile.token)).opened bracket →
        let broken := String.ofList (Tile.textOf (left ++ [tile]) ++
          (front ++ '\n' :: (back ++ next.token.lexeme)) ++ Tile.textOf right)
        if bracket.Breaks tile.token.kind next.token.kind then
          ∃ moved, parse broken = .script moved ∧
            Command.unplacedAll moved = Command.unplacedAll commands
        else ∃ errors, parse broken = .errors errors := by
  obtain ⟨own, final, htokens, hfinal, hown⟩ := Grammar.commands_of_parse hparse
  obtain ⟨tiles, hsettled, hlaid, hmap, htext⟩ := tokens?_settled htokens
  refine ⟨tiles, hmap ▸ htokens, htext, hlaid, ?_⟩
  intro left right tile next front back bracket hsplit hgap hfront hback hwithin broken
  subst hsplit
  let tokens := (left ++ [tile]).map Tile.token
  have hmap : own ++ [final] = tokens ++ next.token :: right.map Tile.token := by
    rw [← hmap]
    simp [tokens]
  obtain ⟨more, hmore, rfl⟩ := hown.split_within hmap hwithin
  have hlast : Grammar.lastKind .newline tokens = tile.token.kind := by simp [tokens]
  have hvalid := hown.allValid
  -- The text with the newline is settled tiles again, those before the newline at their places.
  have hbroken : broken.toList =
      Tile.textOf ((left ++ [tile]) ++ (Tile.onNewLine front back next ++ right)) := by
    simp only [broken, String.toList_ofList, Tile.textOf_append, Tile.textOf_onNewLine,
      List.append_assoc]
  rw [List.append_cons] at hsettled hlaid
  have hsettled := hsettled.onNewLine
    (fun other hmem => hvalid _ (List.mem_append_left _ (List.mem_map_of_mem hmem)))
    (hvalid _ (by simp)) hgap hfront hback
  obtain ⟨line, moved, behind, hplaced, hline, hnext, hbehind⟩ :=
    Tile.placed_onNewLine hlaid front back
  have hscanned : tokens? broken = some (tokens ++ line :: moved :: behind) :=
    hplaced ▸ tokens?_of_settled hsettled hbroken
  split
  · next hbreaks =>
    exact parse_skipped hown hfinal hline ⟨bracket, hwithin, hlast ▸ hbreaks⟩ hnext
      (hmore ▸ hbehind) hscanned
  · next hbreaks =>
    have hkind : moved.kind = next.token.kind := congrArg Rendering.Word.kind hnext
    exact parse_refused hline hwithin (by rwa [hlast, hkind]) hscanned

/-- A newline behind an opening parenthesis does not change the script. -/
theorem parse_onNewLine_group :
    parse "($a)" = .script [.evaluate (.var ⟨1, 1⟩ "$a")] ∧
      ∃ moved, parse "(\n$a)" = .script moved ∧
        Command.unplacedAll moved = Command.unplacedAll [.evaluate (.var ⟨1, 1⟩ "$a")] := by
  have hscanned : tokens? "($a)" = some [⟨.leftParen, "(", ⟨1, 1⟩⟩, ⟨.variableName, "$a", ⟨1, 2⟩⟩,
      ⟨.rightParen, ")", ⟨1, 4⟩⟩, ⟨.eof, "", ⟨1, 5⟩⟩] :=
    tokens?_of_firstTokens rfl
  have hparse : parse "($a)" = .script [.evaluate (.var ⟨1, 1⟩ "$a")] := by
    rw [parse, hscanned]
    rfl
  refine ⟨hparse, ?_⟩
  obtain ⟨tiles, htokens, htext, -, hbroken⟩ := parse_onNewLine hparse
  have hmap := Option.some.inj (htokens.symm.trans hscanned)
  simp only [List.map_eq_cons_iff, List.map_eq_nil_iff] at hmap
  obtain ⟨opening, _, rfl, hopening, operand, _, rfl, hoperand, closing, _, rfl, hclosing, last, _,
    rfl, hlast, rfl⟩ := hmap
  -- The lexemes take up the whole text, so there are no gaps.
  have hlength := congrArg List.length htext
  simp [Tile.textOf, Tile.text, hopening, hoperand, hclosing, hlast, Token.lexeme, lexemeOf]
    at hlength
  have hgap : operand.gap = [] ∧ opening.gap = [] ∧ closing.gap = [] ∧ last.gap = [] := by
    simp only [← List.length_eq_zero_iff]
    omega
  obtain ⟨hoperandGap, hopeningGap, hclosingGap, hlastGap⟩ := hgap
  have hsplit : [opening, operand, closing, last] =
      [] ++ opening :: operand :: [closing, last] := rfl
  have hfront : operand.gap = [] ++ [] := hoperandGap
  have hwithin : Within (Nesting.start.after ([opening].map Tile.token)).opened .paren := by
    simp [hopening, Nesting.start, Within]
  have hmoved := hbroken hsplit hfront .nil .nil hwithin
  rw [if_pos (by simp [hopening, Bracket.Breaks, Grammar.opensBreak])] at hmoved
  simpa [Tile.textOf, Tile.text, hopening, hoperand, hclosing, hlast, Token.lexeme, lexemeOf,
    hoperandGap, hopeningGap, hclosingGap, hlastGap] using hmoved

/-- Newlines are not skipped around operators, and behind the colon of a named argument they are
not, though they are in a map. -/
theorem parse_onNewLine_refused :
    parse "[$a+$b]" = .script [.evaluate (.array ⟨1, 1⟩
        [.binary ⟨1, 2⟩ .add (.var ⟨1, 2⟩ "$a") (.var ⟨1, 5⟩ "$b")])] ∧
      parse "[$a\n+$b]" = .errors [⟨"Expected `,` or `]`, found symbol", ⟨2, 1⟩, "+"⟩] ∧
      parse "f(a:$b)" = .script [.evaluate (.call ⟨1, 1⟩
        (.property ⟨1, 1⟩ (.global ⟨1, 1⟩) "f") [(some "a", .var ⟨1, 5⟩ "$b")])] ∧
      parse "f(a:\n$b)" = .errors [⟨"Expected an expression, found end of line", ⟨1, 5⟩, "\n"⟩,
        ⟨"Expected end of command, found symbol", ⟨2, 3⟩, ")"⟩] := by
  have hsum : tokens? "[$a+$b]" = some [⟨.leftBracket, "[", ⟨1, 1⟩⟩, ⟨.variableName, "$a", ⟨1, 2⟩⟩,
      ⟨.plus, "+", ⟨1, 4⟩⟩, ⟨.variableName, "$b", ⟨1, 5⟩⟩, ⟨.rightBracket, "]", ⟨1, 7⟩⟩,
      ⟨.eof, "", ⟨1, 8⟩⟩] :=
    tokens?_of_firstTokens rfl
  have hbroken : tokens? "[$a\n+$b]" = some [⟨.leftBracket, "[", ⟨1, 1⟩⟩,
      ⟨.variableName, "$a", ⟨1, 2⟩⟩, ⟨.newline, "\n", ⟨1, 4⟩⟩, ⟨.plus, "+", ⟨2, 1⟩⟩,
      ⟨.variableName, "$b", ⟨2, 2⟩⟩, ⟨.rightBracket, "]", ⟨2, 4⟩⟩, ⟨.eof, "", ⟨2, 5⟩⟩] :=
    tokens?_of_firstTokens rfl
  have hcall : tokens? "f(a:$b)" = some [⟨.identifier, "f", ⟨1, 1⟩⟩, ⟨.leftParen, "(", ⟨1, 2⟩⟩,
      ⟨.identifier, "a", ⟨1, 3⟩⟩, ⟨.colon, ":", ⟨1, 4⟩⟩, ⟨.variableName, "$b", ⟨1, 5⟩⟩,
      ⟨.rightParen, ")", ⟨1, 7⟩⟩, ⟨.eof, "", ⟨1, 8⟩⟩] :=
    tokens?_of_firstTokens rfl
  have hargument : tokens? "f(a:\n$b)" = some [⟨.identifier, "f", ⟨1, 1⟩⟩,
      ⟨.leftParen, "(", ⟨1, 2⟩⟩, ⟨.identifier, "a", ⟨1, 3⟩⟩, ⟨.colon, ":", ⟨1, 4⟩⟩,
      ⟨.newline, "\n", ⟨1, 5⟩⟩, ⟨.variableName, "$b", ⟨2, 1⟩⟩, ⟨.rightParen, ")", ⟨2, 3⟩⟩,
      ⟨.eof, "", ⟨2, 4⟩⟩] :=
    tokens?_of_firstTokens rfl
  refine ⟨?_, ?_, ?_, ?_⟩
  · rw [parse, hsum]
    rfl
  · rw [parse, hbroken]
    rfl
  · rw [parse, hcall]
    rfl
  · rw [parse, hargument]
    rfl

end MetricScript
