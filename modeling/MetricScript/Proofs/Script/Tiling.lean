import Mathlib
import MetricScript.Proofs.Script.Stream

/-!
# Tokens tile the source

The source of a script is its gaps and lexemes, one after the other and with nothing in between.
So the place of a token can be counted off the characters before it, and what a token could have
taken besides is what stands behind its lexeme.
-/

namespace MetricScript

/-- A token with the gap before it. -/
structure Tile where
  gap : List Char
  token : Token

namespace Tile

def text (tile : Tile) : List Char := tile.gap ++ tile.token.lexeme

def textOf (tiles : List Tile) : List Char := tiles.flatMap text

/-- A tile between what was before it and what comes behind it. -/
structure Laid (start : Position) (before : List Char) (tile : Tile) (behind : List Char) :
    Prop where
  gap : Scan.Gap tile.gap
  position : tile.token.position = start.afterAll (before ++ tile.gap)
  reads : Scan.Reads tile.token.kind tile.token.text.toList behind

/-- A tile that is laid stays so when a laid tile is put in front. -/
theorem Laid.shift {start : Position} {first tile : Tile} {before behind : List Char}
    (hlaid : Laid (start.afterAll first.text) before tile behind) :
    Laid start (first.text ++ before) tile behind where
  gap := hlaid.gap
  position := by rw [hlaid.position, List.append_assoc, Position.afterAll_append start first.text]
  reads := hlaid.reads

end Tile

/-- The line of a place counts the newlines before it, and the column the characters since the
last one. -/
theorem Position.afterAll_start (before : List Char) :
    Position.start.afterAll before =
      ⟨1 + before.count '\n', 1 + (before.rtakeWhile (· ≠ '\n')).length⟩ := by
  induction before using List.reverseRecOn with
  | nil => rfl
  | append_singleton before c ih =>
    rw [Position.afterAll_append, ih, List.rtakeWhile_concat]
    change Position.after _ c = _
    by_cases hc : c = '\n'
    · simp [Position.after, hc, Nat.add_assoc]
    · simp [Position.after, hc, Nat.add_assoc]

/-- The tokens of a stream that ends lie one behind the other. -/
theorem Cursor.Gives.tiles {cursor : Cursor} {tokens : List Token} (hgives : cursor.Gives tokens)
    (hended : cursor.ended = false) :
    ∃ tiles : List Tile, tiles.map Tile.token = tokens ∧ cursor.rest = Tile.textOf tiles ∧
      ∀ left tile right, tiles = left ++ tile :: right →
        tile.Laid cursor.position (Tile.textOf left) (Tile.textOf right) := by
  refine hgives.induction hended ?taken ?finished
  case taken =>
    rintro gap rest position token tokens hgap hposition - - hreads ⟨tiles, rfl, htext, hlaid⟩
    have htext : rest = Tile.textOf tiles := htext
    refine ⟨⟨gap, token⟩ :: tiles, rfl, by simp [htext, Tile.textOf, Tile.text], ?_⟩
    intro left tile right hsplit
    cases left with
    | nil =>
      obtain ⟨rfl, rfl⟩ := List.cons.inj hsplit
      exact ⟨hgap, by simpa [Tile.textOf] using hposition, htext ▸ hreads⟩
    | cons head left =>
      obtain ⟨rfl, rfl⟩ := List.cons.inj hsplit
      apply Tile.Laid.shift
      have hplace := hlaid left tile right rfl
      rwa [← Position.afterAll_append] at hplace
  case finished =>
    intro gap position hgap
    refine ⟨[⟨gap, .atEnd (position.afterAll gap)⟩], rfl, ?_, ?_⟩
    · simp [Tile.textOf, Tile.text, Token.lexeme, Scan.lexemeOf, Token.atEnd]
    · intro left tile right hsplit
      obtain ⟨rfl, rfl, rfl⟩ : left = [] ∧ tile = ⟨gap, .atEnd (position.afterAll gap)⟩ ∧
          right = [] := by
        cases left with
        | nil => simpa [eq_comm] using hsplit
        | cons head left => simp at hsplit
      exact ⟨hgap, rfl, .eof⟩

/-- **Tokens tile the source.**  If the stream of a source ends, then the source is the gaps and
the lexemes of its tokens in their order.  Every gap is made of blanks and complete comments,
the place of a token is counted off the characters before its lexeme, and every token has a text
that fits its kind and goes as far as its kind allows. -/
theorem tokens_tile_source {source : String} {tokens : List Token}
    (hgives : (Cursor.ofSource source).Gives tokens) :
    ∃ tiles : List Tile, tiles.map Tile.token = tokens ∧ source.toList = Tile.textOf tiles ∧
      ∀ left tile right, tiles = left ++ tile :: right →
        let before := Tile.textOf left ++ tile.gap
        Scan.Gap tile.gap ∧
          tile.token.position =
            ⟨1 + before.count '\n', 1 + (before.rtakeWhile (· ≠ '\n')).length⟩ ∧
          Scan.Reads tile.token.kind tile.token.text.toList (Tile.textOf right) := by
  obtain ⟨tiles, htokens, htext, hlaid⟩ := hgives.tiles rfl
  refine ⟨tiles, htokens, htext, fun left tile right hsplit => ?_⟩
  obtain ⟨hgap, hposition, hreads⟩ := hlaid left tile right hsplit
  refine ⟨hgap, ?_, hreads⟩
  rw [hposition]
  exact Position.afterAll_start _

/-- Two lines with a comment, an escaped quote and symbols side by side. -/
def crowdedLines : String := "$x=/**/\"a\\\"b\"!==1.5.\n\t$ &&&"

def crowdedTokens : List Token :=
  [⟨.variableName, "$x", ⟨1, 1⟩⟩, ⟨.assign, "=", ⟨1, 3⟩⟩, ⟨.string, "a\\\"b", ⟨1, 8⟩⟩,
    ⟨.notEqual, "!=", ⟨1, 14⟩⟩, ⟨.assign, "=", ⟨1, 16⟩⟩, ⟨.number, "1.5.", ⟨1, 17⟩⟩,
    ⟨.newline, "\n", ⟨1, 21⟩⟩, ⟨.error .emptyVariable, "$", ⟨2, 2⟩⟩, ⟨.logicalAnd, "&&", ⟨2, 4⟩⟩,
    ⟨.error .unknownSymbol, "&", ⟨2, 6⟩⟩, ⟨.eof, "", ⟨2, 7⟩⟩]

theorem crowdedTokens_given : (Cursor.ofSource crowdedLines).Gives crowdedTokens :=
  Cursor.gives_of_firstTokens rfl

theorem tokens_tile_source_crowdedLines :
    (Cursor.ofSource crowdedLines).Gives crowdedTokens ∧
      ∃ tiles : List Tile, tiles.map Tile.token = crowdedTokens ∧
        crowdedLines.toList = Tile.textOf tiles ∧
        ∀ left tile right, tiles = left ++ tile :: right →
          let before := Tile.textOf left ++ tile.gap
          Scan.Gap tile.gap ∧
            tile.token.position =
              ⟨1 + before.count '\n', 1 + (before.rtakeWhile (· ≠ '\n')).length⟩ ∧
            Scan.Reads tile.token.kind tile.token.text.toList (Tile.textOf right) :=
  ⟨crowdedTokens_given, tokens_tile_source crowdedTokens_given⟩

end MetricScript
