import Mathlib
import MetricScript.Proofs.Script.CommandReading
import MetricScript.Proofs.Script.Places
import MetricScript.Proofs.Script.Settled

/-!
# Blanks between tokens

Tokens may touch each other, and a comment begins like a division.  Still the gaps between tokens
are only spacing: a blank or a comment never goes on with the token before it, so tokens that are
set apart by other gaps are the same tokens, and parse to the same commands.
-/

namespace MetricScript

open Scan
open Rendering (wordOf)

namespace Tile

/-- The same token behind another gap, which sets it apart.  The gap before the end is the same. -/
structure Regapped (tile other : Tile) : Prop where
  token : wordOf other.token = wordOf tile.token
  gap : if tile.token.kind = .eof then other.gap = tile.gap else Gap other.gap ∧ other.gap ≠ []

/-- Other gaps leave the kinds of the tokens alone. -/
theorem Regapped.kind {tile other : Tile} (hother : Regapped tile other) :
    other.token.kind = tile.token.kind := congrArg Rendering.Word.kind hother.token

theorem Regapped.text {tile other : Tile} (hother : Regapped tile other) :
    other.token.text = tile.token.text := congrArg Rendering.Word.text hother.token

/-- Behind a token another gap begins with something that separates, unless only the end follows. -/
theorem Settled.head_regapped {behind others : List Tile} (hsettled : Settled behind)
    (hothers : List.Forall₂ Regapped behind others) :
    (textOf others).head? = (textOf behind).head? ∨
      textOf behind ≠ [] ∧ ∃ c ∈ (textOf others).head?, Separates c := by
  cases hsettled with
  | @last tile _ hkind htext =>
    obtain ⟨other, _, hother, hnil, rfl⟩ := List.forall₂_cons_left_iff.1 hothers
    obtain rfl := List.forall₂_nil_left_iff.1 hnil
    have hgap := hother.gap
    rw [if_pos hkind] at hgap
    have hlexeme : other.token.lexeme = tile.token.lexeme := by
      rw [Token.lexeme, Token.lexeme, hother.kind, hother.text]
    simp [hgap, hlexeme]
  | @next tile behind _ hkind hreads _ =>
    obtain ⟨other, others, hother, -, rfl⟩ := List.forall₂_cons_left_iff.1 hothers
    have hgap := hother.gap
    rw [if_neg hkind] at hgap
    obtain ⟨c, hmem, hc⟩ := hgap.1.head? hgap.2
    have hlexeme : tile.token.lexeme ≠ [] := hreads.lexeme_ne_nil hkind
    refine .inr ⟨by simp [hlexeme], c, ?_, hc⟩
    rw [textOf_cons, List.head?_append, Option.mem_def.1 hmem]
    rfl

/-- Settled tiles stay settled behind other gaps. -/
theorem Settled.regapped {tiles others : List Tile} (hsettled : Settled tiles)
    (hothers : List.Forall₂ Regapped tiles others) : Settled others := by
  induction hsettled generalizing others with
  | @last tile hgap hkind htext =>
    obtain ⟨other, _, hother, hnil, rfl⟩ := List.forall₂_cons_left_iff.1 hothers
    obtain rfl := List.forall₂_nil_left_iff.1 hnil
    have hsame := hother.gap
    rw [if_pos hkind] at hsame
    exact .last (hsame ▸ hgap) (hother.kind.trans hkind) (hother.text.trans htext)
  | @next tile behind hgap hkind hreads hrest ih =>
    obtain ⟨other, others, hother, hbehind, rfl⟩ := List.forall₂_cons_left_iff.1 hothers
    have hapart := hother.gap
    rw [if_neg hkind] at hapart
    refine .next hapart.1 (hother.kind ▸ hkind) ?_ (ih hbehind)
    rw [hother.kind, hother.text]
    rcases hrest.head_regapped hbehind with hhead | ⟨hne, hhead⟩
    · by_cases hopen : Unbounded tile.token.kind
      · have hnil := hreads.rest_of_unbounded hopen
        rw [hnil, List.head?_nil, List.head?_eq_none_iff] at hhead
        rwa [hhead, ← hnil]
      · exact hreads.before hopen (.inl hhead)
    · exact hreads.before (fun hopen => hne (hreads.rest_of_unbounded hopen)) (.inr hhead)

theorem map_wordOf_placed (start : Position) (tiles : List Tile) :
    (placed start tiles).map wordOf = tiles.map fun tile => wordOf tile.token := by
  induction tiles generalizing start with
  | nil => rfl
  | cons tile behind ih => rw [placed, List.map_cons, List.map_cons, ih]; rfl

theorem map_wordOf_regapped {tiles others : List Tile}
    (hothers : List.Forall₂ Regapped tiles others) :
    others.map (fun tile => wordOf tile.token) = tiles.map fun tile => wordOf tile.token := by
  induction hothers with
  | nil => rfl
  | cons hother _ ih => rw [List.map_cons, List.map_cons, hother.token, ih]

end Tile

/-- A source with the words of some commands parses to these commands, up to places. -/
theorem parse_of_words {own tokens : List Token} {final : Token} {commands : Script}
    (hown : Grammar.Commands own commands) (hfinal : final.kind = .eof) {source : String}
    (htokens : tokens? source = some tokens)
    (hwords : tokens.map wordOf = (own ++ [final]).map wordOf) :
    ∃ found, parse source = .script found ∧
      Command.unplacedAll found = Command.unplacedAll commands := by
  have hclosed : Closed tokens := by
    obtain ⟨own', final', rfl, hfinal', -⟩ := Cursor.tokens?_eq_append_eof htokens rfl
    exact closed_append_eof own' hfinal'
  rw [parse, htokens]
  exact unplacedAll_of_wordOf (closed_append_eof own hfinal) hclosed hwords
    (Grammar.Script.commands hown hfinal).parses

/-- **Gaps are only spacing.**  A source with a list of tokens is its gaps and lexemes one after
the other.  Whatever stands between the tokens instead, if it is blanks and complete comments and
not nothing, the source that comes of it has tokens of the same kinds with the same texts. -/
theorem tokens?_regapped {source : String} {tokens : List Token}
    (htokens : tokens? source = some tokens) :
    ∃ tiles : List Tile, tiles.map Tile.token = tokens ∧ source.toList = Tile.textOf tiles ∧
      Tile.AllLaid .start tiles ∧
      ∀ others : List Tile, List.Forall₂ Tile.Regapped tiles others →
        ∃ moved, tokens? (String.ofList (Tile.textOf others)) = some moved ∧
          moved.map wordOf = tokens.map wordOf := by
  obtain ⟨tiles, hsettled, hlaid, rfl, htext⟩ := tokens?_settled htokens
  refine ⟨tiles, rfl, htext, hlaid, fun others hothers => ?_⟩
  refine ⟨Tile.placed .start others, ?_, ?_⟩
  · exact tokens?_of_settled (hsettled.regapped hothers) String.toList_ofList
  · calc (Tile.placed .start others).map wordOf
        = others.map fun tile => wordOf tile.token := Tile.map_wordOf_placed .start others
      _ = tiles.map fun tile => wordOf tile.token := Tile.map_wordOf_regapped hothers
      _ = (tiles.map Tile.token).map wordOf := by rw [List.map_map]; rfl

theorem tokens?_regapped_crowdedLines :
    tokens? crowdedLines = some crowdedTokens ∧
      ∃ tiles : List Tile, tiles.map Tile.token = crowdedTokens ∧
        crowdedLines.toList = Tile.textOf tiles ∧ Tile.AllLaid .start tiles ∧
        ∀ others : List Tile, List.Forall₂ Tile.Regapped tiles others →
          ∃ moved, tokens? (String.ofList (Tile.textOf others)) = some moved ∧
            moved.map wordOf = crowdedTokens.map wordOf :=
  have htokens : tokens? crowdedLines = some crowdedTokens :=
    Cursor.tokens?_eq_some_iff.2 crowdedTokens_given
  ⟨htokens, tokens?_regapped htokens⟩

end MetricScript
