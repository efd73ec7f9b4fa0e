import Mathlib
import MetricScript.Proofs.Script.Stream
import MetricScript.Proofs.Script.Anchoring

/-!
# What stands between quotes

Two passes pair backslashes with the characters behind them.  The scanner does so to find the
quote at which a string ends, and the parser does so again to resolve the escapes of what was
found.  Both see the same signs: characters by themselves, and pairs of a backslash and the
character that it takes along.

So the text of a string token never ends with a backslash that has nothing to take, and no quote in
it stands by itself.  Every sign of it resolves to one character.  The strings of a script and the
keys of its maps are all resolved from such tokens.
-/

namespace MetricScript

/-! ## Signs -/

/-- What a text between quotes is made of. -/
inductive Sign where
  | plain (c : Char)
  /-- A backslash and the character that it takes along. -/
  | pair (c : Char)
  /-- A backslash with nothing behind it. -/
  | lone
deriving DecidableEq

namespace Sign

def chars : Sign → List Char
  | plain c => [c]
  | pair c => ['\\', c]
  | lone => ['\\']

/-- The character that a pair stands for. -/
def resolved : Char → Char
  | 'n' => '\n'
  | 't' => '\t'
  | 'r' => '\r'
  | other => other

/-- The character that a sign stands for; a lone backslash stands for nothing. -/
def meaning? : Sign → Option Char
  | plain c => some c
  | pair c => some (resolved c)
  | lone => none

def isPair : Sign → Bool
  | pair _ => true
  | plain _ | lone => false

end Sign

/-- The signs of a text from its front on. -/
def signs : List Char → List Sign
  | [] => []
  | [c] => [if c = '\\' then .lone else .plain c]
  | c :: d :: rest =>
      if c = '\\' then .pair d :: signs rest else .plain c :: signs (d :: rest)

theorem signs_plain {c : Char} (hslash : c ≠ '\\') (rest : List Char) :
    signs (c :: rest) = .plain c :: signs rest := by
  cases rest with
  | nil => simp [signs, hslash]
  | cons d rest => rw [signs, if_neg hslash]

theorem signs_pair (c : Char) (rest : List Char) :
    signs ('\\' :: c :: rest) = .pair c :: signs rest := by
  rw [signs, if_pos rfl]

/-- Nothing of a text is lost in its signs. -/
theorem flatMap_chars_signs (text : List Char) : (signs text).flatMap Sign.chars = text := by
  fun_induction signs text with
  | case1 => rfl
  | case2 c => split <;> simp_all [Sign.chars]
  | case3 d rest ih => rw [List.flatMap_cons, ih]; rfl
  | case4 c d rest _ ih => rw [List.flatMap_cons, ih]; rfl

theorem unescapeList_pair (c : Char) (rest : List Char) :
    unescapeList ('\\' :: c :: rest) = Sign.resolved c :: unescapeList rest := by
  rw [unescapeList.eq_def]
  rfl

/-- Resolving escapes gives the meanings of the signs. -/
theorem unescapeList_eq (text : List Char) :
    unescapeList text = (signs text).filterMap Sign.meaning? := by
  fun_induction signs text with
  | case1 => rfl
  | case2 c => split <;> simp_all [unescapeList, Sign.meaning?]
  | case3 d rest ih =>
    rw [unescapeList_pair, ih]
    rfl
  | case4 c d rest hslash ih =>
    rw [Rendering.unescapeList_cons hslash, ih]
    rfl

theorem length_filterMap_meaning? (signs : List Sign) :
    (signs.filterMap Sign.meaning?).length + signs.countP Sign.isPair + signs.count .lone =
      (signs.flatMap Sign.chars).length := by
  induction signs with
  | nil => rfl
  | cons sign signs ih =>
    rw [List.flatMap_cons, List.length_append, ← ih, List.countP_cons, List.count_cons]
    cases sign with
    | plain c | pair c | lone =>
      simp [List.filterMap_cons, Sign.meaning?, Sign.chars, Sign.isPair]
      omega

/-- Every pair makes one character of two, and only a lone backslash makes none of one. -/
theorem length_unescapeList (text : List Char) :
    (unescapeList text).length + (signs text).countP Sign.isPair + (signs text).count .lone =
      text.length := by
  rw [unescapeList_eq, length_filterMap_meaning?, flatMap_chars_signs]

/-! ## Strings of a source -/

namespace Scan

/-- The scanner pairs every backslash in a string and stops at the first quote by itself. -/
theorem Body.signs {body : List Char} (hbody : Body body) :
    .lone ∉ signs body ∧ .plain '"' ∉ signs body := by
  induction hbody with
  | nil => exact ⟨List.not_mem_nil, List.not_mem_nil⟩
  | plain hquote hslash _ ih =>
    rw [signs_plain hslash]
    simpa [eq_comm, hquote] using ih
  | escaped c _ ih =>
    rw [signs_pair]
    simpa using ih

theorem Reads.body {kind : TokenKind} {text rest : List Char} (hreads : Reads kind text rest)
    (hstring : kind = .string) : Body text := by
  cases hreads with
  | string hbody => exact hbody
  | keyword hkind | symbol hkind => exact absurd (hstring ▸ hkind) (by decide)
  | _ => exact nomatch hstring

end Scan

namespace Cursor

/-- A step gives a string only by taking one. -/
theorem Step.body {cursor following : Cursor} {token : Token} (hstep : Step cursor token following)
    (hkind : token.kind = .string) : Scan.Body token.text.toList := by
  cases hstep with
  | taken _ _ _ hreads => exact hreads.body hkind
  | finished => exact nomatch hkind
  | stuck => exact nomatch hkind

/-- The text of every string token is a string body. -/
theorem body_of_mem_firstTokens {limit : Nat} {cursor : Cursor} {token : Token}
    (hmem : token ∈ cursor.firstTokens limit) (hkind : token.kind = .string) :
    Scan.Body token.text.toList := by
  induction limit generalizing cursor with
  | zero => exact nomatch hmem
  | succ limit ih =>
    rw [firstTokens] at hmem
    cases hnext : cursor.next? with
    | none =>
      rw [hnext] at hmem
      cases hmem
    | some step =>
      obtain ⟨first, following⟩ := step
      rw [hnext] at hmem
      rcases List.mem_cons.1 hmem with rfl | hlater
      · exact (step_of_next? hnext).body hkind
      · exact ih hlater

/-- The tokens of a stream that ends are its first ones. -/
theorem Yields.firstTokens_eq {cursor final : Cursor} {tokens : List Token}
    (hyields : cursor.Yields tokens final) : cursor.firstTokens tokens.length = tokens := by
  induction hyields with
  | nothing => rfl
  | next hnext _ ih =>
    rw [List.length_cons, firstTokens, hnext]
    exact congrArg _ ih

end Cursor

/-! ## Strings of a script -/

namespace Grammar

/-- The text of a literal and the keys of a map stand in the tokens. -/
def Spelled (own : List Token) : Expr → Prop
  | .literal _ value => ∃ token ∈ own, LiteralToken token value
  | .map _ entries => ∀ entry ∈ entries, ∃ token ∈ own, KeyToken token entry.1
  | _ => True

theorem Spelled.mono {own more : List Token} {value : Expr} (hvalue : Spelled own value)
    (hinside : own ⊆ more) : Spelled more value := by
  cases value with
  | literal =>
    obtain ⟨token, hmem, htoken⟩ := hvalue
    exact ⟨token, hinside hmem, htoken⟩
  | map =>
    intro entry hentry
    obtain ⟨token, hmem, htoken⟩ := hvalue entry hentry
    exact ⟨token, hinside hmem, htoken⟩
  | _ => trivial

theorem spelled_movedTo {own : List Token} {value : Expr} (place : Position) :
    Spelled own (value.movedTo place) ↔ Spelled own value := by
  cases value <;> rfl

mutual

theorem Binary.spelled {levels : List Parse.Level} {own : List Token} {value : Expr} :
    Binary levels own value → Spelled own value
  | .operand hvalue => hvalue.spelled
  | .tighter hvalue => hvalue.spelled
  | .joined _ _ _ => trivial

theorem Unary.spelled {own : List Token} {value : Expr} : Unary own value → Spelled own value
  | .plain hvalue => hvalue.spelled
  | .signed _ _ => trivial

theorem Suffixed.spelled {own : List Token} {value : Expr} :
    Suffixed own value → Spelled own value
  | .plain hvalue => hvalue.spelled
  | .property _ _ _ | .call _ _ _ => trivial

theorem Primary.spelled {own : List Token} {value : Expr} : Primary own value → Spelled own value
  | .literal hvalue => ⟨_, List.mem_singleton_self _, hvalue⟩
  | .map _ hentries => fun entry hentry => by
      obtain ⟨token, hmem, htoken⟩ := hentries.keyed entry hentry
      exact ⟨token, List.mem_cons_of_mem _ hmem, htoken⟩
  | .group _ _ hvalue _ _ =>
      (spelled_movedTo _).2 (hvalue.spelled.mono fun token hmem => by simp [hmem])
  | .var _ | .storage _ _ | .name _ _ | .array _ _ => trivial

/-- Every key of a map is that of one of its tokens. -/
theorem Entries.keyed {own : List Token} {entries : List (String × Expr)} :
    Entries own entries → ∀ entry ∈ entries, ∃ token ∈ own, KeyToken token entry.1
  | .none _ _ => nofun
  | .next _ hkey _ _ _ _ _ hrest => by
      refine List.forall_mem_cons.2 ⟨⟨_, by simp, hkey⟩, fun entry hentry => ?_⟩
      obtain ⟨token, hmem, htoken⟩ := hrest.keyed entry hentry
      exact ⟨token, by simp [hmem], htoken⟩

end

/-- Every literal and every key of a script that parses is spelled by a token of the source. -/
theorem spelled_of_parse {source : String} {commands : MetricScript.Script}
    (hparse : parse source = .script commands) :
    ∃ limit, ∀ node ∈ Command.allNodes commands, Spelled (firstTokens limit source) node := by
  obtain ⟨own, final, htokens, -, hcommands⟩ := commands_of_parse hparse
  obtain ⟨_, hyields, -⟩ := Cursor.tokens?_eq_some_iff.1 htokens
  refine ⟨(own ++ [final]).length, fun node hnode => ?_⟩
  rw [firstTokens, hyields.firstTokens_eq]
  obtain ⟨mine, hmine, hcovers⟩ := hcommands.allCover.before node hnode
  rcases hcovers with hderived | ⟨_, -, -, rfl⟩
  · exact hderived.spelled.mono hmine.subset
  · trivial

end Grammar

/-- **Scanner and parser pair backslashes alike.**  Every backslash in the text of a string token
takes a character along, and no quote stands there by itself.  The resolved text has one character
for each sign, so it is as many characters shorter as there are pairs.  In a script that parses,
every string and every key of a map that is not a name is resolved from such a token. -/
theorem string_escapes_paired (source : String) :
    (∀ limit, ∀ token ∈ firstTokens limit source, token.kind = .string →
      let body := signs token.text.toList
      .lone ∉ body ∧ .plain '"' ∉ body ∧
        (unescape token.text).toList = body.filterMap Sign.meaning? ∧
        (unescape token.text).length + body.countP Sign.isPair = token.text.length) ∧
    ∀ commands, parse source = .script commands → ∃ limit,
      (∀ place text, .literal place (.string text) ∈ Command.allNodes commands →
        ∃ token ∈ firstTokens limit source, token.kind = .string ∧ text = unescape token.text) ∧
      ∀ place entries, .map place entries ∈ Command.allNodes commands → ∀ entry ∈ entries,
        ∃ token ∈ firstTokens limit source, token.kind = .identifier ∧ entry.1 = token.text ∨
          token.kind = .string ∧ entry.1 = unescape token.text := by
  refine ⟨fun limit token hmem hkind => ?_, fun commands hparse => ?_⟩
  · obtain ⟨hlone, hquote⟩ := (Cursor.body_of_mem_firstTokens hmem hkind).signs
    have hlength := length_unescapeList token.text.toList
    rw [List.count_eq_zero.2 hlone, Nat.add_zero] at hlength
    refine ⟨hlone, hquote, ?_, ?_⟩
    · rw [unescape, String.toList_ofList, unescapeList_eq]
    · rw [unescape, String.length_ofList, hlength, String.length_toList]
  · obtain ⟨limit, hspelled⟩ := Grammar.spelled_of_parse hparse
    refine ⟨limit, fun place text hnode => ?_, fun place entries hnode entry hentry => ?_⟩
    · obtain ⟨token, hmem, htoken⟩ := hspelled _ hnode
      cases htoken with
      | string hkind => exact ⟨token, hmem, hkind, rfl⟩
    · obtain ⟨token, hmem, htoken⟩ := hspelled _ hnode entry hentry
      refine ⟨token, hmem, ?_⟩
      generalize entry.1 = key at htoken ⊢
      cases htoken with
      | name hkind => exact .inl ⟨hkind, rfl⟩
      | string hkind => exact .inr ⟨hkind, rfl⟩

/-- A key with a quote in it, and a value that ends with a backslash. -/
def slashes : String := "x: \x7b\"k\\\"\": \"a\\\\\"\x7d"

def slashesTokens : List Token :=
  [⟨.identifier, "x", ⟨1, 1⟩⟩, ⟨.colon, ":", ⟨1, 2⟩⟩, ⟨.leftBrace, "\x7b", ⟨1, 4⟩⟩,
    ⟨.string, "k\\\"", ⟨1, 5⟩⟩, ⟨.colon, ":", ⟨1, 10⟩⟩, ⟨.string, "a\\\\", ⟨1, 12⟩⟩,
    ⟨.rightBrace, "\x7d", ⟨1, 17⟩⟩, ⟨.eof, "", ⟨1, 18⟩⟩]

def slashesValue : Expr := .map ⟨1, 4⟩ [("k\"", .literal ⟨1, 12⟩ (.string "a\\"))]

theorem slashes_parse : parse slashes = .script [.setOutput "x" slashesValue] := by
  have htokens : tokens? slashes = some slashesTokens := tokens?_of_firstTokens rfl
  rw [parse, htokens]
  rfl

/-- A string that ends with an escaped backslash, under a key with an escaped quote. -/
theorem string_escapes_paired_slashes :
    let value : Token := ⟨.string, "a\\\\", ⟨1, 12⟩⟩
    let body := [Sign.plain 'a', .pair '\\']
    value ∈ firstTokens 8 slashes ∧ signs value.text.toList = body ∧
      .lone ∉ body ∧ .plain '"' ∉ body ∧
      (unescape value.text).toList = body.filterMap Sign.meaning? ∧
      (unescape value.text).length + body.countP Sign.isPair = value.text.length ∧
      parse slashes = .script [.setOutput "x" slashesValue] ∧ ∃ limit,
        (∃ token ∈ firstTokens limit slashes,
          token.kind = .string ∧ "a\\" = unescape token.text) ∧
        ∃ token ∈ firstTokens limit slashes, token.kind = .identifier ∧ "k\"" = token.text ∨
          token.kind = .string ∧ "k\"" = unescape token.text := by
  intro value body
  have hvalue : value ∈ firstTokens 8 slashes := by
    rw [show firstTokens 8 slashes = slashesTokens from rfl]
    decide
  have hbody : signs value.text.toList = body := by decide
  obtain ⟨htokens, hscript⟩ := string_escapes_paired slashes
  have hpaired := htokens 8 value hvalue rfl
  rw [hbody] at hpaired
  obtain ⟨hlone, hquote, hmeaning, hlength⟩ := hpaired
  obtain ⟨limit, hliteral, hkey⟩ := hscript _ slashes_parse
  have hkeyed := hkey ⟨1, 4⟩ _ (List.mem_cons_self : slashesValue ∈ _)
  exact ⟨hvalue, hbody, hlone, hquote, hmeaning, hlength, slashes_parse, limit,
    hliteral ⟨1, 12⟩ "a\\" (List.mem_cons_of_mem _ List.mem_cons_self),
    hkeyed _ List.mem_cons_self⟩

end MetricScript
