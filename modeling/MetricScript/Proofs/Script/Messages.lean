import MetricScript.Proofs.Script.Places
import MetricScript.Proofs.Script.Stream

/-!
# The messages of a faulty script

The messages come in the order of the tokens that they are about, and the tokens of a source stand
at places that rise.  So the places of the messages rise as well, but for the end and for braces
that close a block, where the parser stands still: whoever comes next may find fault with the same
token.
-/

namespace MetricScript

/-! ## Places rise along the tokens -/

/-- The first place is on an earlier line, or on the same line in an earlier column. -/
def Position.Before (left right : Position) : Prop :=
  left.line < right.line ∨ left.line = right.line ∧ left.column < right.column

namespace Position

theorem Before.trans {left middle right : Position} (hfirst : left.Before middle)
    (hsecond : middle.Before right) : left.Before right := by
  unfold Before at *
  omega

theorem Before.ne {left right : Position} (hbefore : left.Before right) : left ≠ right := by
  rintro rfl
  unfold Before at hbefore
  omega

theorem before_after (position : Position) (c : Char) : position.Before (position.after c) := by
  unfold after Before
  split
  · exact .inl (Nat.lt_succ_self _)
  · exact .inr ⟨rfl, Nat.lt_succ_self _⟩

theorem before_afterAll (position : Position) {text : List Char} (htext : text ≠ []) :
    position.Before (position.afterAll text) := by
  induction text generalizing position with
  | nil => exact absurd rfl htext
  | cons c text ih =>
    change position.Before ((position.after c).afterAll text)
    rcases eq_or_ne text [] with rfl | hmore
    · exact position.before_after c
    · exact (position.before_after c).trans (ih _ hmore)

theorem Before.afterAll {place position : Position} (hplace : place.Before position)
    (text : List Char) : place.Before (position.afterAll text) := by
  rcases eq_or_ne text [] with rfl | htext
  · exact hplace
  · exact hplace.trans (position.before_afterAll htext)

end Position

/-- The tokens of a stream stand one behind the other, and behind all that is before the stream. -/
theorem Cursor.Gives.rising {cursor : Cursor} {tokens : List Token} (hgives : cursor.Gives tokens)
    (hended : cursor.ended = false) :
    (∀ token ∈ tokens, ∀ place : Position, place.Before cursor.position →
      place.Before token.position) ∧
      tokens.Pairwise fun earlier later => earlier.position.Before later.position := by
  refine hgives.induction hended ?taken ?finished
  case taken =>
    rintro gap rest position token tokens hgap hposition hlexeme - - ⟨hbehind, hrising⟩
    have hfirst (place : Position) (hplace : place.Before position) :
        place.Before token.position := by
      rw [hposition]
      exact hplace.afterAll gap
    have htaken : token.position.Before ((position.afterAll gap).afterAll token.lexeme) := by
      rw [hposition]
      exact Position.before_afterAll _ hlexeme
    refine ⟨List.forall_mem_cons.mpr ⟨hfirst, fun other hother place hplace => ?_⟩,
      List.pairwise_cons.mpr ⟨fun other hother => hbehind other hother _ htaken, hrising⟩⟩
    exact hbehind other hother place ((hfirst place hplace).trans htaken)
  case finished =>
    intro gap position hgap
    refine ⟨?_, List.pairwise_singleton _ _⟩
    rintro _ (_ | ⟨_, ⟨⟩⟩) place hplace
    exact hplace.afterAll gap

/-! ## Messages in the order of the tokens -/

/-- The message comes before another one: its place is earlier, or both are about one and the same
end or closing brace. -/
def SyntaxError.Precedes (tokens : List Token) (earlier later : SyntaxError) : Prop :=
  earlier.position.Before later.position ∨
    earlier.position = later.position ∧ ∃ token ∈ tokens, token.position = later.position ∧
      (token.kind = .eof ∨ token.kind = .rightBrace)

theorem SyntaxError.Precedes.mono {inner tokens : List Token} {earlier later : SyntaxError}
    (hprecedes : earlier.Precedes inner later) (hinner : inner ⊆ tokens) :
    earlier.Precedes tokens later :=
  hprecedes.imp_right fun ⟨hsame, token, htoken, hshared⟩ => ⟨hsame, token, hinner htoken, hshared⟩

namespace Passing

variable {move : Position → Position} {tokens rest : List Token} {errors : List SyntaxError}

/-- Every message is about one of the tokens. -/
theorem exists_token (hpassing : Passing (.ofMove move) tokens errors rest) :
    ∀ error ∈ errors, ∃ message, ∃ token ∈ tokens, error = .about message token := by
  induction hpassing with
  | nothing => exact fun _ herror => nomatch herror
  | @about tokens place next rest message errors hplace hclosed hnext _ ih =>
    have hmem : nextToken place ∈ place := by
      rw [Closed.eq_cons hclosed]
      exact List.mem_cons_self
    refine List.forall_mem_cons.mpr ⟨⟨_, _, hplace.subset hmem, rfl⟩, fun error herror => ?_⟩
    obtain ⟨message, other, hother, habout⟩ := ih error herror
    exact ⟨message, other, hplace.subset (hnext.suffix.subset hother), habout⟩

/-- If places rise along the tokens, each message comes before the next ones. -/
theorem precedes (hpassing : Passing (.ofMove move) tokens errors rest)
    (hrising : tokens.Pairwise fun earlier later => earlier.position.Before later.position) :
    errors.Pairwise (SyntaxError.Precedes tokens) := by
  induction hpassing with
  | nothing => exact .nil
  | @about tokens place next rest message errors hplace hclosed hnext hmore ih =>
    have hinner := hrising.sublist hplace.sublist
    have hcons : place = nextToken place :: place.tail := Closed.eq_cons hclosed
    have hfirst : nextToken place ∈ tokens := by
      refine hplace.subset ?_
      rw [hcons]
      exact List.mem_cons_self
    have hbefore : ∀ other ∈ place.tail, (nextToken place).position.Before other.position := by
      rw [hcons] at hinner
      exact (List.pairwise_cons.mp hinner).1
    refine List.pairwise_cons.mpr ⟨fun error herror => ?_, ?_⟩
    · -- a later message is about a token behind this one, or about this one again
      obtain ⟨_, other, hother, rfl⟩ := hmore.exists_token error herror
      rcases hnext with hbehind | ⟨rfl, hkind⟩
      · exact .inl (hbefore other (hbehind.subset hother))
      · rw [hcons] at hother
        rcases List.mem_cons.mp hother with rfl | hbehind
        · exact .inr ⟨rfl, _, hfirst, rfl, hkind⟩
        · exact .inl (hbefore other hbehind)
    · exact (ih (hinner.sublist hnext.suffix.sublist)).imp fun hprecedes =>
        hprecedes.mono (hnext.suffix.trans hplace).subset

end Passing

/-- The messages of a faulty script pass along its tokens, and there is at least one. -/
theorem parseTokens_passing {tokens : List Token} (htokens : Closed tokens)
    {errors : List SyntaxError} (herrors : parseTokens tokens = .errors errors) :
    errors ≠ [] ∧ ∃ rest, Passing (.ofMove id) tokens errors rest := by
  have hcovers : (Shift.ofMove id).Covers tokens := htokens
  have hcarried := Parse.scriptCommands_carries (Parse.depthFor tokens) le_rfl tokens hcovers
  rw [parseTokens_eq] at herrors
  generalize Parse.depthFor tokens = depth at hcarried herrors
  generalize Parse.scriptCommands depth tokens = result at hcarried herrors
  generalize Parse.scriptCommands depth ((Shift.ofMove id).moved tokens) = result' at hcarried
  cases hcarried with
  | @done messages commands _ rest hpassing =>
    cases messages with
    | nil => cases herrors
    | cons message others =>
      obtain rfl := Parsed.errors.inj herrors
      exact ⟨by simp, rest, hpassing⟩
  | @failed messages message middle rest hpassing hat =>
    obtain rfl : messages ++ [message] = errors := by
      cases messages <;> exact Parsed.errors.inj herrors
    exact ⟨by simp, _, hpassing.append hat.passing⟩
  | exhausted _ messages =>
    cases messages <;> cases herrors

theorem Token.eq_of_position {tokens : List Token}
    (hrising : tokens.Pairwise fun earlier later => earlier.position.Before later.position)
    {first second : Token} (hfirst : first ∈ tokens) (hsecond : second ∈ tokens)
    (hplace : first.position = second.position) : first = second := by
  have hnodup : (tokens.map Token.position).Nodup :=
    List.pairwise_map.mpr (hrising.imp Position.Before.ne)
  exact List.inj_on_of_nodup_map hnodup hfirst hsecond hplace

/-- **Messages point at tokens, in their order.**  If a source whose token stream ends is faulty,
there is at least one message.  Each has the place of a token and shows its text, of more than 30
characters the first 29 and three dots.  The places of the messages never go back, and two messages
have one place only if the token there is the end or a closing brace. -/
theorem messages_point_at_tokens {source : String} {tokens : List Token}
    {errors : List SyntaxError} (hgives : (Cursor.ofSource source).Gives tokens)
    (herrors : parse source = .errors errors) :
    errors ≠ [] ∧
      (∀ error ∈ errors, ∃ token ∈ tokens, error.position = token.position ∧
        error.snippet =
          if token.text.length > 30 then String.ofList (token.text.toList.take 29) ++ "..."
          else token.text) ∧
      errors.Pairwise fun earlier later =>
        earlier.position.Before later.position ∨
          earlier.position = later.position ∧ ∀ token ∈ tokens,
            token.position = later.position → token.kind = .eof ∨ token.kind = .rightBrace := by
  have htokens : tokens? source = some tokens := Cursor.tokens?_eq_some_iff.2 hgives
  rw [parse, htokens] at herrors
  obtain ⟨-, own, final, rfl, hfinal, -⟩ := hgives.ends rfl
  obtain ⟨hsome, rest, hpassing⟩ := parseTokens_passing (closed_append_eof own hfinal) herrors
  have hrising := (hgives.rising rfl).2
  refine ⟨hsome, fun error herror => ?_, (hpassing.precedes hrising).imp fun hprecedes =>
    hprecedes.imp_right fun ⟨hsame, token, htoken, hplace, hkind⟩ => ⟨hsame, ?_⟩⟩
  · obtain ⟨message, token, htoken, rfl⟩ := hpassing.exists_token error herror
    refine ⟨token, htoken, rfl, ?_⟩
    simp only [SyntaxError.about, SyntaxError.snippetLimit, String.length_toList]
  · intro other hother hshared
    rwa [Token.eq_of_position hrising hother htoken (hshared.trans hplace.symm)]

/-- Two names side by side, the second one long, and a brace that nothing opened. -/
def faultyLines : String := "$a $abcdefghijklmnopqrstuvwxyz_hourly\n$b + \x7d"

def faultyTokens : List Token :=
  [⟨.variableName, "$a", ⟨1, 1⟩⟩, ⟨.variableName, "$abcdefghijklmnopqrstuvwxyz_hourly", ⟨1, 4⟩⟩,
    ⟨.newline, "\n", ⟨1, 38⟩⟩, ⟨.variableName, "$b", ⟨2, 1⟩⟩, ⟨.plus, "+", ⟨2, 4⟩⟩,
    ⟨.rightBrace, "\x7d", ⟨2, 6⟩⟩, ⟨.eof, "", ⟨2, 7⟩⟩]

/-- The messages about these lines, two of them about the brace. -/
def faultyMessages : List SyntaxError :=
  [⟨"Expected end of command, found variable", ⟨1, 4⟩, "$abcdefghijklmnopqrstuvwxyz_h..."⟩,
    ⟨"Expected an expression, found symbol", ⟨2, 6⟩, "\x7d"⟩,
    ⟨"Unexpected `\x7d`", ⟨2, 6⟩, "\x7d"⟩]

theorem faultyTokens_given : (Cursor.ofSource faultyLines).Gives faultyTokens :=
  Cursor.gives_of_firstTokens rfl

theorem faultyMessages_parsed : parse faultyLines = .errors faultyMessages := by
  rw [parse, show tokens? faultyLines = _ from Cursor.tokens?_eq_some_iff.2 faultyTokens_given]
  rfl

/-- Two messages, the first about a token too long to be shown whole. -/
theorem messages_point_at_tokens_faultyLines :
    (Cursor.ofSource faultyLines).Gives faultyTokens ∧
      parse faultyLines = .errors faultyMessages ∧
      faultyMessages ≠ [] ∧
      (∀ error ∈ faultyMessages, ∃ token ∈ faultyTokens, error.position = token.position ∧
        error.snippet =
          if token.text.length > 30 then String.ofList (token.text.toList.take 29) ++ "..."
          else token.text) ∧
      faultyMessages.Pairwise fun earlier later =>
        earlier.position.Before later.position ∨
          earlier.position = later.position ∧ ∀ token ∈ faultyTokens,
            token.position = later.position → token.kind = .eof ∨ token.kind = .rightBrace :=
  ⟨faultyTokens_given, faultyMessages_parsed,
    messages_point_at_tokens faultyTokens_given faultyMessages_parsed⟩

end MetricScript
