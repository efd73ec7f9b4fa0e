import Mathlib
import MetricScript.Script.Parse

/-!
# Steps of reading

Parsing is a chain of small steps on the remaining tokens: look, take, skip, go on.  This
module says what one step does and what a chain of steps that is done has done.  After it
no proof about the parser has to look into the monads of phrases and reports.
-/

namespace MetricScript

variable {α β : Type}

/-- The token that is looked at next; behind the last token it is the end. -/
def nextToken (tokens : List Token) : Token := tokens.headD (.atEnd .start)

@[simp]
theorem nextToken_cons (token : Token) (rest : List Token) :
    nextToken (token :: rest) = token := rfl

@[simp]
theorem nextToken_nil : nextToken [] = .atEnd .start := rfl

theorem nextToken_append_of_ne_nil {own : List Token} (hown : own ≠ []) (rest : List Token) :
    nextToken (own ++ rest) = nextToken own := by
  cases own with
  | nil => exact absurd rfl hown
  | cons token own => rfl

/-- A token that is not the end stands at the front of the list. -/
theorem eq_cons_of_nextToken {tokens : List Token} {kind : TokenKind}
    (hkind : (nextToken tokens).kind = kind) (hend : kind ≠ .eof) :
    tokens = nextToken tokens :: tokens.tail := by
  cases tokens with
  | nil => exact absurd hkind.symm hend
  | cons token rest => rfl

namespace Phrase

@[simp]
theorem peek_bind (continuation : Token → Phrase α) (tokens : List Token) :
    (peek >>= continuation) tokens = continuation (nextToken tokens) tokens := rfl

@[simp]
theorem peekSecond_bind (continuation : Token → Phrase α) (tokens : List Token) :
    (peekSecond >>= continuation) tokens =
      continuation (nextToken tokens.tail) tokens := rfl

@[simp]
theorem advance_bind (continuation : Unit → Phrase α) (tokens : List Token) :
    (advance >>= continuation) tokens = continuation () tokens.tail := rfl

theorem advance_cons (continuation : Unit → Phrase α) (token : Token) (rest : List Token) :
    (advance >>= continuation) (token :: rest) = continuation () rest := rfl

@[simp]
theorem skipNewlines_bind (continuation : Unit → Phrase α) (tokens : List Token) :
    (skipNewlines >>= continuation) tokens =
      continuation () (tokens.dropWhile (·.kind = .newline)) := rfl

/-- A choice between phrases is a choice between what they read. -/
theorem choice_apply (condition : Prop) [Decidable condition] (first second : Phrase α)
    (tokens : List Token) :
    (if condition then first else second) tokens =
      if condition then first tokens else second tokens := by
  split <;> rfl

/-- Eating consumes the next token if it is of the kind. -/
theorem eat_bind (kind : TokenKind) (continuation : Bool → Phrase α) (tokens : List Token) :
    (eat kind >>= continuation) tokens =
      if (nextToken tokens).kind = kind then continuation true tokens.tail
      else continuation false tokens := by
  have heat : eat kind tokens =
      if (nextToken tokens).kind = kind then .done true tokens.tail
      else .done false tokens := by
    change (if (nextToken tokens).kind = kind then _ else _ : Phrase Bool) tokens = _
    rw [choice_apply]
    rfl
  simp only [bind, heat]
  by_cases hkind : (nextToken tokens).kind = kind
  · simp only [if_pos hkind]
  · simp only [if_neg hkind]

theorem eat_cons {kind : TokenKind} {token : Token} (hkind : token.kind = kind)
    (continuation : Bool → Phrase α) (rest : List Token) :
    (eat kind >>= continuation) (token :: rest) = continuation true rest := by
  rw [eat_bind]
  exact if_pos hkind

theorem eat_of_ne {kind : TokenKind} {tokens : List Token}
    (hkind : (nextToken tokens).kind ≠ kind) (continuation : Bool → Phrase α) :
    (eat kind >>= continuation) tokens = continuation false tokens := by
  rw [eat_bind]
  exact if_neg hkind

/-- A failed expectation takes no token. -/
theorem unexpected_ne_done (token : Token) (message : String) (tokens : List Token)
    (value : α) (rest : List Token) :
    (unexpected token message : Phrase α) tokens ≠ .done value rest := by
  unfold unexpected
  cases token.kind <;> exact fun hdone => nomatch hdone

/-- A token of the expected kind is consumed and given. -/
theorem expect_of_kind {kind : TokenKind} {tokens : List Token} (what : String)
    (hkind : (nextToken tokens).kind = kind) :
    expect kind what tokens = .done (nextToken tokens) tokens.tail := by
  change (if (nextToken tokens).kind = kind then _ else _ : Phrase Token) tokens = _
  rw [if_pos hkind]
  rfl

theorem expect_cons {kind : TokenKind} {token : Token} (what : String)
    (hkind : token.kind = kind) (rest : List Token) :
    expect kind what (token :: rest) = .done token rest := expect_of_kind what hkind

/-- An expectation that is met took the next token. -/
theorem expect_eq_done {kind : TokenKind} {what : String} {tokens rest : List Token}
    {token : Token} (hdone : expect kind what tokens = .done token rest) :
    token = nextToken tokens ∧ token.kind = kind ∧ rest = tokens.tail := by
  change (if (nextToken tokens).kind = kind then _ else _ : Phrase Token) tokens = _ at hdone
  split at hdone
  · next hkind =>
    obtain ⟨rfl, rfl⟩ := Outcome.done.inj hdone
    exact ⟨rfl, hkind, rfl⟩
  · exact absurd hdone (unexpected_ne_done _ _ _ _ _)

theorem bind_of_done {phrase : Phrase β} {continuation : β → Phrase α} {tokens rest : List Token}
    {value : β} (hdone : phrase tokens = .done value rest) :
    (phrase >>= continuation) tokens = continuation value rest := by
  simp only [bind, hdone]

/-- A chain that is done was done with its first part. -/
theorem bind_eq_done {phrase : Phrase β} {continuation : β → Phrase α}
    {tokens rest : List Token} {value : α}
    (hdone : (phrase >>= continuation) tokens = .done value rest) :
    ∃ first middle, phrase tokens = .done first middle ∧
      continuation first middle = .done value rest := by
  simp only [bind] at hdone
  split at hdone
  · next first middle hfirst => exact ⟨first, middle, hfirst, hdone⟩
  · exact absurd hdone (by simp)
  · exact absurd hdone (by simp)

end Phrase

namespace Report

@[simp]
theorem peek_bind (continuation : Token → Report α) (tokens : List Token) :
    ((liftM Phrase.peek : Report Token) >>= continuation) tokens =
      continuation (nextToken tokens) tokens := rfl

@[simp]
theorem advance_bind (continuation : Unit → Report α) (tokens : List Token) :
    ((liftM Phrase.advance : Report Unit) >>= continuation) tokens =
      continuation () tokens.tail := rfl

theorem advance_cons (continuation : Unit → Report α) (token : Token) (rest : List Token) :
    ((liftM Phrase.advance : Report Unit) >>= continuation) (token :: rest) =
      continuation () rest := rfl

@[simp]
theorem skipNewlines_bind (continuation : Unit → Report α) (tokens : List Token) :
    ((liftM Phrase.skipNewlines : Report Unit) >>= continuation) tokens =
      continuation () (tokens.dropWhile (·.kind = .newline)) := rfl

@[simp]
theorem skipTerminators_bind (continuation : Unit → Report α) (tokens : List Token) :
    ((liftM Phrase.skipTerminators : Report Unit) >>= continuation) tokens =
      continuation () (tokens.dropWhile (·.kind.isTerminator)) := rfl

/-- A choice between reports is a choice between what they read. -/
theorem choice_apply (condition : Prop) [Decidable condition] (first second : Report α)
    (tokens : List Token) :
    (if condition then first else second) tokens =
      if condition then first tokens else second tokens := by
  split <;> rfl

theorem bind_of_done {report : Report β} {continuation : β → Report α} {tokens rest : List Token}
    {value : β} (hdone : report tokens = ([], .done value rest)) :
    (report >>= continuation) tokens = continuation value rest := by
  simp only [bind, hdone, List.nil_append]

/-- A chain that is done without messages was so with its first part. -/
theorem bind_eq_done {report : Report β} {continuation : β → Report α}
    {tokens rest : List Token} {value : α}
    (hdone : (report >>= continuation) tokens = ([], .done value rest)) :
    ∃ first middle, report tokens = ([], .done first middle) ∧
      continuation first middle = ([], .done value rest) := by
  simp only [bind] at hdone
  split at hdone
  · next errors first middle hfirst =>
    obtain ⟨herrors, houtcome⟩ := Prod.mk.inj hdone
    obtain ⟨rfl, hmore⟩ := List.append_eq_nil_iff.1 herrors
    exact ⟨first, middle, hfirst, Prod.ext hmore houtcome⟩
  · exact absurd (congrArg Prod.snd hdone) (by simp)
  · exact absurd (congrArg Prod.snd hdone) (by simp)

theorem lift_bind_of_done {phrase : Phrase β} {continuation : β → Report α}
    {tokens rest : List Token} {value : β} (hdone : phrase tokens = .done value rest) :
    ((liftM phrase : Report β) >>= continuation) tokens = continuation value rest := by
  exact bind_of_done (Prod.ext rfl hdone)

/-- A chain that begins with a phrase and is done went through the phrase. -/
theorem lift_bind_eq_done {phrase : Phrase β} {continuation : β → Report α}
    {tokens rest : List Token} {value : α}
    (hdone : ((liftM phrase : Report β) >>= continuation) tokens = ([], .done value rest)) :
    ∃ first middle, phrase tokens = .done first middle ∧
      continuation first middle = ([], .done value rest) := by
  obtain ⟨first, middle, hfirst, hrest⟩ := bind_eq_done hdone
  exact ⟨first, middle, (Prod.mk.inj hfirst).2, hrest⟩

/-- An attempt without messages has read something. -/
theorem attempt_eq_done {report : Report α} {tokens rest : List Token} {found : Option α}
    (hdone : attempt report tokens = ([], .done found rest)) :
    ∃ value, found = some value ∧ report tokens = ([], .done value rest) := by
  unfold attempt at hdone
  split at hdone
  · next errors value middle hreport =>
    obtain ⟨rfl, houtcome⟩ := Prod.mk.inj hdone
    obtain ⟨rfl, rfl⟩ := Outcome.done.inj houtcome
    exact ⟨value, rfl, hreport⟩
  · exact absurd (congrArg Prod.fst hdone) (by simp)
  · exact absurd (congrArg Prod.snd hdone) (by simp)

theorem attempt_of_done {report : Report α} {tokens rest : List Token} {value : α}
    (hdone : report tokens = ([], .done value rest)) :
    attempt report tokens = ([], .done (some value) rest) := by
  simp only [attempt, hdone]

end Report

end MetricScript
