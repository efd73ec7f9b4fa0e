import MetricScript.Proofs.Script.Moved
import MetricScript.Proofs.Script.Rounds

/-!
# What comes of reading a phrase

One walk through the functions that read expressions says what is needed of them, whatever they
read.  They do not look at places: a phrase that is given tokens at other places, and perhaps more
depth of recursion, does the same, and the places in what comes of it are moved.  They never put
tokens back.  A phrase that fails does so at one of its tokens, and what it leaves begins with that
token or lies behind it.  And a depth of sixteen for each token suffices, since between one token
and the next no more than a dozen phrases open.

These facts go together, for the depth that a phrase needs behind another one is measured on what
the first one left.
-/

namespace MetricScript

variable {α β γ δ : Type}

/-! ## Shifts -/

/-- A way to move the places of tokens, and the lists that it is for: their next token moves with
the others, and still does when tokens before the end are taken. -/
structure Shift where
  place : Position → Position
  Covers : List Token → Prop
  next {tokens : List Token} : Covers tokens →
    nextToken (tokens.map (Token.moved place)) = (nextToken tokens).moved place
  tail {tokens : List Token} : Covers tokens → (nextToken tokens).kind ≠ .eof → Covers tokens.tail

namespace Shift

/-- Nothing moves, in any list of tokens. -/
def still : Shift where
  place := id
  Covers _ := True
  next {tokens} _ := by cases tokens <;> rfl
  tail _ _ := trivial

/-- Lists of tokens that have their end are moved. -/
def ofMove (move : Position → Position) : Shift where
  place := move
  Covers := Closed
  next := nextToken_moved
  tail := Closed.tail

abbrev moved (shift : Shift) (tokens : List Token) : List Token :=
  tokens.map (Token.moved shift.place)

variable {shift : Shift} {tokens : List Token}

theorem dropWhile (hcovers : shift.Covers tokens) {skipped : Token → Bool}
    (hskipped : ∀ token : Token, token.kind = .eof → skipped token = false) :
    shift.Covers (tokens.dropWhile skipped) := by
  induction tokens with
  | nil => exact hcovers
  | cons token rest ih =>
    by_cases htoken : skipped token
    · rw [List.dropWhile_cons_of_pos htoken]
      refine ih (shift.tail hcovers fun heof => ?_)
      simp [hskipped token heof] at htoken
    · rwa [List.dropWhile_cons_of_neg htoken]

end Shift

/-- Taking a token that is not the end makes the rest shorter. -/
theorem tail_length_lt {tokens : List Token} (hkind : (nextToken tokens).kind ≠ .eof) :
    tokens.tail.length < tokens.length := by
  rw [eq_cons_of_nextToken rfl hkind]
  exact Nat.lt_succ_self _

/-! ## Outcomes -/

/-- The message is about one of the tokens, and the rest begins with it or lies behind it. -/
def SyntaxError.At (shift : Shift) (tokens : List Token) (error : SyntaxError)
    (rest : List Token) : Prop :=
  ∃ message place, place <:+ tokens ∧ shift.Covers place ∧
    error = .about message (nextToken place) ∧ rest <:+ place

theorem SyntaxError.At.mono {shift : Shift} {inner tokens rest : List Token} {error : SyntaxError}
    (hat : error.At shift inner rest) (hinner : inner <:+ tokens) : error.At shift tokens rest := by
  obtain ⟨message, place, hplace, hfound⟩ := hat
  exact ⟨message, place, hplace.trans hinner, hfound⟩

theorem SyntaxError.At.suffix {shift : Shift} {tokens rest : List Token} {error : SyntaxError}
    (hat : error.At shift tokens rest) : rest <:+ tokens := by
  obtain ⟨message, place, hplace, -, -, hrest⟩ := hat
  exact hrest.trans hplace

/-- What comes of some tokens, and of the same tokens at other places.  Values go with what is left
as told; a failure is about one of the tokens, and the moved one about the moved token.  The depth
was not `enough` if it was exhausted, and then nothing is said about the moved tokens. -/
inductive Outcome.Carried (shift : Shift) (tokens : List Token) (enough : Prop)
    (along : α → β → List Token → Prop) : Outcome α → Outcome β → Prop where
  | done {value : α} {value' : β} {rest : List Token} (hrest : rest <:+ tokens)
      (hcovers : shift.Covers rest) (halong : along value value' rest) :
      Carried shift tokens enough along (.done value rest) (.done value' (shift.moved rest))
  | failed {error : SyntaxError} {rest : List Token} (hcovers : shift.Covers rest)
      (hat : error.At shift tokens rest) :
      Carried shift tokens enough along (.failed error rest)
        (.failed (error.moved shift.place) (shift.moved rest))
  | exhausted (hdepth : ¬enough) (outcome : Outcome β) :
      Carried shift tokens enough along .exhausted outcome

theorem Outcome.Carried.mono {shift : Shift} {inner tokens : List Token} {enough enough' : Prop}
    {along along' : α → β → List Token → Prop} {outcome : Outcome α} {outcome' : Outcome β}
    (hcarried : outcome.Carried shift inner enough along outcome') (hinner : inner <:+ tokens)
    (henough : enough' → enough)
    (halong : ∀ value value' rest, along value value' rest → along' value value' rest) :
    outcome.Carried shift tokens enough' along' outcome' := by
  cases hcarried with
  | done hrest hcovers hvalue => exact .done (hrest.trans hinner) hcovers (halong _ _ _ hvalue)
  | failed hcovers hat => exact .failed hcovers (hat.mono hinner)
  | exhausted hdepth => exact .exhausted (fun hmore => hdepth (henough hmore)) _

/-- The value is carried along, and fewer tokens than the bound are left. -/
def Outcome.Along (carry : α → β) (bound : Nat) (value : α) (value' : β) (rest : List Token) :
    Prop := value' = carry value ∧ rest.length < bound

/-- How a round ends goes along: another one follows only if a token was taken. -/
inductive Turn.Along {State State' Result Result' : Type} (carryState : State → State')
    (carryResult : Result → Result') (tokens : List Token) (bound : Nat) :
    Turn State Result → Turn State' Result' → List Token → Prop where
  | again {next : State} {finish : Result → Result} {finish' : Result' → Result'}
      {rest : List Token} (hless : rest.length < tokens.length)
      (hfinish : ∀ result, finish' (carryResult result) = carryResult (finish result)) :
      Along carryState carryResult tokens bound (.again next finish)
        (.again (carryState next) finish') rest
  | leave {result : Result} {rest : List Token} (hless : rest.length < bound) :
      Along carryState carryResult tokens bound (.leave result) (.leave (carryResult result)) rest

/-! ## Chains of phrases -/

namespace Phrase

section

variable {shift : Shift} {tokens : List Token} {enough : Prop} {along : α → β → List Token → Prop}

theorem carried_pure {value : α} {value' : β} (htokens : shift.Covers tokens)
    (halong : along value value' tokens) :
    ((pure value : Phrase α) tokens).Carried shift tokens enough along
      ((pure value' : Phrase β) (shift.moved tokens)) :=
  .done (List.suffix_refl _) htokens halong

theorem carried_unexpected (message : String) (htokens : shift.Covers tokens) :
    ((unexpected (nextToken tokens) message : Phrase α) tokens).Carried shift tokens enough along
      ((unexpected ((nextToken tokens).moved shift.place) message : Phrase β)
        (shift.moved tokens)) := by
  have hat (reason : String) :
      (SyntaxError.about reason (nextToken tokens)).At shift tokens tokens :=
    ⟨reason, tokens, List.suffix_refl _, htokens, rfl, List.suffix_refl _⟩
  unfold unexpected
  rw [Token.kind_moved]
  cases (nextToken tokens).kind <;> exact .failed htokens (hat _)

section

variable {State State' Result Result' : Type} {carryState : State → State'}
  {carryResult : Result → Result'} {whole : List Token} {bound : Nat}

/-- A round may go on if a token was consumed. -/
theorem carried_again {next : State} {finish : Result → Result} {finish' : Result' → Result'}
    (htokens : shift.Covers tokens) (hless : tokens.length < whole.length)
    (hfinish : ∀ result, finish' (carryResult result) = carryResult (finish result)) :
    ((pure (.again next finish) : Phrase (Turn State Result)) tokens).Carried shift tokens enough
      (Turn.Along carryState carryResult whole bound)
      ((pure (.again (carryState next) finish') : Phrase (Turn State' Result'))
        (shift.moved tokens)) :=
  carried_pure htokens (.again hless hfinish)

/-- A round may leave with any result if the rest is short enough. -/
theorem carried_leave (result : Result) (htokens : shift.Covers tokens)
    (hless : tokens.length < bound) :
    ((pure (.leave result) : Phrase (Turn State Result)) tokens).Carried shift tokens enough
      (Turn.Along carryState carryResult whole bound)
      ((pure (.leave (carryResult result)) : Phrase (Turn State' Result'))
        (shift.moved tokens)) :=
  carried_pure htokens (.leave hless)

end

/-- What follows reads on from what is left. -/
theorem carried_then {phrase : Phrase γ} {phrase' : Phrase δ} {next : γ → Phrase α}
    {next' : δ → Phrase β} {tokens' : List Token} {first : γ → δ → List Token → Prop}
    (hfirst : (phrase tokens).Carried shift tokens enough first (phrase' tokens'))
    (hnext : ∀ value value' rest, shift.Covers rest → first value value' rest →
      (next value rest).Carried shift rest enough along (next' value' (shift.moved rest))) :
    ((phrase >>= next) tokens).Carried shift tokens enough along ((phrase' >>= next') tokens') := by
  simp only [bind]
  generalize phrase tokens = outcome at hfirst
  generalize phrase' tokens' = outcome' at hfirst
  cases hfirst with
  | done hrest hcovers hvalue =>
    exact (hnext _ _ _ hcovers hvalue).mono hrest id fun _ _ _ halong => halong
  | failed hcovers hat => exact .failed hcovers hat
  | exhausted hdepth => exact .exhausted hdepth _

theorem carried_bind {phrase : Phrase γ} {phrase' : Phrase δ} {next : γ → Phrase α}
    {next' : δ → Phrase β} {tokens' : List Token} {carry : γ → δ} {bound : Nat}
    (hfirst : (phrase tokens).Carried shift tokens enough (Outcome.Along carry bound)
      (phrase' tokens'))
    (hnext : ∀ value rest, shift.Covers rest → rest.length < bound →
      (next value rest).Carried shift rest enough along (next' (carry value) (shift.moved rest))) :
    ((phrase >>= next) tokens).Carried shift tokens enough along ((phrase' >>= next') tokens') := by
  refine carried_then hfirst ?_
  rintro value _ rest hcovers ⟨rfl, hless⟩
  exact hnext value rest hcovers hless

theorem carried_choice {condition : Prop} [Decidable condition] {first second : Phrase α}
    {first' second' : Phrase β} {inner tokens' : List Token}
    (hfirst : condition → (first inner).Carried shift tokens enough along (first' tokens'))
    (hsecond : ¬condition → (second inner).Carried shift tokens enough along (second' tokens')) :
    ((if condition then first else second) inner).Carried shift tokens enough along
      ((if condition then first' else second') tokens') := by
  by_cases hcondition : condition
  · rw [if_pos hcondition, if_pos hcondition]
    exact hfirst hcondition
  · rw [if_neg hcondition, if_neg hcondition]
    exact hsecond hcondition

theorem carried_peek {next : Token → Phrase α} {next' : Token → Phrase β}
    (htokens : shift.Covers tokens)
    (hnext : (next (nextToken tokens) tokens).Carried shift tokens enough along
      (next' ((nextToken tokens).moved shift.place) (shift.moved tokens))) :
    ((peek >>= next) tokens).Carried shift tokens enough along
      ((peek >>= next') (shift.moved tokens)) := by
  rw [peek_bind, peek_bind, shift.next htokens]
  exact hnext

theorem carried_advance {next : Unit → Phrase α} {next' : Unit → Phrase β}
    (htokens : shift.Covers tokens) (hkind : (nextToken tokens).kind ≠ .eof)
    (hnext : shift.Covers tokens.tail → tokens.tail.length < tokens.length →
      (next () tokens.tail).Carried shift tokens.tail enough along
        (next' () (shift.moved tokens.tail))) :
    ((advance >>= next) tokens).Carried shift tokens enough along
      ((advance >>= next') (shift.moved tokens)) := by
  rw [advance_bind, advance_bind, ← List.map_tail]
  exact (hnext (shift.tail htokens hkind) (tail_length_lt hkind)).mono (List.tail_suffix tokens) id
    fun _ _ _ halong => halong

/-- The token that was just taken may turn out to be faulty. -/
theorem carried_fault (message : String) (htokens : shift.Covers tokens)
    (hkind : (nextToken tokens).kind ≠ .eof) :
    ((do
      advance
      fail (.about message (nextToken tokens)) : Phrase α) tokens).Carried shift tokens enough along
      ((do
        advance
        fail (.about message ((nextToken tokens).moved shift.place)) : Phrase β)
        (shift.moved tokens)) := by
  rw [advance_bind, advance_bind, ← List.map_tail]
  exact .failed (shift.tail htokens hkind)
    ⟨message, tokens, List.suffix_refl _, htokens, rfl, List.tail_suffix tokens⟩

theorem carried_skipNewlines {next : Unit → Phrase α} {next' : Unit → Phrase β}
    (htokens : shift.Covers tokens)
    (hnext : ∀ rest, shift.Covers rest → rest.length ≤ tokens.length →
      (next () rest).Carried shift rest enough along (next' () (shift.moved rest))) :
    ((skipNewlines >>= next) tokens).Carried shift tokens enough along
      ((skipNewlines >>= next') (shift.moved tokens)) := by
  have hrest : tokens.dropWhile (·.kind = .newline) <:+ tokens := List.dropWhile_suffix _
  rw [skipNewlines_bind, skipNewlines_bind, List.dropWhile_map]
  exact (hnext _ (shift.dropWhile htokens fun token heof => by simp [heof]) hrest.length_le).mono
    hrest id fun _ _ _ halong => halong

/-- Eating a token takes the same branch in both runs. -/
theorem carried_eat {kind : TokenKind} (hend : kind ≠ .eof) {next : Bool → Phrase α}
    {next' : Bool → Phrase β} (htokens : shift.Covers tokens)
    (htaken : ∀ rest, shift.Covers rest → rest.length < tokens.length →
      (next true rest).Carried shift rest enough along (next' true (shift.moved rest)))
    (hleft : (next false tokens).Carried shift tokens enough along
      (next' false (shift.moved tokens))) :
    ((eat kind >>= next) tokens).Carried shift tokens enough along
      ((eat kind >>= next') (shift.moved tokens)) := by
  rw [eat_bind, eat_bind, kind_nextToken_moved, ← List.map_tail]
  split
  · next hkind =>
    have hnext : (nextToken tokens).kind ≠ .eof := hkind ▸ hend
    exact (htaken _ (shift.tail htokens hnext) (tail_length_lt hnext)).mono
      (List.tail_suffix tokens) id fun _ _ _ halong => halong
  · exact hleft

/-- The token that is expected is found in both runs or missing in both. -/
theorem expect_carried {kind : TokenKind} (what : String) (hend : kind ≠ .eof)
    (htokens : shift.Covers tokens) :
    (expect kind what tokens).Carried shift tokens enough
      (Outcome.Along (Token.moved shift.place) tokens.length)
      (expect kind what (shift.moved tokens)) := by
  refine carried_peek htokens (carried_choice (fun hkind => ?_) fun _ => ?_)
  · exact carried_advance htokens (hkind ▸ hend) fun htail hless => carried_pure htail ⟨rfl, hless⟩
  · exact carried_unexpected _ htokens

/-- Behind an item come a comma and more, or the closing bracket. -/
theorem carried_separated {kind : TokenKind} {what : String} (hend : kind ≠ .eof)
    {others final : Phrase α} {others' final' : Phrase β} (htokens : shift.Covers tokens)
    (hothers : ∀ rest, shift.Covers rest → rest.length < tokens.length →
      (others rest).Carried shift rest enough along (others' (shift.moved rest)))
    (hfinal : ∀ rest, shift.Covers rest → rest.length < tokens.length →
      (final rest).Carried shift rest enough along (final' (shift.moved rest))) :
    ((do
      skipNewlines
      if ← eat .comma then
        skipNewlines
        others
      else
        let _ ← expect kind what
        final : Phrase α) tokens).Carried shift tokens enough along
      ((do
        skipNewlines
        if ← eat .comma then
          skipNewlines
          others'
        else
          let _ ← expect kind what
          final' : Phrase β) (shift.moved tokens)) := by
  refine carried_skipNewlines htokens fun inside hinside hlength => ?_
  refine carried_eat (by decide) hinside (fun rest hrest hless => ?_) ?_
  · exact carried_skipNewlines hrest fun next hnext hshorter => hothers next hnext (by omega)
  · exact carried_bind (expect_carried _ hend hinside) fun _ rest hrest hless =>
      hfinal rest hrest (by omega)

end

/-! ## Phrases on all tokens -/

section

variable {shift : Shift} {carry : α → β} {needed slack depth : Nat} {phrase : Phrase α}
  {phrase' : Phrase β}

/-- On all tokens, and on the same at other places, values are carried along.  So much depth is
needed beside sixteen for each token, and a token is taken if there is no slack. -/
def Carries (shift : Shift) (carry : α → β) (needed slack depth : Nat) (phrase : Phrase α)
    (phrase' : Phrase β) : Prop :=
  ∀ tokens, shift.Covers tokens →
    (phrase tokens).Carried shift tokens (16 * tokens.length + needed ≤ depth)
      (Outcome.Along carry (tokens.length + slack)) (phrase' (shift.moved tokens))

theorem carries_exhausted (hphrase : ∀ tokens, phrase tokens = .exhausted) :
    phrase.Carries shift carry (needed + 1) slack 0 phrase' := by
  intro tokens htokens
  rw [hphrase]
  exact .exhausted (Nat.not_succ_le_zero _) _

/-- A phrase that is called from one step above needs one step more. -/
theorem Carries.succ (hphrase : phrase.Carries shift carry needed slack depth phrase') :
    phrase.Carries shift carry (needed + 1) slack (depth + 1) phrase' :=
  fun tokens htokens => (hphrase tokens htokens).mono (List.suffix_refl _) Nat.le_of_succ_le_succ
    fun _ _ _ halong => halong

/-- Within another phrase, on what is left then. -/
theorem Carries.on (hphrase : phrase.Carries shift carry needed slack depth phrase')
    {rest : List Token} {bound : Nat} {enough : Prop} (hrest : shift.Covers rest)
    (hbound : rest.length + slack ≤ bound) (henough : enough → 16 * rest.length + needed ≤ depth) :
    (phrase rest).Carried shift rest enough (Outcome.Along carry bound)
      (phrase' (shift.moved rest)) :=
  (hphrase rest hrest).mono (List.suffix_refl _) henough
    fun _ _ _ halong => ⟨halong.1, halong.2.trans_le hbound⟩

variable {State State' : Type} {carryState : State → State'} {round : Phrase (Turn State α)}
  {round' : Phrase (Turn State' β)} {loop : State → Phrase α} {loop' : State' → Phrase β}

/-- On all tokens, and on the same at other places, the round ends alike. -/
def CarriesRound (shift : Shift) (carryState : State → State') (carry : α → β)
    (needed slack depth : Nat) (round : Phrase (Turn State α)) (round' : Phrase (Turn State' β)) :
    Prop :=
  ∀ tokens, shift.Covers tokens →
    (round tokens).Carried shift tokens (16 * tokens.length + needed ≤ depth)
      (Turn.Along carryState carry tokens (tokens.length + slack)) (round' (shift.moved tokens))

/-- What holds of a round holds of the loop, for another round begins with fewer tokens. -/
theorem CarriesRound.follow
    (hround : CarriesRound shift carryState carry needed slack depth round round')
    (hloop : ∀ state, (loop state).Carries shift carry (needed + 1) slack depth
      (loop' (carryState state))) :
    (round >>= Turn.follow loop).Carries shift carry (needed + 1) slack (depth + 1)
      (round' >>= Turn.follow loop') := by
  intro tokens htokens
  refine carried_then ((hround tokens htokens).mono (List.suffix_refl _) Nat.le_of_succ_le_succ
    fun _ _ _ halong => halong) ?_
  rintro _ _ rest hrest (⟨hless, hfinish⟩ | hless)
  · rw [Turn.follow, Turn.follow, map_eq_pure_bind, map_eq_pure_bind]
    refine carried_bind ((hloop _).on hrest le_rfl (by omega)) fun result final hfinal hshorter => ?_
    exact carried_pure hfinal ⟨hfinish result, by omega⟩
  · exact carried_pure hrest ⟨rfl, hless⟩

end

end Phrase

end MetricScript
