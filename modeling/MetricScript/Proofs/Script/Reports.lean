import MetricScript.Proofs.Script.Phrases

/-!
# What comes of a report

A report may record messages and go on.  The messages come in the order of the tokens that they are
about: after a failure the parser goes on behind the token that the failure is about, except at the
end and at a brace that closes a block, where it stands still, and whoever comes next may find
fault with the same token.  How many messages there are is counted along with the tokens that are
left.
-/

namespace MetricScript

variable {α β γ δ : Type} {shift : Shift} {tokens rest : List Token}

/-! ## Recovery -/

namespace Report

/-- Behind a faulty command tokens are only skipped. -/
theorem resume_suffix (depth : Nat) (tokens : List Token) : resume depth tokens <:+ tokens := by
  induction tokens generalizing depth with
  | nil => exact List.suffix_refl _
  | cons token rest ih =>
    have hskipped (inner : Nat) : resume inner rest <:+ token :: rest :=
      (ih inner).trans (List.suffix_cons token rest)
    rw [resume]
    split
    · exact List.suffix_refl _
    · split
      · exact List.suffix_refl _
      · exact hskipped _
    · exact hskipped _
    iterate 2
      split
      · exact List.suffix_cons token rest
      · exact hskipped _
    · exact hskipped _

/-- The token begins something: it neither ends a command nor closes a block nor ends the
script. -/
def Begins (kind : TokenKind) : Prop :=
  kind.isTerminator = false ∧ kind ≠ .rightBrace ∧ kind ≠ .eof

/-- A token that begins something is skipped. -/
theorem resume_length_lt (hbegins : Begins (nextToken tokens).kind) :
    (resume 0 tokens).length < tokens.length := by
  obtain ⟨hterminator, hbrace, hend⟩ := hbegins
  cases tokens with
  | nil => exact absurd rfl hend
  | cons token rest =>
    have hskipped (inner : Nat) : (resume inner rest).length < (token :: rest).length :=
      Nat.lt_succ_of_le (resume_suffix inner rest).length_le
    rw [nextToken_cons] at hterminator hbrace hend
    rw [resume]
    split
    · next heof => exact absurd heof hend
    · next hright => exact absurd hright hbrace
    · exact hskipped _
    · next hnewline => simp [hnewline, TokenKind.isTerminator] at hterminator
    · next hsemicolon => simp [hsemicolon, TokenKind.isTerminator] at hterminator
    · exact hskipped _

/-- The recovery skips as many of the moved tokens. -/
theorem resume_moved (move : Position → Position) (depth : Nat) (tokens : List Token) :
    resume depth (tokens.map (Token.moved move)) =
      (resume depth tokens).map (Token.moved move) := by
  induction tokens generalizing depth with
  | nil => rfl
  | cons token rest ih =>
    rw [List.map_cons, resume, resume, Token.kind_moved]
    cases token.kind with
    | rightBrace | newline | semicolon =>
      by_cases hdepth : depth = 0
      · simp [hdepth]
      · simp [hdepth, ih]
    | eof => rfl
    | _ => exact ih _

/-- Behind the terminators comes something else. -/
theorem isTerminator_dropWhile (tokens : List Token) :
    (nextToken (tokens.dropWhile (·.kind.isTerminator))).kind.isTerminator = false := by
  cases hdrop : tokens.dropWhile (·.kind.isTerminator) with
  | nil => rfl
  | cons token rest =>
    have hhead := List.head?_dropWhile_not (·.kind.isTerminator) tokens
    rw [hdrop] at hhead
    simpa using hhead

end Report

/-- What the recovery leaves is covered by the shift. -/
theorem Shift.resume (hcovers : shift.Covers tokens) (depth : Nat) :
    shift.Covers (Report.resume depth tokens) := by
  induction tokens generalizing depth with
  | nil => exact hcovers
  | cons token rest ih =>
    have hrest (hkind : token.kind ≠ .eof) : shift.Covers rest := shift.tail hcovers hkind
    rw [Report.resume]
    generalize token.kind = kind at hrest
    split
    · exact hcovers
    · split
      · exact hcovers
      · exact ih (hrest (by simp)) _
    · exact ih (hrest (by simp)) _
    iterate 2
      split
      · exact hrest (by simp)
      · exact ih (hrest (by simp)) _
    · exact ih (hrest ‹_›) _

/-! ## Messages in the order of the tokens -/

/-- Where the parser goes on after a message about the next token: behind it, or with the token
itself if it is an end or a closing brace. -/
def GoesOn (place next : List Token) : Prop :=
  next <:+ place.tail ∨
    next = place ∧ ((nextToken place).kind = .eof ∨ (nextToken place).kind = .rightBrace)

theorem GoesOn.suffix {place next : List Token} (hnext : GoesOn place next) : next <:+ place := by
  rcases hnext with hbehind | ⟨rfl, -⟩
  · exact hbehind.trans (List.tail_suffix place)
  · exact List.suffix_refl _

/-- Skipping leads behind the token of a failure, unless it is an end or a closing brace. -/
theorem goesOn_resume {place : List Token} (hrest : rest <:+ place) :
    GoesOn place (Report.resume 0 rest) := by
  cases place with
  | nil =>
    obtain rfl := List.suffix_nil.1 hrest
    exact .inr ⟨rfl, .inl rfl⟩
  | cons token behind =>
    rcases List.suffix_cons_iff.mp hrest with rfl | hbehind
    · have hstays (hkind : token.kind = .eof ∨ token.kind = .rightBrace) :
          GoesOn (token :: behind) (token :: behind) := .inr ⟨rfl, hkind⟩
      rw [Report.resume]
      generalize token.kind = kind at hstays
      cases kind with
      | eof => exact hstays (.inl rfl)
      | rightBrace => exact hstays (.inr rfl)
      | newline | semicolon => exact .inl (List.suffix_refl behind)
      | _ => exact .inl (Report.resume_suffix _ behind)
    · exact .inl ((Report.resume_suffix 0 rest).trans hbehind)

/-- The messages are about tokens one after the other, up to what is left of the tokens. -/
inductive Passing (shift : Shift) : List Token → List SyntaxError → List Token → Prop where
  | nothing {tokens rest : List Token} (hrest : rest <:+ tokens) : Passing shift tokens [] rest
  | about {tokens place next rest : List Token} {message : String} {errors : List SyntaxError}
      (hplace : place <:+ tokens) (hcovers : shift.Covers place) (hnext : GoesOn place next)
      (hmore : Passing shift next errors rest) :
      Passing shift tokens (.about message (nextToken place) :: errors) rest

namespace Passing

variable {errors : List SyntaxError}

theorem mono {inner : List Token} (hpassing : Passing shift inner errors rest)
    (hinner : inner <:+ tokens) : Passing shift tokens errors rest := by
  cases hpassing with
  | nothing hrest => exact .nothing (hrest.trans hinner)
  | about hplace hcovers hnext hmore => exact .about (hplace.trans hinner) hcovers hnext hmore

theorem suffix (hpassing : Passing shift tokens errors rest) : rest <:+ tokens := by
  induction hpassing with
  | nothing hrest => exact hrest
  | about hplace _ hnext _ ih => exact ih.trans (hnext.suffix.trans hplace)

theorem append {middle : List Token} {more : List SyntaxError}
    (hfirst : Passing shift tokens errors middle) (hsecond : Passing shift middle more rest) :
    Passing shift tokens (errors ++ more) rest := by
  induction hfirst with
  | nothing hrest => exact hsecond.mono hrest
  | about hplace hcovers hnext _ ih => exact .about hplace hcovers hnext (ih hsecond)

end Passing

theorem SyntaxError.At.passing {error : SyntaxError} (hat : error.At shift tokens rest) :
    Passing shift tokens [error] (Report.resume 0 rest) := by
  obtain ⟨message, place, hplace, hcovers, rfl, hrest⟩ := hat
  exact .about hplace hcovers (goesOn_resume hrest) (.nothing (List.suffix_refl _))

/-! ## Reports -/

namespace Report

/-- What comes of some tokens, and of the same tokens at other places.  The messages pass along the
tokens, and the moved ones along the moved tokens.  Values go with what is left as told, where the
messages and the `spent` ones from before are counted; so does what is left of a failure. -/
inductive Carried (shift : Shift) (tokens : List Token) (spent : Nat) (enough : Prop)
    (along : α → β → Nat → List Token → Prop) (failing : Nat → List Token → Prop) :
    List SyntaxError × Outcome α → List SyntaxError × Outcome β → Prop where
  | done {errors : List SyntaxError} {value : α} {value' : β} {rest : List Token}
      (hpassing : Passing shift tokens errors rest) (hcovers : shift.Covers rest)
      (halong : along value value' (spent + errors.length) rest) :
      Carried shift tokens spent enough along failing (errors, .done value rest)
        (errors.map (SyntaxError.moved shift.place), .done value' (shift.moved rest))
  | failed {errors : List SyntaxError} {error : SyntaxError} {middle rest : List Token}
      (hpassing : Passing shift tokens errors middle) (hat : error.At shift middle rest)
      (hcovers : shift.Covers rest) (hfailing : failing (spent + errors.length) rest) :
      Carried shift tokens spent enough along failing (errors, .failed error rest)
        (errors.map (SyntaxError.moved shift.place),
          .failed (error.moved shift.place) (shift.moved rest))
  | exhausted (hdepth : ¬enough) (errors : List SyntaxError)
      (result : List SyntaxError × Outcome β) :
      Carried shift tokens spent enough along failing (errors, .exhausted) result

/-- The value is carried along, and the messages and the tokens that are left are together fewer
than the bound. -/
def Along (carry : α → β) (bound : Nat) (value : α) (value' : β) (told : Nat)
    (rest : List Token) : Prop := value' = carry value ∧ told + rest.length < bound

def Within (bound told : Nat) (rest : List Token) : Prop := told + rest.length < bound

theorem within_of_suffix {bound told : Nat} (hrest : rest <:+ tokens)
    (hless : told + tokens.length < bound) : Within bound told rest :=
  (Nat.add_le_add_left hrest.length_le told).trans_lt hless

variable {spent : Nat} {enough : Prop} {along : α → β → Nat → List Token → Prop}
  {failing : Nat → List Token → Prop}

/-- Within another report, which has recorded messages before. -/
theorem Carried.mono {inner : List Token} {first : Nat} {enough' : Prop}
    {along' : α → β → Nat → List Token → Prop} {failing' : Nat → List Token → Prop}
    {result : List SyntaxError × Outcome α} {result' : List SyntaxError × Outcome β}
    (hcarried : Carried shift inner first enough along failing result result')
    (hinner : inner <:+ tokens) (henough : enough' → enough)
    (halong : ∀ value value' told rest, along value value' (first + told) rest →
      along' value value' (spent + told) rest)
    (hfailing : ∀ told rest, failing (first + told) rest → failing' (spent + told) rest) :
    Carried shift tokens spent enough' along' failing' result result' := by
  cases hcarried with
  | done hpassing hcovers hvalue =>
    exact .done (hpassing.mono hinner) hcovers (halong _ _ _ _ hvalue)
  | failed hpassing hat hcovers hleft =>
    exact .failed (hpassing.mono hinner) hat hcovers (hfailing _ _ hleft)
  | exhausted hdepth => exact .exhausted (fun hmore => hdepth (henough hmore)) _ _

theorem Carried.on {first last bound lost : Nat} {enough' : Prop} {carry : α → β}
    {result : List SyntaxError × Outcome α} {result' : List SyntaxError × Outcome β}
    (hcarried : Carried shift tokens 0 enough (Along carry first) (Within last) result result')
    (hbound : spent + first ≤ bound) (hlost : spent + last ≤ lost) (henough : enough' → enough) :
    Carried shift tokens spent enough' (Along carry bound) (Within lost) result result' := by
  refine hcarried.mono (List.suffix_refl _) henough ?_ ?_
  · rintro value value' told rest ⟨hvalue, hless⟩
    exact ⟨hvalue, by omega⟩
  · intro told rest hless
    unfold Within at hless ⊢
    omega

/-- Messages that were recorded before count as spent. -/
theorem Carried.recorded {middle : List Token} {errors : List SyntaxError}
    {result : List SyntaxError × Outcome α} {result' : List SyntaxError × Outcome β}
    (hcarried : Carried shift middle (spent + errors.length) enough along failing result result')
    (herrors : Passing shift tokens errors middle) :
    Carried shift tokens spent enough along failing (errors ++ result.1, result.2)
      (errors.map (SyntaxError.moved shift.place) ++ result'.1, result'.2) := by
  cases hcarried with
  | done hpassing hcovers hvalue =>
    rw [Nat.add_assoc, ← List.length_append] at hvalue
    rw [← List.map_append]
    exact .done (herrors.append hpassing) hcovers hvalue
  | failed hpassing hat hcovers hleft =>
    rw [Nat.add_assoc, ← List.length_append] at hleft
    rw [← List.map_append]
    exact .failed (herrors.append hpassing) hat hcovers hleft
  | exhausted hdepth => exact .exhausted hdepth _ _

theorem carried_pure {value : α} {value' : β} (htokens : shift.Covers tokens)
    (halong : along value value' spent tokens) :
    Carried shift tokens spent enough along failing ((pure value : Report α) tokens)
      ((pure value' : Report β) (shift.moved tokens)) :=
  .done (.nothing (List.suffix_refl _)) htokens halong

/-- A phrase that is carried is carried as a report. -/
theorem carried_phrase {phrase : Phrase α} {phrase' : Phrase β} {tokens' : List Token}
    {first : α → β → List Token → Prop}
    (hphrase : (phrase tokens).Carried shift tokens enough first (phrase' tokens'))
    (halong : ∀ value value' rest, first value value' rest → along value value' spent rest)
    (hfailing : ∀ rest, rest <:+ tokens → failing spent rest) :
    Carried shift tokens spent enough along failing ((liftM phrase : Report α) tokens)
      ((liftM phrase' : Report β) tokens') := by
  change Carried shift tokens spent enough along failing ([], phrase tokens) ([], phrase' tokens')
  generalize phrase tokens = outcome at hphrase
  generalize phrase' tokens' = outcome' at hphrase
  cases hphrase with
  | done hrest hcovers hvalue =>
    exact .done (.nothing hrest) hcovers (halong _ _ _ hvalue)
  | failed hcovers hat =>
    exact .failed (.nothing (List.suffix_refl _)) hat hcovers (hfailing _ hat.suffix)
  | exhausted hdepth => exact .exhausted hdepth _ _

theorem carried_unexpected (message : String) (htokens : shift.Covers tokens)
    (hfailing : ∀ rest, rest <:+ tokens → failing spent rest) :
    Carried shift tokens spent enough along failing
      ((liftM (Phrase.unexpected (nextToken tokens) message : Phrase α) : Report α) tokens)
      ((liftM (Phrase.unexpected ((nextToken tokens).moved shift.place) message : Phrase β) :
        Report β) (shift.moved tokens)) := by
  have hphrase : ((Phrase.unexpected (nextToken tokens) message : Phrase α) tokens).Carried shift
      tokens enough (fun _ _ _ => False)
      ((Phrase.unexpected ((nextToken tokens).moved shift.place) message : Phrase β)
        (shift.moved tokens)) := Phrase.carried_unexpected message htokens
  exact carried_phrase hphrase (fun _ _ _ hnever => hnever.elim) hfailing

theorem carried_lift {phrase : Phrase α} {phrase' : Phrase β} {tokens' : List Token}
    {carry : α → β} {bound lost : Nat}
    (hphrase : (phrase tokens).Carried shift tokens enough (Outcome.Along carry bound)
      (phrase' tokens'))
    (hlost : spent + tokens.length < lost) :
    Carried shift tokens spent enough (Along carry (spent + bound)) (Within lost)
      ((liftM phrase : Report α) tokens) ((liftM phrase' : Report β) tokens') :=
  carried_phrase hphrase (fun _ _ _ halong => ⟨halong.1, Nat.add_lt_add_left halong.2 spent⟩)
    fun _ hrest => within_of_suffix hrest hlost

/-- What follows reads on from what is left. -/
theorem carried_then {report : Report γ} {report' : Report δ} {next : γ → Report α}
    {next' : δ → Report β} {tokens' : List Token} {first : γ → δ → Nat → List Token → Prop}
    (hfirst : Carried shift tokens spent enough first failing (report tokens) (report' tokens'))
    (hnext : ∀ value value' told rest, shift.Covers rest → first value value' told rest →
      Carried shift rest told enough along failing (next value rest)
        (next' value' (shift.moved rest))) :
    Carried shift tokens spent enough along failing ((report >>= next) tokens)
      ((report' >>= next') tokens') := by
  simp only [bind]
  generalize report tokens = result at hfirst
  generalize report' tokens' = result' at hfirst
  cases hfirst with
  | done hpassing hcovers hvalue => exact (hnext _ _ _ _ hcovers hvalue).recorded hpassing
  | failed hpassing hat hcovers hleft => exact .failed hpassing hat hcovers hleft
  | exhausted hdepth => exact .exhausted hdepth _ _

/-- Two reports in a row, the second on what the first leaves. -/
theorem carried_bind {report : Report γ} {report' : Report δ} {next : γ → Report α}
    {next' : δ → Report β} {tokens' : List Token} {carry : γ → δ} {bound : Nat}
    (hfirst : Carried shift tokens spent enough (Along carry bound) failing (report tokens)
      (report' tokens'))
    (hnext : ∀ value told rest, shift.Covers rest → told + rest.length < bound →
      Carried shift rest told enough along failing (next value rest)
        (next' (carry value) (shift.moved rest))) :
    Carried shift tokens spent enough along failing ((report >>= next) tokens)
      ((report' >>= next') tokens') := by
  refine carried_then hfirst ?_
  rintro value _ told rest hcovers ⟨rfl, hless⟩
  exact hnext value told rest hcovers hless

theorem carried_choice {condition : Prop} [Decidable condition] {first second : Report α}
    {first' second' : Report β} {inner tokens' : List Token}
    (hfirst : condition → Carried shift tokens spent enough along failing (first inner)
      (first' tokens'))
    (hsecond : ¬condition → Carried shift tokens spent enough along failing (second inner)
      (second' tokens')) :
    Carried shift tokens spent enough along failing ((if condition then first else second) inner)
      ((if condition then first' else second') tokens') := by
  by_cases hcondition : condition
  · rw [if_pos hcondition, if_pos hcondition]
    exact hfirst hcondition
  · rw [if_neg hcondition, if_neg hcondition]
    exact hsecond hcondition

theorem carried_peek {next : Token → Report α} {next' : Token → Report β}
    (htokens : shift.Covers tokens)
    (hnext : Carried shift tokens spent enough along failing (next (nextToken tokens) tokens)
      (next' ((nextToken tokens).moved shift.place) (shift.moved tokens))) :
    Carried shift tokens spent enough along failing
      (((liftM Phrase.peek : Report Token) >>= next) tokens)
      (((liftM Phrase.peek : Report Token) >>= next') (shift.moved tokens)) := by
  rw [peek_bind, peek_bind, shift.next htokens]
  exact hnext

/-- The tokens before the rest have been taken. -/
theorem Carried.behind {result : List SyntaxError × Outcome α}
    {result' : List SyntaxError × Outcome β}
    (hcarried : Carried shift rest spent enough along failing result result')
    (hrest : rest <:+ tokens) : Carried shift tokens spent enough along failing result result' :=
  hcarried.mono hrest id (fun _ _ _ _ halong => halong) fun _ _ hfailing => hfailing

theorem carried_advance {next : Unit → Report α} {next' : Unit → Report β}
    (htokens : shift.Covers tokens) (hkind : (nextToken tokens).kind ≠ .eof)
    (hnext : shift.Covers tokens.tail → tokens.tail.length < tokens.length →
      Carried shift tokens.tail spent enough along failing (next () tokens.tail)
        (next' () (shift.moved tokens.tail))) :
    Carried shift tokens spent enough along failing
      (((liftM Phrase.advance : Report Unit) >>= next) tokens)
      (((liftM Phrase.advance : Report Unit) >>= next') (shift.moved tokens)) := by
  rw [advance_bind, advance_bind, ← List.map_tail]
  exact (hnext (shift.tail htokens hkind) (tail_length_lt hkind)).behind (List.tail_suffix tokens)

/-- A message about the token that was just taken. -/
theorem carried_record {next : Unit → Report α} {next' : Unit → Report β} (message : String)
    (htokens : shift.Covers tokens) (hkind : (nextToken tokens).kind ≠ .eof)
    (hnext : shift.Covers tokens.tail → tokens.tail.length < tokens.length →
      Carried shift tokens.tail (spent + 1) enough along failing (next () tokens.tail)
        (next' () (shift.moved tokens.tail))) :
    Carried shift tokens spent enough along failing
      ((do
        liftM Phrase.advance
        record (.about message (nextToken tokens)) >>= next : Report α) tokens)
      ((do
        liftM Phrase.advance
        record (.about message ((nextToken tokens).moved shift.place)) >>= next' : Report β)
        (shift.moved tokens)) := by
  rw [advance_bind, advance_bind, ← List.map_tail]
  have htold : Passing shift tokens [.about message (nextToken tokens)] tokens.tail :=
    .about (List.suffix_refl _) htokens (.inl (List.suffix_refl _)) (.nothing (List.suffix_refl _))
  exact (hnext (shift.tail htokens hkind) (tail_length_lt hkind)).recorded htold

theorem carried_skipNewlines {next : Unit → Report α} {next' : Unit → Report β}
    (htokens : shift.Covers tokens)
    (hnext : ∀ rest, shift.Covers rest → rest.length ≤ tokens.length →
      Carried shift rest spent enough along failing (next () rest) (next' () (shift.moved rest))) :
    Carried shift tokens spent enough along failing
      (((liftM Phrase.skipNewlines : Report Unit) >>= next) tokens)
      (((liftM Phrase.skipNewlines : Report Unit) >>= next') (shift.moved tokens)) := by
  have hrest : tokens.dropWhile (·.kind = .newline) <:+ tokens := List.dropWhile_suffix _
  rw [skipNewlines_bind, skipNewlines_bind, List.dropWhile_map]
  exact (hnext _ (shift.dropWhile htokens fun token heof => by simp [heof]) hrest.length_le).behind
    hrest

/-- Behind skipped terminators there is something else, and from there on the report is carried. -/
theorem carried_skipTerminators {next : Unit → Report α} {next' : Unit → Report β}
    (htokens : shift.Covers tokens)
    (hnext : ∀ rest, shift.Covers rest → rest.length ≤ tokens.length →
      (nextToken rest).kind.isTerminator = false →
      Carried shift rest spent enough along failing (next () rest) (next' () (shift.moved rest))) :
    Carried shift tokens spent enough along failing
      (((liftM Phrase.skipTerminators : Report Unit) >>= next) tokens)
      (((liftM Phrase.skipTerminators : Report Unit) >>= next') (shift.moved tokens)) := by
  have hrest : tokens.dropWhile (·.kind.isTerminator) <:+ tokens := List.dropWhile_suffix _
  have hcovers : shift.Covers (tokens.dropWhile (·.kind.isTerminator)) :=
    shift.dropWhile htokens fun token heof => by simp [heof, TokenKind.isTerminator]
  rw [skipTerminators_bind, skipTerminators_bind, List.dropWhile_map]
  exact (hnext _ hcovers hrest.length_le (isTerminator_dropWhile tokens)).behind hrest

/-! ## Reports on all tokens -/

section

variable {carry : α → β} {needed slack lost depth : Nat} {report : Report α} {report' : Report β}

/-- On all tokens, and on the same at other places, values are carried along.  So much depth is
needed beside sixteen for each token.  There are no more messages than tokens taken, and one token
more is taken if there is no slack, or if the report fails and nothing may be lost. -/
def Carries (shift : Shift) (carry : α → β) (needed slack lost depth : Nat) (report : Report α)
    (report' : Report β) : Prop :=
  ∀ tokens, shift.Covers tokens →
    Carried shift tokens 0 (16 * tokens.length + needed ≤ depth)
      (Along carry (tokens.length + slack)) (Within (tokens.length + lost)) (report tokens)
      (report' (shift.moved tokens))

theorem carries_exhausted (hreport : ∀ tokens, report tokens = ([], .exhausted)) :
    report.Carries shift carry (needed + 1) slack lost 0 report' := by
  intro tokens htokens
  rw [hreport]
  exact .exhausted (Nat.not_succ_le_zero _) _ _

/-- Within another report, on what is left then. -/
theorem Carries.on (hreport : report.Carries shift carry needed slack lost depth report')
    {bound least : Nat} (hrest : shift.Covers rest) (hbound : spent + rest.length + slack ≤ bound)
    (hleast : spent + rest.length + lost ≤ least)
    (henough : enough → 16 * rest.length + needed ≤ depth) :
    Carried shift rest spent enough (Along carry bound) (Within least) (report rest)
      (report' (shift.moved rest)) :=
  (hreport rest hrest).on (by omega) (by omega) henough

/-- How a round ends goes along: another one follows only if a token was taken, and every message
is paid for by a token. -/
inductive Pays {Result Result' : Type} (carry : Result → Result') (tokens : List Token)
    (bound : Nat) : Turn Unit Result → Turn Unit Result' → Nat → List Token → Prop where
  | again {finish : Result → Result} {finish' : Result' → Result'} {told : Nat}
      {rest : List Token} (hless : rest.length < tokens.length)
      (hpaid : told + rest.length ≤ tokens.length)
      (hfinish : ∀ result, finish' (carry result) = carry (finish result)) :
      Pays carry tokens bound (.again () finish) (.again () finish') told rest
  | leave {result : Result} {told : Nat} {rest : List Token} (hless : told + rest.length < bound) :
      Pays carry tokens bound (.leave result) (.leave (carry result)) told rest

variable {round : Report (Turn Unit α)} {round' : Report (Turn Unit β)}

/-- On all tokens, and on the same at other places, the round ends alike. -/
def CarriesRound (shift : Shift) (carry : α → β) (needed slack lost depth : Nat)
    (round : Report (Turn Unit α)) (round' : Report (Turn Unit β)) : Prop :=
  ∀ tokens, shift.Covers tokens →
    Carried shift tokens 0 (16 * tokens.length + needed ≤ depth)
      (Pays carry tokens (tokens.length + slack)) (Within (tokens.length + lost)) (round tokens)
      (round' (shift.moved tokens))

/-- What holds of a round holds of the loop, for another round begins with fewer tokens. -/
theorem CarriesRound.follow
    (hround : CarriesRound shift carry needed slack lost depth round round')
    (hloop : report.Carries shift carry (needed + 1) slack lost depth report') :
    (round >>= Turn.follow fun _ => report).Carries shift carry (needed + 1) slack lost (depth + 1)
      (round' >>= Turn.follow fun _ => report') := by
  intro tokens htokens
  refine carried_then ((hround tokens htokens).mono (List.suffix_refl _) Nat.le_of_succ_le_succ
    (fun _ _ _ _ hpays => hpays) fun _ _ hfailing => hfailing) ?_
  rintro _ _ told rest hrest (⟨hless, hpaid, hfinish⟩ | hless)
  · rw [Turn.follow, Turn.follow, map_eq_pure_bind, map_eq_pure_bind]
    refine carried_bind (hloop.on hrest le_rfl (by omega) (by omega))
      fun result last final hfinal hshorter => ?_
    exact carried_pure hfinal ⟨hfinish result, by omega⟩
  · exact carried_pure hrest ⟨rfl, hless⟩

end

end Report

end MetricScript
