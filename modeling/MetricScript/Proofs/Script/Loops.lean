import MetricScript.Proofs.Script.Commands
import MetricScript.Proofs.Script.Stream

/-!
# The loops of the parser

Each function of the parser that reads a repetition is the unrolling of rounds, and a round after
which another one follows has taken at least one token, whatever messages there were.  So every
loop ends, and with it parsing, with no more messages than there are tokens.
-/

namespace MetricScript

section

variable {State Result State' Result' : Type}

/-- Another round follows only if a token was taken.  The depth was not `enough` if it was
exhausted in the round. -/
def Turn.Advances (tokens : List Token) (enough : Prop) :
    List SyntaxError × Outcome (Turn State Result) → Prop
  | (_, .done (.again _ _) rest) => rest <:+ tokens ∧ rest.length < tokens.length
  | (_, .done (.leave _) _) => True
  | (_, .failed _ _) => True
  | (_, .exhausted) => ¬enough

variable {shift : Shift} {tokens : List Token} {enough : Prop}

/-- A carried round either leaves the loop or has consumed a token. -/
theorem Report.Carried.advances {carry : Result → Result'} {bound : Nat}
    {failing : Nat → List Token → Prop} {result : List SyntaxError × Outcome (Turn Unit Result)}
    {result' : List SyntaxError × Outcome (Turn Unit Result')}
    (hcarried : Report.Carried shift tokens 0 enough (Report.Pays carry tokens bound) failing
      result result') : Turn.Advances tokens enough result := by
  cases hcarried with
  | done hpassing _ hpays =>
    cases hpays with
    | again hless => exact ⟨hpassing.suffix, hless⟩
    | leave => trivial
  | failed => trivial
  | exhausted hdepth => exact hdepth

theorem Outcome.Carried.advances {carryState : State → State'} {carry : Result → Result'}
    {bound : Nat} {outcome : Outcome (Turn State Result)}
    {outcome' : Outcome (Turn State' Result')}
    (hcarried : outcome.Carried shift tokens enough (Turn.Along carryState carry tokens bound)
      outcome') : Turn.Advances tokens enough ([], outcome) := by
  cases hcarried with
  | done hrest _ halong =>
    cases halong with
    | again hless => exact ⟨hrest, hless⟩
    | leave => trivial
  | failed => trivial
  | exhausted hdepth => exact hdepth

theorem Turn.Advances.mono {enough' : Prop} {result : List SyntaxError × Outcome (Turn State Result)}
    (hadvances : Turn.Advances tokens enough result) (henough : enough' → enough) :
    Turn.Advances tokens enough' result := by
  rcases result with ⟨errors, ⟨_ | _, rest⟩ | ⟨error, rest⟩ | _⟩
  · exact hadvances
  · trivial
  · trivial
  · exact fun hmore => hadvances (henough hmore)

end

namespace Parse

open Phrase

inductive Loop where
  /-- The commands of a script. -/
  | script
  /-- The commands of a block. -/
  | block
  /-- The tokens that are skipped behind a faulty command. -/
  | recovery
  /-- The operands of one level of operators. -/
  | operands (level : Level) (tighter : List Level) (hlevels : level :: tighter <:+ levels)
  /-- The property accesses and calls behind an expression. -/
  | suffixes
  /-- The arguments of a call. -/
  | arguments
  /-- The items of an array. -/
  | items
  /-- The entries of a map. -/
  | entries

namespace Loop

def State : Loop → Type
  | script | block | items | entries => Unit
  | recovery => Nat
  | operands _ _ _ | suffixes => Expr
  | arguments => List String

def Result : Loop → Type
  | script | block => List Command
  | recovery => Unit
  | operands _ _ _ | suffixes => Expr
  | arguments => List (Option String × Expr)
  | items => List Expr
  | entries => List (String × Expr)

def round : (loop : Loop) → Nat → loop.State → Report (Turn loop.State loop.Result)
  | script, depth, _ => scriptRound depth
  | block, depth, _ => blockRound depth
  | recovery, _, braces => recoveryRound braces
  | operands level tighter _, depth, left => operandRound depth level tighter left
  | suffixes, depth, target => suffixRound depth target
  | arguments, depth, used => argumentRound depth used
  | items, depth, _ => itemRound depth
  | entries, depth, _ => entryRound depth

/-- The function of the parser that goes through all rounds of a loop. -/
def run : (loop : Loop) → Nat → loop.State → Report loop.Result
  | script, depth, _ => scriptCommands depth
  | block, depth, _ => blockCommands depth
  | recovery, _, braces => Parse.recovery braces
  | operands level tighter _, depth, left => Parse.operands depth level tighter left
  | suffixes, depth, target => Parse.suffixes depth target
  | arguments, depth, used => argumentList depth used
  | items, depth, _ => itemList depth
  | entries, depth, _ => entryList depth

/-- Each function that goes through a loop is the unrolling of its rounds. -/
theorem run_succ (loop : Loop) (depth : Nat) (state : loop.State) :
    loop.run (depth + 1) state = loop.round depth state >>= Turn.follow (loop.run depth) := by
  cases loop with
  | script => exact scriptCommands_succ depth
  | block => exact blockCommands_succ depth
  | recovery => exact (congrArg liftM (recovery_eq state)).trans (lift_follow _ _)
  | operands level tighter hlevels =>
    exact (congrArg liftM (operands_succ depth level tighter state)).trans (lift_follow _ _)
  | suffixes => exact (congrArg liftM (suffixes_succ depth state)).trans (lift_follow _ _)
  | arguments => exact (congrArg liftM (argumentList_succ depth state)).trans (lift_follow _ _)
  | items => exact (congrArg liftM (itemList_succ depth)).trans (lift_follow _ _)
  | entries => exact (congrArg liftM (entryList_succ depth)).trans (lift_follow _ _)

/-! ## A round takes a token or leaves the loop -/

/-- A round of the recovery either leaves or skips a token. -/
theorem recoveryRound_advances (braces : Nat) (tokens : List Token) (enough : Prop) :
    Turn.Advances tokens enough
      ((liftM (recoveryRound braces) : Report (Turn Nat Unit)) tokens) := by
  change Turn.Advances tokens enough ([], recoveryRound braces tokens)
  rw [recoveryRound, peek_bind]
  generalize hkind : (nextToken tokens).kind = kind
  have hskipped (hend : kind ≠ .eof) (inner : Nat) :
      Turn.Advances tokens enough
        ([], (.done (.again inner id) tokens.tail : Outcome (Turn Nat Unit))) :=
    ⟨List.tail_suffix tokens, tail_length_lt (ne_of_eq_of_ne hkind hend)⟩
  split
  · trivial
  · rw [choice_apply]
    split
    · trivial
    · exact hskipped (by decide) _
  · exact hskipped (by decide) _
  iterate 2
    rw [advance_bind]
    split
    · trivial
    · exact hskipped (by decide) _
  · next hend _ _ _ _ => exact hskipped hend _

/-- A round after which another one follows has taken a token. -/
theorem round_advances (loop : Loop) (depth : Nat) (state : loop.State) (tokens : List Token) :
    Turn.Advances tokens (16 * tokens.length + 12 ≤ depth) (loop.round depth state tokens) := by
  have hcommand (ahead : List Token) :
      Shift.still.Covers ahead → CarriesCommand .still depth depth ahead :=
    command_carries depth le_rfl
  have hcovers : Shift.still.Covers tokens := trivial
  cases loop with
  | script => exact (scriptRound_carries hcommand tokens hcovers).advances.mono Nat.le_of_succ_le
  | block => exact (blockRound_carries hcommand tokens hcovers).advances.mono Nat.le_of_succ_le
  | recovery => exact recoveryRound_advances state tokens _
  | operands level tighter hlevels =>
    obtain ⟨hlevel, htighter⟩ := List.forall_mem_cons.1 fun other hother =>
      skipEnd_levels other (hlevels.subset hother)
    have hsix : tighter.length < 6 := hlevels.length_le
    exact (operandRound_carries hlevel (binary_carries depth le_rfl htighter) state tokens
      hcovers).advances.mono (by omega)
  | suffixes =>
    exact (suffixRound_carries (argumentList_carries depth le_rfl []) state tokens
      hcovers).advances.mono (by omega)
  | arguments =>
    exact (argumentRound_carries (expression_carries depth le_rfl) state tokens
      hcovers).advances.mono (by omega)
  | items =>
    exact (itemRound_carries (expression_carries depth le_rfl) tokens hcovers).advances.mono
      (by omega)
  | entries =>
    exact (entryRound_carries (expression_carries depth le_rfl) tokens hcovers).advances.mono
      (by omega)

end Loop

/-- Newlines are looked over up to the first other token. -/
theorem elseFollows_append {breaks : List Token} (hbreaks : ∀ token ∈ breaks, token.kind = .newline)
    {token : Token} (htoken : token.kind ≠ .newline) (rest : List Token) :
    elseFollows (breaks ++ token :: rest) =
      .done (token.kind = .elseKeyword) (breaks ++ token :: rest) := by
  have hdrop : (breaks ++ token :: rest).dropWhile (·.kind = .newline) = token :: rest := by
    rw [List.dropWhile_append_of_pos (by simpa using hbreaks),
      List.dropWhile_cons_of_neg (by simpa using htoken)]
  rw [elseFollows, hdrop]

end Parse

theorem parseTokens_end {final : Token} (hfinal : final.kind = .eof) :
    parseTokens [final] = .script [] := by
  have hnothing : Parse.scriptCommands (Parse.depthFor [final]) [final] =
      ([], .done [] [final]) := by
    rw [show Parse.depthFor [final] = 31 + 1 from rfl, Parse.scriptCommands,
      Report.skipTerminators_bind, Report.peek_bind,
      List.dropWhile_cons_of_neg (by rw [hfinal]; decide), nextToken_cons, hfinal]
    rfl
  rw [parseTokens, hnothing]

/-- Reading commands comes to an end if the depth suffices. -/
theorem Parse.scriptCommands_ne_exhausted {depth : Nat} {tokens : List Token}
    (hdepth : 16 * tokens.length + 12 ≤ depth) : (scriptCommands depth tokens).2 ≠ .exhausted := by
  have hcovers : Shift.still.Covers tokens := trivial
  intro hexhausted
  have hcarried := scriptCommands_carries depth le_rfl tokens hcovers
  rw [show scriptCommands depth tokens = (_, .exhausted) from Prod.ext rfl hexhausted] at hcarried
  cases hcarried with
  | exhausted hless => exact hless hdepth

/-- There are no more messages than tokens. -/
theorem parseTokens_cases (tokens : List Token) :
    (∃ commands, parseTokens tokens = .script commands) ∨
      ∃ errors, parseTokens tokens = .errors errors ∧ errors.length ≤ tokens.length := by
  have hcovers : Shift.still.Covers tokens := trivial
  have hcarried := Parse.scriptCommands_carries (Parse.depthFor tokens) le_rfl tokens hcovers
  have hdepth : 16 * tokens.length + 12 ≤ Parse.depthFor tokens := by
    unfold Parse.depthFor
    omega
  unfold parseTokens
  generalize Parse.depthFor tokens = depth at hcarried hdepth
  generalize Parse.scriptCommands depth tokens = result at hcarried
  generalize Parse.scriptCommands depth (Shift.still.moved tokens) = result' at hcarried
  cases hcarried with
  | @done errors commands _ rest _ _ halong =>
    obtain ⟨-, hlength⟩ := halong
    cases errors with
    | nil => exact .inl ⟨commands, rfl⟩
    | cons error others => exact .inr ⟨error :: others, rfl, by omega⟩
  | @failed errors error middle rest _ _ _ hfailing =>
    unfold Report.Within at hfailing
    refine .inr ⟨errors ++ [error], by cases errors <;> rfl, ?_⟩
    rw [List.length_append, List.length_singleton]
    omega
  | exhausted hless => exact absurd hdepth hless

/-- **Parsing ends.**  Every function of the parser that goes through a loop is the unrolling of
its rounds.  A round comes to an end, given depth enough, and if another one follows it has
taken at least one token, whatever messages it recorded.  Looking for `else` goes over newlines
and stops at the first other token.  So a source whose token stream ends is parsed, and if it is
faulty there are no more messages than tokens; even without the end token there are at most
twice as many. -/
theorem parse_ends {source : String} {tokens : List Token}
    (hgives : (Cursor.ofSource source).Gives tokens) :
    (∀ (loop : Parse.Loop) (depth : Nat) (state : loop.State),
      loop.run (depth + 1) state = loop.round depth state >>= Turn.follow (loop.run depth)) ∧
    (∀ (loop : Parse.Loop) (depth : Nat) (state : loop.State) (ahead : List Token),
      (16 * ahead.length + 12 ≤ depth → (loop.round depth state ahead).2 ≠ .exhausted) ∧
      ∀ next finish rest, (loop.round depth state ahead).2 = .done (.again next finish) rest →
        ∃ taken, taken ≠ [] ∧ taken ++ rest = ahead) ∧
    (∀ (breaks : List Token) (token : Token) (rest : List Token),
      (∀ newline ∈ breaks, newline.kind = .newline) → token.kind ≠ .newline →
        Parse.elseFollows (breaks ++ token :: rest) =
          .done (token.kind = .elseKeyword) (breaks ++ token :: rest)) ∧
    (∀ depth, 16 * tokens.length + 12 ≤ depth →
      (Parse.scriptCommands depth tokens).2 ≠ .exhausted) ∧
    ((∃ commands, parse source = .script commands) ∨
      ∃ errors, parse source = .errors errors ∧ errors.length ≤ tokens.length ∧
        errors.length ≤ 2 * (tokens.length - 1)) := by
  refine ⟨Parse.Loop.run_succ, fun loop depth state ahead => ?_,
    fun breaks token rest hbreaks htoken => Parse.elseFollows_append hbreaks htoken rest,
    fun depth hdepth => Parse.scriptCommands_ne_exhausted hdepth, ?_⟩
  · have hadvances := loop.round_advances depth state ahead
    generalize loop.round depth state ahead = result at hadvances
    obtain ⟨errors, outcome⟩ := result
    refine ⟨?_, ?_⟩
    · rintro henough rfl
      exact hadvances henough
    · rintro next finish rest rfl
      obtain ⟨⟨taken, rfl⟩, hlength⟩ := hadvances
      refine ⟨taken, ?_, rfl⟩
      rintro rfl
      exact Nat.lt_irrefl _ hlength
  · have htokens : tokens? source = some tokens := Cursor.tokens?_eq_some_iff.2 hgives
    have hparse : parse source = parseTokens tokens := by rw [parse, htokens]
    rw [hparse]
    refine (parseTokens_cases tokens).imp_right fun ⟨errors, herrors, hlength⟩ =>
      ⟨errors, herrors, hlength, ?_⟩
    obtain ⟨own, final, rfl, hfinal, -⟩ := (hgives.ends rfl).2
    rcases List.eq_nil_or_concat own with rfl | ⟨before, last, rfl⟩
    · -- a stream of nothing but the end is the empty script
      exact nomatch (parseTokens_end hfinal).symm.trans herrors
    · simp only [List.length_append, List.length_concat, List.length_singleton] at hlength ⊢
      omega

theorem parse_ends_strayBrackets :
    ∃ tokens, (Cursor.ofSource "\x7d )").Gives tokens ∧ tokens.length = 3 ∧
      ∃ errors, parse "\x7d )" = .errors errors ∧ errors.length ≤ 3 ∧ errors.length ≤ 4 := by
  have hgives : (Cursor.ofSource "\x7d )").Gives
      [⟨.rightBrace, "\x7d", ⟨1, 1⟩⟩, ⟨.rightParen, ")", ⟨1, 3⟩⟩, ⟨.eof, "", ⟨1, 4⟩⟩] :=
    Cursor.gives_of_firstTokens rfl
  obtain ⟨commands, hscript⟩ | herrors := (parse_ends hgives).2.2.2.2
  · rw [parse, show tokens? "\x7d )" = _ from Cursor.tokens?_eq_some_iff.2 hgives] at hscript
    exact nomatch hscript
  · exact ⟨_, hgives, rfl, herrors⟩

end MetricScript
