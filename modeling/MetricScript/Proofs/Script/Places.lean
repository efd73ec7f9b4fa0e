import MetricScript.Proofs.Script.Commands
import MetricScript.Proofs.Script.Rendering

/-!
# Parsing does not look at places

Moving the tokens of a script moves the places in what comes of parsing it, messages included, and
changes nothing else.  So parsing the same words set out otherwise gives the same tree up to
places, and what is parsed behind other lines is what is parsed alone, further down.
-/

namespace MetricScript

variable {move : Position → Position}

def Parsed.moved (move : Position → Position) : Parsed → Parsed
  | .script commands => .script (Command.movedAll move commands)
  | .errors messages => .errors (messages.map (SyntaxError.moved move))
  | .endless => .endless

/-! ## Scripts -/

/-- What a script comes to, from what reading its commands comes to. -/
def Parsed.ofReport : List SyntaxError × Outcome Script → Parsed
  | ([], .done commands _) => .script commands
  | (messages, .done _ _) => .errors messages
  | (messages, .failed message _) => .errors (messages ++ [message])
  | (_, .exhausted) => .endless

theorem parseTokens_eq (tokens : List Token) :
    parseTokens tokens = .ofReport (Parse.scriptCommands (Parse.depthFor tokens) tokens) := rfl

/-- What both runs give as a script or as messages differs by the positions alone. -/
theorem Report.Carried.parsed {shift : Shift} {tokens : List Token} {spent bound : Nat}
    {enough : Prop} {failing : Nat → List Token → Prop}
    {result result' : List SyntaxError × Outcome Script}
    (hcarried : Report.Carried shift tokens spent enough
      (Report.Along (Command.movedAll shift.place) bound) failing result result')
    (henough : enough) :
    Parsed.ofReport result' = (Parsed.ofReport result).moved shift.place := by
  cases hcarried with
  | @done errors commands _ rest _ _ halong =>
    obtain ⟨rfl, -⟩ := halong
    cases errors <;> rfl
  | @failed errors => cases errors <;> simp [Parsed.ofReport, Parsed.moved]
  | exhausted hless => exact absurd henough hless

/-- Parsing gives the same for every depth that suffices, and only places move. -/
theorem Parse.scriptCommands_moved {tokens : List Token} (htokens : Closed tokens) {depth : Nat}
    (hdepth : depthFor tokens ≤ depth) :
    Parsed.ofReport (scriptCommands depth (tokens.map (Token.moved move))) =
      (parseTokens tokens).moved move := by
  have hcovers : (Shift.ofMove move).Covers tokens := htokens
  refine (scriptCommands_carries (depthFor tokens) hdepth tokens hcovers).parsed ?_
  unfold depthFor
  omega

/-- Moving the tokens of a script moves the places of what is parsed. -/
theorem parseTokens_moved (move : Position → Position) {tokens : List Token}
    (htokens : Closed tokens) :
    parseTokens (tokens.map (Token.moved move)) = (parseTokens tokens).moved move := by
  rw [parseTokens_eq]
  exact Parse.scriptCommands_moved htokens (by rw [Parse.depthFor, Parse.depthFor, List.length_map])

/-! ## Forgetting places -/

namespace Expr

mutual

theorem moved_start : (value : Expr) → value.moved (fun _ => .start) = value.unplaced
  | literal _ _ | var _ _ | global _ | storage _ => rfl
  | array _ items => congrArg (array .start) (movedItems_start items)
  | map _ entries => congrArg (map .start) (movedEntries_start entries)
  | binary _ operator left right =>
      congrArg₂ (binary .start operator) left.moved_start right.moved_start
  | unary _ operator operand => congrArg (unary .start operator) operand.moved_start
  | property _ target name => congrArg (property .start · name) target.moved_start
  | call _ target arguments =>
      congrArg₂ (call .start) target.moved_start (movedArguments_start arguments)
termination_by structural value => value

theorem movedItems_start : (items : List Expr) →
    movedItems (fun _ => .start) items = unplacedItems items
  | [] => rfl
  | item :: rest => congrArg₂ List.cons item.moved_start (movedItems_start rest)
termination_by structural items => items

theorem movedEntries_start : (entries : List (String × Expr)) →
    movedEntries (fun _ => .start) entries = unplacedEntries entries
  | [] => rfl
  | (key, value) :: rest =>
      congrArg₂ List.cons (congrArg (key, ·) value.moved_start) (movedEntries_start rest)
termination_by structural entries => entries

theorem movedArguments_start : (arguments : List (Option String × Expr)) →
    movedArguments (fun _ => .start) arguments = unplacedArguments arguments
  | [] => rfl
  | (name, value) :: rest =>
      congrArg₂ List.cons (congrArg (name, ·) value.moved_start) (movedArguments_start rest)
termination_by structural arguments => arguments

end

end Expr

namespace Command

mutual

theorem moved_start : (command : Command) → command.moved (fun _ => .start) = command.unplaced
  | setVariable name value => congrArg (setVariable name) value.moved_start
  | setOutput name value => congrArg (setOutput name) value.moved_start
  | evaluate value => congrArg evaluate value.moved_start
  | ifElse condition thenBranch elseBranch => by
      rw [moved, unplaced, condition.moved_start, movedAll_start thenBranch,
        movedAll_start elseBranch]
  | whileLoop condition body =>
      congrArg₂ whileLoop condition.moved_start (movedAll_start body)
termination_by structural command => command

theorem movedAll_start : (commands : List Command) →
    movedAll (fun _ => .start) commands = unplacedAll commands
  | [] => rfl
  | command :: rest => congrArg₂ List.cons command.moved_start (movedAll_start rest)
termination_by structural commands => commands

end

theorem movedAll_eq_map (move : Position → Position) (commands : List Command) :
    movedAll move commands = commands.map (Command.moved move) := by
  induction commands with
  | nil => rfl
  | cons command rest ih => rw [movedAll, ih, List.map_cons]

end Command

/-- Only kinds and texts of tokens count for the tree of a script. -/
theorem unplacedAll_of_wordOf {tokens tokens' : List Token} (htokens : Closed tokens)
    (htokens' : Closed tokens')
    (hwords : tokens'.map Rendering.wordOf = tokens.map Rendering.wordOf) {commands : Script}
    (hparse : parseTokens tokens = .script commands) :
    ∃ commands', parseTokens tokens' = .script commands' ∧
      Command.unplacedAll commands' = Command.unplacedAll commands := by
  have hforget (tokens : List Token) : tokens.map (Token.moved fun _ => .start) =
      (tokens.map Rendering.wordOf).map fun word => ⟨word.kind, word.text, .start⟩ := by
    rw [List.map_map]
    rfl
  have hsame : (parseTokens tokens').moved (fun _ => .start) =
      (parseTokens tokens).moved fun _ => .start := by
    calc (parseTokens tokens').moved (fun _ => .start)
        = parseTokens (tokens'.map (Token.moved fun _ => .start)) :=
          (parseTokens_moved _ htokens').symm
      _ = parseTokens (tokens.map (Token.moved fun _ => .start)) := by
          rw [hforget, hforget, hwords]
      _ = (parseTokens tokens).moved fun _ => .start := parseTokens_moved _ htokens
  rw [hparse] at hsame
  cases hother : parseTokens tokens' with
  | script commands' =>
    rw [hother] at hsame
    have hcommands := Parsed.script.inj hsame
    rw [Command.movedAll_start, Command.movedAll_start] at hcommands
    exact ⟨commands', rfl, hcommands⟩
  | errors | endless =>
    rw [hother] at hsame
    cases hsame

end MetricScript
