import Mathlib
import MetricScript.Proofs.Script.Anchoring
import MetricScript.Proofs.Script.Tiling
import MetricScript.Run.Eval

/-!
# The names in a script stand in its source

Every command of a script that was parsed, also inside conditionals and loops, is derived from a
run of the tokens, and so is every expression.  So what a script assigns to is written there: a
variable by a token that begins with a dollar sign, an entry of the output table by an
identifier, in which there is none.
-/

namespace MetricScript

namespace Command

mutual

/-- The command itself and the commands inside it. -/
def parts : Command → List Command
  | setVariable name value => [setVariable name value]
  | setOutput name value => [setOutput name value]
  | evaluate value => [evaluate value]
  | ifElse condition thenBranch elseBranch =>
      ifElse condition thenBranch elseBranch :: (allParts thenBranch ++ allParts elseBranch)
  | whileLoop condition body => whileLoop condition body :: allParts body
termination_by structural command => command

def allParts : List Command → List Command
  | [] => []
  | command :: rest => command.parts ++ allParts rest
termination_by structural commands => commands

end

end Command

theorem Expr.variableName?_movedTo (place : Position) (value : Expr) :
    (value.movedTo place).variableName? = value.variableName? := by
  cases value <;> rfl

/-! ## Commands and variables are derived from tokens -/

namespace Grammar

/-- The tokens are a derivation of the command. -/
def Spells (own : List Token) (command : Command) : Prop :=
  Simple own command ∨ Compound own command

def AllSpelled (own : List Token) (commands : List Command) : Prop :=
  ∀ command ∈ commands, ∃ mine, mine <:+: own ∧ Spells mine command

theorem allSpelled_nil (own : List Token) : AllSpelled own [] := fun _ hmem => nomatch hmem

@[simp]
theorem allSpelled_append (own : List Token) (left right : List Command) :
    AllSpelled own (left ++ right) ↔ AllSpelled own left ∧ AllSpelled own right :=
  List.forall_mem_append

theorem AllSpelled.mono {own more : List Token} {commands : List Command}
    (hcommands : AllSpelled own commands) (hinside : own <:+: more) : AllSpelled more commands := by
  intro command hmem
  obtain ⟨mine, hmine, hspells⟩ := hcommands command hmem
  exact ⟨mine, hmine.trans hinside, hspells⟩

theorem AllSpelled.before {own : List Token} {commands : List Command}
    (hcommands : AllSpelled own commands) {rest : List Token} : AllSpelled (own ++ rest) commands :=
  hcommands.mono (List.prefix_append own rest).isInfix

theorem AllSpelled.after {own : List Token} {commands : List Command}
    (hcommands : AllSpelled own commands) {front : List Token} :
    AllSpelled (front ++ own) commands :=
  hcommands.mono (List.suffix_append front own).isInfix

theorem AllSpelled.behind {own : List Token} {commands : List Command}
    (hcommands : AllSpelled own commands) {token : Token} : AllSpelled (token :: own) commands :=
  hcommands.mono (List.suffix_cons token own).isInfix

/-- A command covers all its tokens if the commands inside it cover some of them. -/
theorem allSpelled_root {own : List Token} {command : Command} {inside : List Command}
    (hcommand : Spells own command) (hinside : AllSpelled own inside) :
    AllSpelled own (command :: inside) :=
  List.forall_mem_cons.2 ⟨⟨own, List.infix_rfl, hcommand⟩, hinside⟩

theorem Simple.allSpelled {own : List Token} {command : Command} (hcommand : Simple own command) :
    AllSpelled own command.parts := by
  have hroot := allSpelled_root (.inl hcommand) (allSpelled_nil own)
  cases hcommand with
  | setVariable | setOutput | evaluate => exact hroot

mutual

/-- The commands in a conditional are spelled by its tokens. -/
theorem Conditional.allSpelled {own : List Token} {command : Command} :
    Conditional own command → AllSpelled own command.parts
  | .plain hkeyword hcondition hthen => by
    refine allSpelled_root (.inr (.conditional (.plain hkeyword hcondition hthen))) ?_
    exact (allSpelled_append _ _ _).2 ⟨hthen.allSpelled.after.behind, allSpelled_nil _⟩
  | .otherwise hkeyword hcondition hthen hbreaks hotherwise helse => by
    refine allSpelled_root (.inr (.conditional
      (.otherwise hkeyword hcondition hthen hbreaks hotherwise helse))) ?_
    exact (allSpelled_append _ _ _).2 ⟨hthen.allSpelled.before.after.behind,
      helse.allSpelled.behind.after.after.after.behind⟩
  | .chained hkeyword hcondition hthen hbreaks hotherwise helse => by
    refine allSpelled_root (.inr (.conditional
      (.chained hkeyword hcondition hthen hbreaks hotherwise helse))) ?_
    have hinner := (allSpelled_append _ _ _).2 ⟨helse.allSpelled, allSpelled_nil _⟩
    exact (allSpelled_append _ _ _).2 ⟨hthen.allSpelled.before.after.behind,
      hinner.behind.after.after.after.behind⟩

theorem Compound.allSpelled {own : List Token} {command : Command} :
    Compound own command → AllSpelled own command.parts
  | .conditional hcommand => hcommand.allSpelled
  | .loop hkeyword hcondition hbody =>
    allSpelled_root (.inr (.loop hkeyword hcondition hbody)) hbody.allSpelled.after.behind

theorem Block.allSpelled {own : List Token} {commands : List Command} :
    Block own commands → AllSpelled own (Command.allParts commands)
  | .braces _ _ hcommands _ => hcommands.allSpelled.before.behind.after

theorem Commands.allSpelled {own : List Token} {commands : List Command} :
    Commands own commands → AllSpelled own (Command.allParts commands)
  | .none _ => allSpelled_nil _
  | .simple _ hcommand _ hrest => (allSpelled_append _ _ _).2
      ⟨hcommand.allSpelled.before.after, hrest.allSpelled.after.after⟩
  | .compound _ hcommand hrest => (allSpelled_append _ _ _).2
      ⟨hcommand.allSpelled.before.after, hrest.allSpelled.after.after⟩

end

def HasVariable (own : List Token) (name : String) : Prop :=
  ∃ token ∈ own, token.kind = .variableName ∧ token.text = name

theorem HasVariable.mono {own more : List Token} {name : String} (hname : HasVariable own name)
    (hinside : own ⊆ more) : HasVariable more name := by
  obtain ⟨token, hmem, htoken⟩ := hname
  exact ⟨token, hinside hmem, htoken⟩

mutual

/-- An expression that is a variable has a token of its name, perhaps between parentheses. -/
theorem Binary.hasVariable {levels : List Parse.Level} {own : List Token} {value : Expr}
    {name : String} : Binary levels own value → value.variableName? = some name →
    HasVariable own name
  | .operand hvalue, hname => hvalue.hasVariable hname
  | .tighter hvalue, hname => hvalue.hasVariable hname
  | .joined _ _ _, hname => nomatch hname

theorem Unary.hasVariable {own : List Token} {value : Expr} {name : String} :
    Unary own value → value.variableName? = some name → HasVariable own name
  | .plain hvalue, hname => hvalue.hasVariable hname
  | .signed _ _, hname => nomatch hname

theorem Suffixed.hasVariable {own : List Token} {value : Expr} {name : String} :
    Suffixed own value → value.variableName? = some name → HasVariable own name
  | .plain hvalue, hname => hvalue.hasVariable hname
  | .property _ _ _, hname => nomatch hname
  | .call _ _ _, hname => nomatch hname

/-- The name of a variable is the text of one of its tokens. -/
theorem Primary.hasVariable {own : List Token} {value : Expr} {name : String} :
    Primary own value → value.variableName? = some name → HasVariable own name
  | .literal _, hname => nomatch hname
  | .var hkind, hname => ⟨_, List.mem_singleton_self _, hkind, Option.some.inj hname⟩
  | .storage _ _, hname => nomatch hname
  | .name _ _, hname => nomatch hname
  | .group _ _ hvalue _ _, hname => by
    refine (hvalue.hasVariable ((Expr.variableName?_movedTo _ _).symm.trans hname)).mono ?_
    intro token hmem
    simp [hmem]
  | .array _ _, hname => nomatch hname
  | .map _ _, hname => nomatch hname

end

/-- The variables of a script have tokens. -/
theorem Commands.hasVariable {own : List Token} {commands : List Command}
    (hcommands : Commands own commands) {node : Expr} (hnode : node ∈ Command.allNodes commands)
    {name : String} (hname : node.variableName? = some name) : HasVariable own name := by
  obtain ⟨mine, hmine, hcovers⟩ := hcommands.allCover node hnode
  rcases hcovers with hderived | ⟨_, _, _, rfl⟩
  · exact (hderived.hasVariable hname).mono hmine.subset
  · exact nomatch hname

/-- An identifier of this text is assigned to by one of the commands, and its tokens stand among
the given ones. -/
def Assigns (own : List Token) (commands : List Command) (key : String) : Prop :=
  ∃ (name sign : Token) (rest : List Token) (value : Expr), name :: sign :: rest <:+: own ∧
    name.kind = .identifier ∧ name.text = key ∧
    Simple (name :: sign :: rest) (.setOutput key value) ∧
    .setOutput key value ∈ Command.allParts commands

/-- An entry of the output has its name and a colon among the tokens. -/
theorem Commands.assigns {own : List Token} {commands : List Command}
    (hcommands : Commands own commands) {key : String} {value : Expr}
    (hmem : .setOutput key value ∈ Command.allParts commands) : Assigns own commands key := by
  obtain ⟨mine, hmine, hsimple | hcompound⟩ := hcommands.allSpelled _ hmem
  · cases hsimple with
    | setOutput hname hsign hvalue =>
      exact ⟨_, _, _, value, hmine, hname, rfl, .setOutput hname hsign hvalue, hmem⟩
  · cases hcompound with
    | conditional hconditional => cases hconditional

/-- A variable that is assigned to has a token. -/
theorem Commands.hasAssigned {own : List Token} {commands : List Command}
    (hcommands : Commands own commands) {name : String} {value : Expr}
    (hmem : .setVariable name value ∈ Command.allParts commands) : HasVariable own name := by
  obtain ⟨mine, hmine, hsimple | hcompound⟩ := hcommands.allSpelled _ hmem
  · cases hsimple with
    | setVariable hname _ _ => exact ⟨_, hmine.subset List.mem_cons_self, hname, rfl⟩
  · cases hcompound with
    | conditional hconditional => cases hconditional

end Grammar

/-! ## The texts of tokens -/

/-- The tokens of a source have texts that fit their kinds. -/
theorem reads_of_tokens? {source : String} {tokens : List Token}
    (htokens : tokens? source = some tokens) {token : Token} (hmem : token ∈ tokens) :
    ∃ rest, Scan.Reads token.kind token.text.toList rest := by
  obtain ⟨tiles, rfl, _, hlaid⟩ := (Cursor.tokens?_eq_some_iff.1 htokens).tiles rfl
  obtain ⟨tile, htile, rfl⟩ := List.mem_map.1 hmem
  obtain ⟨left, right, hsplit⟩ := List.append_of_mem htile
  exact ⟨_, (hlaid left tile right hsplit).reads⟩

/-- The text of a variable begins with a dollar sign. -/
theorem Scan.Reads.head_of_variableName {text rest : List Char}
    (hreads : Reads .variableName text rest) : text.head? = some '$' := by
  cases hreads with
  | variableName => rfl
  | keyword hkind => exact absurd hkind (by decide)
  | symbol hkind => exact absurd hkind (by decide)

/-- There is no dollar sign in an identifier. -/
theorem Scan.Reads.dollar_notMem {text rest : List Char} (hreads : Reads .identifier text rest) :
    '$' ∉ text := by
  cases hreads with
  | identifier _ _ hrun =>
    intro hmem
    have hdollar : isIdentifierChar '$' = true := hrun.1 '$' hmem
    exact absurd hdollar (by decide)
  | keyword hkind => exact absurd hkind (by decide)
  | symbol hkind => exact absurd hkind (by decide)

end MetricScript
