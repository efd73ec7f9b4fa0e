import MetricScript.Proofs.Script.Soundness
import MetricScript.Proofs.Script.RoundTrip

/-!
# Every node covers tokens of its own

The nodes of a derived tree are derived themselves, each from a run of tokens inside the
tokens of the whole, and each stands at the first token of its run.  A bare name makes two
nodes of one token: the property and the global object that it belongs to.
-/

namespace MetricScript

namespace Expr

mutual

/-- The nodes of a tree, the tree itself first. -/
def nodes : Expr → List Expr
  | literal place value => [literal place value]
  | array place items => array place items :: itemNodes items
  | map place entries => map place entries :: entryNodes entries
  | var place name => [var place name]
  | binary place operator left right =>
      binary place operator left right :: (left.nodes ++ right.nodes)
  | unary place operator operand => unary place operator operand :: operand.nodes
  | property place target name => property place target name :: target.nodes
  | call place target arguments =>
      call place target arguments :: (target.nodes ++ argumentNodes arguments)
  | global place => [global place]
  | storage place => [storage place]
termination_by structural expression => expression

def itemNodes : List Expr → List Expr
  | [] => []
  | item :: rest => item.nodes ++ itemNodes rest
termination_by structural items => items

def entryNodes : List (String × Expr) → List Expr
  | [] => []
  | (_, value) :: rest => value.nodes ++ entryNodes rest
termination_by structural entries => entries

def argumentNodes : List (Option String × Expr) → List Expr
  | [] => []
  | (_, value) :: rest => value.nodes ++ argumentNodes rest
termination_by structural arguments => arguments

end

theorem nodes_movedTo (place : Position) (value : Expr) :
    (value.movedTo place).nodes = value.movedTo place :: value.nodes.tail := by
  cases value <;> rfl

end Expr

namespace Command

mutual

def nodes : Command → List Expr
  | setVariable _ value | setOutput _ value | evaluate value => value.nodes
  | ifElse condition thenBranch elseBranch =>
      condition.nodes ++ (allNodes thenBranch ++ allNodes elseBranch)
  | whileLoop condition body => condition.nodes ++ allNodes body
termination_by structural command => command

def allNodes : List Command → List Expr
  | [] => []
  | command :: rest => command.nodes ++ allNodes rest
termination_by structural commands => commands

end

end Command

namespace Grammar

/-- The tokens are a derivation of the node; the global object covers the bare name that it
stands behind. -/
def Covers (own : List Token) (node : Expr) : Prop :=
  Expression own node ∨
    ∃ token : Token, own = [token] ∧ token.kind = .identifier ∧ node = .global token.position

def AllCover (own : List Token) (nodes : List Expr) : Prop :=
  ∀ node ∈ nodes, ∃ mine, mine <:+: own ∧ Covers mine node

theorem Covers.anchored {own : List Token} {node : Expr} (hcovers : Covers own node) :
    own ≠ [] ∧ node.position = anchor own := by
  rcases hcovers with hderived | ⟨token, rfl, _, rfl⟩
  · exact hderived.anchored
  · exact ⟨List.cons_ne_nil _ _, rfl⟩

@[simp]
theorem allCover_nil (own : List Token) : AllCover own [] := fun _ hmem => nomatch hmem

@[simp]
theorem allCover_cons (own : List Token) (node : Expr) (nodes : List Expr) :
    AllCover own (node :: nodes) ↔ (∃ mine, mine <:+: own ∧ Covers mine node) ∧
      AllCover own nodes :=
  List.forall_mem_cons

@[simp]
theorem allCover_append (own : List Token) (left right : List Expr) :
    AllCover own (left ++ right) ↔ AllCover own left ∧ AllCover own right :=
  List.forall_mem_append

theorem AllCover.mono {own more : List Token} {nodes : List Expr} (hnodes : AllCover own nodes)
    (hinside : own <:+: more) : AllCover more nodes := by
  intro node hmem
  obtain ⟨mine, hmine, hcovers⟩ := hnodes node hmem
  exact ⟨mine, hmine.trans hinside, hcovers⟩

theorem expression_of_binary {levels : List Parse.Level} {own : List Token} {value : Expr}
    (hlevels : levels <:+ Parse.levels) (hvalue : Binary levels own value) :
    Expression own value := by
  obtain ⟨looser, hlooser⟩ := hlevels
  unfold Expression
  rw [← hlooser]
  clear hlooser
  induction looser with
  | nil => exact hvalue
  | cons level looser ih => exact .tighter ih

theorem expression_of_suffixed {own : List Token} {value : Expr} (hvalue : Suffixed own value) :
    Expression own value :=
  expression_of_binary (List.nil_suffix) (.operand (.plain hvalue))

theorem expression_of_primary {own : List Token} {value : Expr} (hvalue : Primary own value) :
    Expression own value :=
  expression_of_suffixed (.plain hvalue)

/-- A tree covers all its tokens if the nodes below its root cover some of them. -/
theorem allCover_root {own : List Token} {value : Expr} {below : List Expr}
    (hvalue : Expression own value) (hbelow : AllCover own below) :
    AllCover own (value :: below) := by
  simpa using ⟨⟨own, List.infix_rfl, .inl hvalue⟩, hbelow⟩

theorem AllCover.before {own : List Token} {nodes : List Expr} (hnodes : AllCover own nodes)
    {rest : List Token} : AllCover (own ++ rest) nodes :=
  hnodes.mono (List.prefix_append own rest).isInfix

theorem AllCover.after {own : List Token} {nodes : List Expr} (hnodes : AllCover own nodes)
    {front : List Token} : AllCover (front ++ own) nodes :=
  hnodes.mono (List.suffix_append front own).isInfix

theorem AllCover.behind {own : List Token} {nodes : List Expr} (hnodes : AllCover own nodes)
    {token : Token} : AllCover (token :: own) nodes :=
  hnodes.mono (List.suffix_cons token own).isInfix

mutual

theorem Binary.allCover {levels : List Parse.Level} (hlevels : levels <:+ Parse.levels)
    {own : List Token} {value : Expr} : Binary levels own value → AllCover own value.nodes
  | .operand hvalue => hvalue.allCover
  | .tighter hvalue => hvalue.allCover ((List.suffix_cons _ _).trans hlevels)
  | .joined hleft hsign hright => by
      refine allCover_root (expression_of_binary hlevels (.joined hleft hsign hright)) ?_
      have hrightCover := hright.allCover ((List.suffix_cons _ _).trans hlevels)
      simpa using ⟨(hleft.allCover hlevels).before, hrightCover.behind.after⟩

theorem Unary.allCover {own : List Token} {value : Expr} :
    Unary own value → AllCover own value.nodes
  | .plain hvalue => hvalue.allCover
  | .signed hsign hvalue =>
      allCover_root (expression_of_binary List.nil_suffix (.operand (.signed hsign hvalue)))
        hvalue.allCover.behind

theorem Suffixed.allCover {own : List Token} {value : Expr} :
    Suffixed own value → AllCover own value.nodes
  | .plain hvalue => hvalue.allCover
  | .property htarget hdot hname =>
      allCover_root (expression_of_suffixed (.property htarget hdot hname))
        htarget.allCover.before
  | .call htarget hopening harguments => by
      refine allCover_root (expression_of_suffixed (.call htarget hopening harguments)) ?_
      simpa using ⟨htarget.allCover.before, harguments.allCover.behind.after⟩

theorem Arguments.allCover {own : List Token} {arguments : List (Option String × Expr)} :
    Arguments own arguments → AllCover own (Expr.argumentNodes arguments)
  | .none _ _ => allCover_nil _
  | .some _ harguments _ => harguments.allCover.after

theorem Argument.allCover {own : List Token} {argument : Option String × Expr} :
    Argument own argument → AllCover own argument.2.nodes
  | .named _ _ hvalue => (hvalue.allCover List.suffix_rfl).behind.behind
  | .unnamed hvalue => hvalue.allCover List.suffix_rfl

theorem ArgumentList.allCover {own : List Token} {arguments : List (Option String × Expr)} :
    ArgumentList own arguments → AllCover own (Expr.argumentNodes arguments)
  | .last hargument _ _ => by
      simpa [Expr.argumentNodes] using hargument.allCover.before
  | .next hargument _ _ _ hrest => by
      simpa [Expr.argumentNodes] using
        ⟨hargument.allCover.before, hrest.allCover.after.behind.after.after⟩

/-- Every expression in an operand stands at the first of its own tokens. -/
theorem Primary.allCover {own : List Token} {value : Expr} :
    Primary own value → AllCover own value.nodes
  | .literal hvalue => allCover_root (expression_of_primary (.literal hvalue)) (allCover_nil _)
  | .var hkind => allCover_root (expression_of_primary (.var hkind)) (allCover_nil _)
  | .storage hkind htext =>
      allCover_root (expression_of_primary (.storage hkind htext)) (allCover_nil _)
  | .name hkind htext => by
      refine allCover_root (expression_of_primary (.name hkind htext)) ?_
      simpa [Expr.nodes] using ⟨_, List.infix_rfl, .inr ⟨_, rfl, hkind, rfl⟩⟩
  | @Primary.group opening closing before own after value
      hopening hbefore hvalue hafter hclosing => by
      have hgroup := Primary.group hopening hbefore hvalue hafter hclosing
      have hinner : AllCover (own ++ (after ++ [closing])) value.nodes :=
        (hvalue.allCover List.suffix_rfl).before
      rw [Expr.nodes_movedTo]
      refine allCover_root (expression_of_primary hgroup) fun node hmem => ?_
      exact hinner.after.behind node (List.mem_of_mem_tail hmem)
  | .array hopening hitems =>
      allCover_root (expression_of_primary (.array hopening hitems)) hitems.allCover.behind
  | .map hopening hentries =>
      allCover_root (expression_of_primary (.map hopening hentries)) hentries.allCover.behind

theorem Items.allCover {own : List Token} {items : List Expr} :
    Items own items → AllCover own (Expr.itemNodes items)
  | .none _ _ => allCover_nil _
  | .some _ hitems => hitems.allCover.after

theorem ItemList.allCover {own : List Token} {items : List Expr} :
    ItemList own items → AllCover own (Expr.itemNodes items)
  | .last hitem _ _ => by
      simpa [Expr.itemNodes] using (hitem.allCover List.suffix_rfl).before
  | .next hitem _ _ _ hrest => by
      simpa [Expr.itemNodes] using ⟨(hitem.allCover List.suffix_rfl).before,
        hrest.allCover.after.behind.after.after⟩

theorem Entries.allCover {own : List Token} {entries : List (String × Expr)} :
    Entries own entries → AllCover own (Expr.entryNodes entries)
  | .none _ _ => allCover_nil _
  | .next _ _ _ _ hvalue _ _ hrest => by
      simpa [Expr.entryNodes] using
        ⟨(hvalue.allCover List.suffix_rfl).before.after.behind.behind.after,
          hrest.allCover.after.after.after.after.behind.behind.after⟩

end

theorem Simple.allCover {own : List Token} {command : Command} (hcommand : Simple own command) :
    AllCover own command.nodes := by
  cases hcommand with
  | setVariable _ _ hvalue | setOutput _ _ hvalue =>
    exact (hvalue.allCover List.suffix_rfl).behind.behind
  | evaluate hvalue => exact hvalue.allCover List.suffix_rfl

mutual

/-- Every expression in a conditional stands at the first of its own tokens. -/
theorem Conditional.allCover {own : List Token} {command : Command} :
    Conditional own command → AllCover own command.nodes
  | .plain _ hcondition hthen => by
      simpa [Command.nodes, Command.allNodes] using
        ⟨(hcondition.allCover List.suffix_rfl).before.behind, hthen.allCover.after.behind⟩
  | .otherwise _ hcondition hthen _ _ helse => by
      simpa [Command.nodes] using
        ⟨(hcondition.allCover List.suffix_rfl).before.behind,
          hthen.allCover.before.after.behind, helse.allCover.behind.after.after.after.behind⟩
  | .chained _ hcondition hthen _ _ helse => by
      simpa [Command.nodes, Command.allNodes] using
        ⟨(hcondition.allCover List.suffix_rfl).before.behind,
          hthen.allCover.before.after.behind, helse.allCover.behind.after.after.after.behind⟩

theorem Compound.allCover {own : List Token} {command : Command} :
    Compound own command → AllCover own command.nodes
  | .conditional hcommand => hcommand.allCover
  | .loop _ hcondition hbody => by
      simpa [Command.nodes] using
        ⟨(hcondition.allCover List.suffix_rfl).before.behind, hbody.allCover.after.behind⟩

theorem Block.allCover {own : List Token} {commands : List Command} :
    Block own commands → AllCover own (Command.allNodes commands)
  | .braces _ _ hcommands _ => hcommands.allCover.before.behind.after

theorem Commands.allCover {own : List Token} {commands : List Command} :
    Commands own commands → AllCover own (Command.allNodes commands)
  | .none _ => allCover_nil _
  | .simple _ hcommand _ hrest => by
      simpa [Command.allNodes] using
        ⟨hcommand.allCover.before.after, hrest.allCover.after.after⟩
  | .compound _ hcommand hrest => by
      simpa [Command.allNodes] using
        ⟨hcommand.allCover.before.after, hrest.allCover.after.after⟩

end

/-- The tokens of a text that parses are a derivation of its commands and nothing else: all
of them are used and none of them is invalid.  Every expression node covers a run of these
tokens and stands at the first of them. -/
theorem script_of_parse {source : String} {commands : MetricScript.Script}
    (hparse : parse source = .script commands) :
    ∃ tokens, tokens? source = some tokens ∧
      (∀ token ∈ tokens, ∀ reason, token.kind ≠ .error reason) ∧ Script tokens commands ∧
      ∀ node ∈ Command.allNodes commands, ∃ own, own <:+: tokens ∧ Covers own node ∧
        own ≠ [] ∧ node.position = anchor own := by
  obtain ⟨own, final, htokens, hfinal, hcommands⟩ := commands_of_parse hparse
  refine ⟨_, htokens, ?_, .commands hcommands hfinal, ?_⟩
  · intro token hmem reason herror
    rcases List.mem_append.1 hmem with hmem | hmem
    · exact nomatch (herror ▸ hcommands.allValid token hmem : isValid (.error reason))
    · rw [List.mem_singleton.1 hmem, hfinal] at herror
      exact nomatch herror
  · intro node hmem
    obtain ⟨mine, hmine, hcovers⟩ := hcommands.allCover.before node hmem
    exact ⟨mine, hmine, hcovers, hcovers.anchored⟩

theorem script_of_parse_nestedDifference :
    ∃ commands, parse "out = $a - ( $b - \"\\\"\" )" = .script commands ∧
      ∃ tokens, tokens? "out = $a - ( $b - \"\\\"\" )" = some tokens ∧
        (∀ token ∈ tokens, ∀ reason, token.kind ≠ .error reason) ∧ Script tokens commands ∧
        ∀ node ∈ Command.allNodes commands, ∃ own, own <:+: tokens ∧ Covers own node ∧
          own ≠ [] ∧ node.position = anchor own := by
  obtain ⟨commands, hparse, _⟩ := Rendering.parse_of_renders
    Rendering.nestedDifference_wellFormed Rendering.nestedDifference_renders
  exact ⟨commands, hparse, script_of_parse hparse⟩

end Grammar

end MetricScript
