import Mathlib
import MetricScript.Run.Eval
import MetricScript.Proofs.Method.Binding
import MetricScript.Proofs.Run.Keeping

/-!
# Maps that are written back

Setting an entry of a map that a variable holds binds the variable again.  The arguments of a call
are evaluated before its receiver is read, and the method is applied at once after that.  So the map
that is changed is the one that the variable holds behind the arguments, whatever they did to it,
and nothing happens in between that could be lost.
-/

namespace MetricScript

open RunM

variable {σ : Type}

namespace RunM

variable {α β ε δ : Type} {run final : Run} {before after : σ}

/-- An action that succeeds went through its first part. -/
theorem exists_of_bind_succeeds {action : RunM (StateM σ) ε α} {next : α → RunM (StateM σ) ε β}
    {result : β}
    (hbind : (outcome (action >>= next) run).run before = ((.ok result, final), after)) :
    ∃ value reached between,
      (outcome action run).run before = ((.ok value, reached), between) ∧
      (outcome (next value) reached).run between = ((.ok result, final), after) := by
  rw [run_outcome_bind] at hbind
  rcases haction : (outcome action run).run before with ⟨⟨error | value, reached⟩, between⟩
  · rw [haction] at hbind
    cases hbind
  · rw [haction] at hbind
    exact ⟨value, reached, between, rfl, hbind⟩

/-- What succeeds with its errors changed succeeds as it is. -/
theorem succeeds_of_mapError {change : ε → δ} {action : RunM (StateM σ) ε α} {result : α}
    (haction : (outcome (mapError change action) run).run before = ((.ok result, final), after)) :
    (outcome action run).run before = ((.ok result, final), after) := by
  rw [outcome_mapError] at haction
  change StateT.run (_ >>= _) before = _ at haction
  rw [StateT.run_bind] at haction
  rcases hended : (outcome action run).run before with ⟨⟨error | value, reached⟩, between⟩
  · rw [hended] at haction
    cases haction
  · rw [hended] at haction
    cases haction
    rfl

end RunM

namespace Expr

variable {provider : Provider (StateM σ)} {run final : Run} {before after : σ}

/-- The expression between parentheses that open at these places, the innermost first. -/
def grouped (parentheses : List Position) (value : Expr) : Expr :=
  parentheses.foldl (fun inner place => inner.movedTo place) value

/-- A variable between parentheses is the variable, said to stand elsewhere. -/
theorem exists_grouped_var (parentheses : List Position) (place : Position) (name : String) :
    ∃ front, (var place name).grouped parentheses = var front name := by
  induction parentheses generalizing place with
  | nil => exact ⟨place, rfl⟩
  | cons opening parentheses ih => exact ih opening

/-- The arguments of a call are evaluated one after the other. -/
theorem exists_of_evaluateArguments_succeeds {name : Option String} {argument : Expr}
    {rest : List (Option String × Expr)} {values : List (Option String × Value)}
    (harguments : (outcome (evaluateArguments provider ((name, argument) :: rest)) run).run before =
      ((.ok values, final), after)) :
    ∃ value reached between others,
      (outcome (argument.data provider) run).run before = ((.ok value, reached), between) ∧
      (outcome (evaluateArguments provider rest) reached).run between =
        ((.ok others, final), after) ∧ values = (name, value) :: others := by
  have hchain : evaluateArguments provider ((name, argument) :: rest) = (do
      let first ← argument.data provider
      let others ← evaluateArguments provider rest
      return (name, first) :: others) := by
    simp only [evaluateArguments, data, bind_assoc]
  rw [hchain] at harguments
  obtain ⟨value, reached, between, hvalue, hmore⟩ := exists_of_bind_succeeds harguments
  obtain ⟨others, left, around, hothers, hvalues⟩ := exists_of_bind_succeeds hmore
  cases hvalues
  exact ⟨value, reached, between, others, hvalue, hothers, rfl⟩

/-- A call evaluates its arguments, then its receiver, and then calls it. -/
theorem exists_of_call_succeeds {place : Position} {target : Expr}
    {arguments : List (Option String × Expr)} {result : Value}
    (hcall : (outcome ((call place target arguments).evaluate provider) run).run before =
      ((.ok result, final), after)) :
    ∃ values reached between method left around,
      (outcome (evaluateArguments provider arguments) run).run before =
        ((.ok values, reached), between) ∧
      (outcome (target.evaluate provider) reached).run between = ((.ok method, left), around) ∧
      (outcome (method.call provider target.text values) left).run around =
        ((.ok result, final), after) := by
  obtain ⟨values, reached, between, hvalues, hmore⟩ := exists_of_bind_succeeds hcall
  obtain ⟨method, left, around, hmethod, hreported⟩ := exists_of_bind_succeeds hmore
  exact ⟨values, reached, between, method, left, around, hvalues, hmethod,
    succeeds_of_mapError hreported⟩

/-- A method of a map that a variable holds is bound to the map and knows the variable. -/
theorem outcome_set_of_var (place front : Position) {name : String} {entries : Table Value}
    (hheld : Table.get? name run.bindings = some (.map entries)) :
    (outcome ((property place (var front name) "set").evaluate provider) run).run before =
      ((.ok (.handle (.method (.ofMap entries (some name) .set))), run), before) := by
  have hvalue : outcome (valueOf name : RunM (StateM σ) Fault Value) run =
      pure (.ok (.map entries), run) := by
    unfold valueOf
    rw [outcome_bind, outcome_current, pure_bind]
    dsimp only
    rw [hheld]
    rfl
  have hread : outcome ((var front name).evaluate provider) run =
      pure (.ok (.map entries), run) := by
    change outcome (mapError _ (valueOf name)) run = _
    rw [outcome_mapError, hvalue, pure_bind]
    rfl
  change (outcome ((var front name).evaluate provider >>= fun value =>
    reported front (settle (value.property "set" (some name)))) run).run before = _
  rw [outcome_bind, hread, pure_bind]
  rfl

end Expr

/-! ## Setting an entry -/

/-- The index and the value of an entry are bound in either order. -/
theorem bindArguments_setEntry (index value : Value) {given : List (Option String × Value)}
    (hgiven : given = [(some "index", index), (some "value", value)] ∨
      given = [(some "value", value), (some "index", index)]) :
    bindArguments MapMethod.set.name MapMethod.set.params given =
      .ok ⟨"set", [("index", .string index.text), ("value", value)]⟩ := by
  rcases hgiven with rfl | rfl
  · rfl
  · rfl

/-- Setting an entry assigns the changed map to the variable it came from. -/
theorem outcome_setEntry {provider : Provider (StateM σ)} {run : Run} {before : σ} (name : String)
    (entries : Table Value) (index value : Value) {given : List (Option String × Value)}
    (hgiven : given = [(some "index", index), (some "value", value)] ∨
      given = [(some "value", value), (some "index", index)]) (shown : String) :
    (outcome ((Value.handle (.method (.ofMap entries (some name) .set))).call provider shown given)
      run).run before =
      ((.ok .null, run.after (.assigned name (.map (Table.insert index.text value entries)))),
        before) := by
  change (outcome (settle (bindArguments MapMethod.set.name MapMethod.set.params given) >>=
    fun arguments => BoundMethod.apply provider arguments (.ofMap entries (some name) .set))
      run).run before = _
  rw [bindArguments_setEntry index value hgiven]
  rfl

/-- **No update of a map is lost.**  If an entry of a map is set that a variable holds, perhaps
between parentheses, then its arguments were evaluated in their order; and if the variable holds a
map behind them, it holds that map with the new entry in the end, and everything else is as the
arguments left it. -/
theorem set_entry_writes_back {provider : Provider (StateM σ)} (name : String)
    (callPlace methodPlace place : Position) (parentheses : List Position)
    {first second : String × Expr} (hnames : first.1 = "index" ∧ second.1 = "value" ∨
      first.1 = "value" ∧ second.1 = "index")
    {run final : Run} {before after : σ} {result : Value}
    (hset : (outcome ((Expr.call callPlace
        (.property methodPlace ((Expr.var place name).grouped parentheses) "set")
        [(some first.1, first.2), (some second.1, second.2)]).evaluate provider) run).run before =
      ((.ok result, final), after)) :
    ∃ firstValue middle between secondValue reached around,
      (outcome (first.2.data provider) run).run before = ((.ok firstValue, middle), between) ∧
      (outcome (second.2.data provider) middle).run between =
        ((.ok secondValue, reached), around) ∧
      ∀ entries, Table.get? name reached.bindings = some (.map entries) →
        ∃ index value, [("index", index), ("value", value)].Perm
            [(first.1, firstValue), (second.1, secondValue)] ∧
          let changed : Value := .map (Table.insert index.text value entries)
          final =
            { reached with
              bindings := Table.insert name changed reached.bindings
              journal := .assigned name changed :: reached.journal } ∧
          after = around := by
  obtain ⟨front, hfront⟩ := Expr.exists_grouped_var parentheses place name
  rw [hfront] at hset
  obtain ⟨values, reached, around, method, left, further, hvalues, hmethod, hcall⟩ :=
    Expr.exists_of_call_succeeds hset
  obtain ⟨firstValue, middle, between, others, hfirst, hmore, rfl⟩ :=
    Expr.exists_of_evaluateArguments_succeeds hvalues
  obtain ⟨secondValue, last, around', more, hsecond, hnone, rfl⟩ :=
    Expr.exists_of_evaluateArguments_succeeds hmore
  cases hnone
  refine ⟨firstValue, middle, between, secondValue, reached, around, hfirst, hsecond, ?_⟩
  intro entries hheld
  rw [Expr.outcome_set_of_var methodPlace front hheld] at hmethod
  cases hmethod
  rcases hnames with ⟨hindex, hvalue⟩ | ⟨hvalue, hindex⟩
  · rw [hindex, hvalue] at hcall ⊢
    rw [outcome_setEntry name entries firstValue secondValue (.inl rfl)] at hcall
    cases hcall
    exact ⟨firstValue, secondValue, .refl _, rfl, rfl⟩
  · rw [hindex, hvalue] at hcall ⊢
    rw [outcome_setEntry name entries secondValue firstValue (.inr rfl)] at hcall
    cases hcall
    exact ⟨secondValue, firstValue, .swap _ _ _, rfl, rfl⟩

/-- The value of the new entry is that of a call that sets another entry of the same map. -/
def setInside : Expr :=
  .call ⟨1, 17⟩ (.property ⟨1, 17⟩ (.var ⟨1, 17⟩ "$m") "set")
    [(some "index", .literal ⟨1, 31⟩ (.string "a")),
      (some "value", .literal ⟨1, 43⟩ (.boolean true))]

/-- An argument that sets an entry of the same map itself. -/
theorem set_entry_writes_back_setInside :
    let provider : Provider (StateM Unit) :=
      ⟨pure 0, fun _ => pure (.error (.unavailable "offline"))⟩
    let first : String × Expr := ("value", setInside)
    let second : String × Expr := ("index", .literal ⟨1, 57⟩ (.string "b"))
    let run : Run := { bindings := [("$m", .map [])] }
    let both : Value := .map [("a", .boolean true), ("b", .null)]
    let final : Run :=
      { bindings := [("$m", both)],
        journal := [.assigned "$m" both, .assigned "$m" (.map [("a", .boolean true)])] }
    (first.1 = "index" ∧ second.1 = "value" ∨ first.1 = "value" ∧ second.1 = "index") ∧
      (outcome ((Expr.call ⟨1, 1⟩
          (.property ⟨1, 1⟩ ((Expr.var ⟨1, 2⟩ "$m").grouped [⟨1, 1⟩]) "set")
          [(some first.1, first.2), (some second.1, second.2)]).evaluate provider) run).run () =
        ((.ok .null, final), ()) ∧
      ∃ firstValue middle between secondValue reached around,
        (outcome (first.2.data provider) run).run () = ((.ok firstValue, middle), between) ∧
        (outcome (second.2.data provider) middle).run between =
          ((.ok secondValue, reached), around) ∧
        ∀ entries, Table.get? "$m" reached.bindings = some (.map entries) →
          ∃ index value, [("index", index), ("value", value)].Perm
              [(first.1, firstValue), (second.1, secondValue)] ∧
            let changed : Value := .map (Table.insert index.text value entries)
            final =
              { reached with
                bindings := Table.insert "$m" changed reached.bindings
                journal := .assigned "$m" changed :: reached.journal } ∧
            () = around := by
  intro provider first second run both final
  have hnames : first.1 = "index" ∧ second.1 = "value" ∨
      first.1 = "value" ∧ second.1 = "index" := .inr ⟨rfl, rfl⟩
  exact ⟨hnames, rfl,
    set_entry_writes_back "$m" ⟨1, 1⟩ ⟨1, 1⟩ ⟨1, 2⟩ [⟨1, 1⟩] hnames rfl⟩

end MetricScript
