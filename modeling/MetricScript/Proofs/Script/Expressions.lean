import MetricScript.Proofs.Script.Phrases

/-!
# What comes of reading an expression

The walk through the functions that read expressions.  What holds of the repetitions is stated of
their rounds, which the loops then follow.
-/

namespace MetricScript.Parse

open Phrase

variable {shift : Shift} {tokens : List Token} {enough : Prop} {depth depth' : Nat}

theorem named_moved (move : Position → Position) (token : Token) :
    (named token).moved move = named (token.moved move) := by
  unfold named
  rw [Token.text_moved]
  split <;> rfl

/-- A name that is given twice is reported when its colon is taken already. -/
theorem argumentName_carried (used : List String) (htokens : shift.Covers tokens) :
    (argumentName used tokens).Carried shift tokens enough (Outcome.Along id (tokens.length + 1))
      (argumentName used (shift.moved tokens)) := by
  refine carried_peek htokens ?_
  rw [peekSecond_bind, peekSecond_bind, ← List.map_tail, kind_nextToken_moved, Token.kind_moved,
    Token.text_moved]
  refine carried_choice (fun hnamed => ?_) fun _ =>
    carried_pure htokens ⟨rfl, Nat.lt_succ_self _⟩
  obtain ⟨hfirst, hsecond⟩ : (nextToken tokens).kind = .identifier ∧
      (nextToken tokens.tail).kind = .colon := by simpa using hnamed
  have htail := shift.tail htokens (by simp [hfirst])
  have hbehind := shift.tail htail (by simp [hsecond])
  have hsuffix : tokens.tail.tail <:+ tokens := (List.tail_suffix _).trans (List.tail_suffix _)
  rw [advance_bind, advance_bind, advance_bind, advance_bind, ← List.map_tail, ← List.map_tail]
  refine carried_choice (fun _ => ?_) fun _ => ?_
  · exact .failed hbehind ⟨_, tokens, List.suffix_refl _, htokens, rfl, hsuffix⟩
  · exact .done hsuffix hbehind ⟨rfl, Nat.lt_succ_of_le hsuffix.length_le⟩

theorem mapKey_carried (htokens : shift.Covers tokens) :
    (mapKey tokens).Carried shift tokens enough (Outcome.Along id tokens.length)
      (mapKey (shift.moved tokens)) := by
  refine carried_peek htokens ?_
  rw [Token.kind_moved, Token.text_moved]
  generalize hkind : (nextToken tokens).kind = kind
  cases kind with
  | identifier | string =>
    exact carried_advance htokens (by simp [hkind]) fun htail hless =>
      carried_pure htail ⟨rfl, hless⟩
  | _ => exact carried_unexpected _ htokens

/-- No operator of these levels stands for the end. -/
def SkipEnd (levels : List Level) : Prop := ∀ level ∈ levels, level.lookup .eof = none

theorem skipEnd_levels : SkipEnd levels := by
  unfold SkipEnd
  decide

/-! ## Rounds -/

/-- A round at one level of operators, from the same round for its operand. -/
theorem operandRound_carries {level : Level} (hlevel : level.lookup .eof = none)
    {tighter : List Level}
    (hoperand : (binary depth tighter).Carries shift (Expr.moved shift.place) (tighter.length + 3) 0
      depth (binary depth' tighter)) (left : Expr) :
    CarriesRound shift (Expr.moved shift.place) (Expr.moved shift.place) tighter.length 1 depth
      (operandRound depth level tighter left)
      (operandRound depth' level tighter (left.moved shift.place)) := by
  intro tokens htokens
  refine carried_peek htokens ?_
  rw [Token.kind_moved]
  cases hlookup : level.lookup (nextToken tokens).kind with
  | none => exact carried_leave _ htokens (Nat.lt_succ_self _)
  | some operator =>
    have hkind : (nextToken tokens).kind ≠ .eof := by
      intro heof
      rw [heof, hlevel] at hlookup
      cases hlookup
    refine carried_advance htokens hkind fun htail hless => ?_
    refine carried_bind (hoperand.on htail le_rfl (by omega)) fun right rest hrest hshorter => ?_
    rw [Expr.position_moved]
    exact carried_again hrest (by omega) fun _ => rfl

/-- A round of calls and properties, from the same for the arguments. -/
theorem suffixRound_carries
    (harguments : (argumentList depth []).Carries shift (Expr.movedArguments shift.place) 11 0 depth
      (argumentList depth' [])) (target : Expr) :
    CarriesRound shift (Expr.moved shift.place) (Expr.moved shift.place) 0 1 depth
      (suffixRound depth target) (suffixRound depth' (target.moved shift.place)) := by
  intro tokens htokens
  refine carried_peek htokens ?_
  rw [Token.kind_moved, Expr.position_moved]
  generalize hkind : (nextToken tokens).kind = kind
  cases kind with
  | dot =>
    refine carried_advance htokens (by simp [hkind]) fun htail hless => ?_
    refine carried_bind (expect_carried _ (by decide) htail) fun name rest hrest hshorter => ?_
    exact carried_again hrest (by omega) fun _ => rfl
  | leftParen =>
    refine carried_advance htokens (by simp [hkind]) fun htail hless => ?_
    refine carried_skipNewlines htail fun inside hinside hlength => ?_
    refine carried_eat (by decide) hinside (fun rest hrest hshorter => ?_) ?_
    · exact carried_again hrest (by omega) fun _ => rfl
    · refine carried_bind (harguments.on hinside le_rfl (by omega))
        fun arguments rest hrest hshorter => ?_
      exact carried_again hrest (by omega) fun _ => rfl
  | _ => exact carried_leave _ htokens (Nat.lt_succ_self _)

section

variable (hexpression : (expression depth).Carries shift (Expr.moved shift.place) 10 0 depth
  (expression depth'))

include hexpression

theorem argumentRound_carries (used : List String) :
    CarriesRound shift id (Expr.movedArguments shift.place) 10 0 depth (argumentRound depth used)
      (argumentRound depth' used) := by
  intro tokens htokens
  refine carried_bind (argumentName_carried used htokens) fun name named hnamed hnames => ?_
  refine carried_bind (hexpression.on hnamed le_rfl (by omega))
    fun value behind hbehind hvalue => ?_
  exact carried_separated (by decide) hbehind
    (fun rest hrest hless => carried_again hrest (by omega) fun _ => rfl)
    fun rest hrest hless => carried_leave [(name, value)] hrest (by omega)

theorem itemRound_carries :
    CarriesRound shift id (Expr.movedItems shift.place) 10 0 depth (itemRound depth)
      (itemRound depth') := by
  intro tokens htokens
  refine carried_bind (hexpression.on htokens le_rfl id) fun item behind hbehind hitem => ?_
  exact carried_separated (by decide) hbehind
    (fun rest hrest hless => carried_again hrest (by omega) fun _ => rfl)
    fun rest hrest hless => carried_leave [item] hrest (by omega)

/-- A round of a map: a key, a colon, a value and what separates it from the next. -/
theorem entryRound_carries :
    CarriesRound shift id (Expr.movedEntries shift.place) 0 0 depth (entryRound depth)
      (entryRound depth') := by
  intro tokens htokens
  refine carried_skipNewlines htokens fun inside hinside hlength => ?_
  refine carried_eat (by decide) hinside (fun rest hrest hless => ?_) ?_
  · exact carried_leave [] hrest (by omega)
  refine carried_bind (mapKey_carried hinside) fun key keyed hkeyed hkey => ?_
  refine carried_bind (expect_carried _ (by decide) hkeyed) fun _ parted hparted hcolon => ?_
  refine carried_skipNewlines hparted fun valued hvalued hbreaks => ?_
  refine carried_bind (hexpression.on hvalued le_rfl (by omega))
    fun value after hafter hvalue => ?_
  refine carried_skipNewlines hafter fun next hnext hrest => ?_
  exact carried_eat (by decide) hnext
    (fun rest hrest hless => carried_again hrest (by omega) fun _ => rfl)
    (carried_again hnext (by omega) fun _ => rfl)

end

/-! ## The walk -/

mutual

/-- An expression is read alike from both token lists. -/
theorem expression_carries (depth : Nat) {depth' : Nat} (hdepth : depth ≤ depth') :
    (expression depth).Carries shift (Expr.moved shift.place) 10 0 depth (expression depth') := by
  match depth, depth', hdepth with
  | 0, _, _ => exact carries_exhausted fun _ => rfl
  | depth + 1, depth' + 1, hdepth =>
    exact (binary_carries depth (Nat.le_of_succ_le_succ hdepth) skipEnd_levels).succ
termination_by structural depth

/-- So is an expression of one level of operators. -/
theorem binary_carries (depth : Nat) {depth' : Nat} (hdepth : depth ≤ depth')
    {tighter : List Level} (htighter : SkipEnd tighter) :
    (binary depth tighter).Carries shift (Expr.moved shift.place) (tighter.length + 3) 0 depth
      (binary depth' tighter) := by
  match depth, depth', hdepth, tighter with
  | 0, _, _, _ => exact carries_exhausted fun _ => rfl
  | depth + 1, depth' + 1, hdepth, [] =>
    exact (unary_carries depth (Nat.le_of_succ_le_succ hdepth)).succ
  | depth + 1, depth' + 1, hdepth, level :: tighter =>
    have hless := Nat.le_of_succ_le_succ hdepth
    obtain ⟨hlevel, htighter⟩ := List.forall_mem_cons.1 htighter
    intro tokens htokens
    rw [List.length_cons]
    refine carried_bind ((binary_carries depth hless htighter).on htokens le_rfl (by omega))
      fun left rest hrest hshorter => ?_
    exact (operands_carries depth hless hlevel htighter left).on hrest (by omega) (by omega)
termination_by structural depth

/-- So are the operands behind a first one. -/
theorem operands_carries (depth : Nat) {depth' : Nat} (hdepth : depth ≤ depth') {level : Level}
    (hlevel : level.lookup .eof = none) {tighter : List Level} (htighter : SkipEnd tighter)
    (left : Expr) :
    (operands depth level tighter left).Carries shift (Expr.moved shift.place) (tighter.length + 1)
      1 depth (operands depth' level tighter (left.moved shift.place)) := by
  match depth, depth', hdepth with
  | 0, _, _ => exact carries_exhausted fun _ => rfl
  | depth + 1, depth' + 1, hdepth =>
    have hless := Nat.le_of_succ_le_succ hdepth
    rw [operands_succ, operands_succ]
    exact (operandRound_carries hlevel (binary_carries depth hless htighter) left).follow
      (operands_carries depth hless hlevel htighter)
termination_by structural depth

/-- So is an operand with its signs. -/
theorem unary_carries (depth : Nat) {depth' : Nat} (hdepth : depth ≤ depth') :
    (unary depth).Carries shift (Expr.moved shift.place) 2 0 depth (unary depth') := by
  match depth, depth', hdepth with
  | 0, _, _ => exact carries_exhausted fun _ => rfl
  | depth + 1, depth' + 1, hdepth =>
    have hless := Nat.le_of_succ_le_succ hdepth
    intro tokens htokens
    refine carried_peek htokens ?_
    rw [Token.kind_moved]
    cases hoperator : unaryOperator? (nextToken tokens).kind with
    | some operator =>
      have hkind : (nextToken tokens).kind ≠ .eof := by
        intro heof
        rw [heof] at hoperator
        cases hoperator
      refine carried_advance htokens hkind fun htail hshorter => ?_
      refine carried_bind ((unary_carries depth hless).on htail le_rfl (by omega))
        fun operand rest hrest hleft => ?_
      exact carried_pure hrest ⟨rfl, by omega⟩
    | none =>
      refine carried_bind ((primary_carries depth hless).on htokens le_rfl (by omega))
        fun target rest hrest hleft => ?_
      exact (suffixes_carries depth hless target).on hrest (by omega) (by omega)
termination_by structural depth

theorem suffixes_carries (depth : Nat) {depth' : Nat} (hdepth : depth ≤ depth') (target : Expr) :
    (suffixes depth target).Carries shift (Expr.moved shift.place) 1 1 depth
      (suffixes depth' (target.moved shift.place)) := by
  match depth, depth', hdepth with
  | 0, _, _ => exact carries_exhausted fun _ => rfl
  | depth + 1, depth' + 1, hdepth =>
    have hless := Nat.le_of_succ_le_succ hdepth
    rw [suffixes_succ, suffixes_succ]
    exact (suffixRound_carries (argumentList_carries depth hless []) target).follow
      (suffixes_carries depth hless)
termination_by structural depth

/-- So is a list of arguments, with the names it refuses. -/
theorem argumentList_carries (depth : Nat) {depth' : Nat} (hdepth : depth ≤ depth')
    (used : List String) :
    (argumentList depth used).Carries shift (Expr.movedArguments shift.place) 11 0 depth
      (argumentList depth' used) := by
  match depth, depth', hdepth with
  | 0, _, _ => exact carries_exhausted fun _ => rfl
  | depth + 1, depth' + 1, hdepth =>
    have hless := Nat.le_of_succ_le_succ hdepth
    rw [argumentList_succ, argumentList_succ]
    exact (argumentRound_carries (expression_carries depth hless) used).follow
      (argumentList_carries depth hless)
termination_by structural depth

/-- So is an operand without signs. -/
theorem primary_carries (depth : Nat) {depth' : Nat} (hdepth : depth ≤ depth') :
    (primary depth).Carries shift (Expr.moved shift.place) 1 0 depth (primary depth') := by
  match depth, depth', hdepth with
  | 0, _, _ => exact carries_exhausted fun _ => rfl
  | depth + 1, depth' + 1, hdepth =>
    have hless := Nat.le_of_succ_le_succ hdepth
    intro tokens htokens
    refine carried_peek htokens ?_
    rw [Token.kind_moved, Token.text_moved]
    generalize hkind : (nextToken tokens).kind = kind
    cases kind with
    | number =>
      cases Number.read? (nextToken tokens).text with
      | some value =>
        exact carried_advance htokens (by simp [hkind]) fun htail hshorter =>
          carried_pure htail ⟨rfl, hshorter⟩
      | none => exact carried_fault _ htokens (by simp [hkind])
    | string | trueLiteral | falseLiteral | nullLiteral | variableName =>
      exact carried_advance htokens (by simp [hkind]) fun htail hshorter =>
        carried_pure htail ⟨rfl, hshorter⟩
    | identifier =>
      exact carried_advance htokens (by simp [hkind]) fun htail hshorter =>
        carried_pure htail ⟨(named_moved _ _).symm, hshorter⟩
    | leftParen =>
      refine carried_advance htokens (by simp [hkind]) fun htail hshorter => ?_
      refine carried_skipNewlines htail fun inside hinside hlength => ?_
      refine carried_bind ((expression_carries depth hless).on hinside le_rfl (by omega))
        fun inner behind hbehind hinner => ?_
      refine carried_skipNewlines hbehind fun closing hclosing hbreaks => ?_
      refine carried_bind (expect_carried _ (by decide) hclosing) fun _ rest hrest hleft => ?_
      exact carried_pure hrest ⟨(Expr.moved_movedTo _ _ inner).symm, by omega⟩
    | leftBracket =>
      refine carried_advance htokens (by simp [hkind]) fun htail hshorter => ?_
      refine carried_skipNewlines htail fun inside hinside hlength => ?_
      refine carried_eat (by decide) hinside (fun rest hrest hleft => ?_) ?_
      · exact carried_pure hrest ⟨rfl, by omega⟩
      · refine carried_bind ((itemList_carries depth hless).on hinside le_rfl (by omega))
          fun items rest hrest hleft => ?_
        exact carried_pure hrest ⟨rfl, by omega⟩
    | leftBrace =>
      refine carried_advance htokens (by simp [hkind]) fun htail hshorter => ?_
      refine carried_bind ((entryList_carries depth hless).on htail le_rfl (by omega))
        fun entries rest hrest hleft => ?_
      exact carried_pure hrest ⟨rfl, by omega⟩
    | _ => exact carried_unexpected _ htokens
termination_by structural depth

theorem itemList_carries (depth : Nat) {depth' : Nat} (hdepth : depth ≤ depth') :
    (itemList depth).Carries shift (Expr.movedItems shift.place) 11 0 depth (itemList depth') := by
  match depth, depth', hdepth with
  | 0, _, _ => exact carries_exhausted fun _ => rfl
  | depth + 1, depth' + 1, hdepth =>
    have hless := Nat.le_of_succ_le_succ hdepth
    rw [itemList_succ, itemList_succ]
    exact (itemRound_carries (expression_carries depth hless)).follow
      fun _ => itemList_carries depth hless
termination_by structural depth

theorem entryList_carries (depth : Nat) {depth' : Nat} (hdepth : depth ≤ depth') :
    (entryList depth).Carries shift (Expr.movedEntries shift.place) 1 0 depth
      (entryList depth') := by
  match depth, depth', hdepth with
  | 0, _, _ => exact carries_exhausted fun _ => rfl
  | depth + 1, depth' + 1, hdepth =>
    have hless := Nat.le_of_succ_le_succ hdepth
    rw [entryList_succ, entryList_succ]
    exact (entryRound_carries (expression_carries depth hless)).follow
      fun _ => entryList_carries depth hless
termination_by structural depth

end

end MetricScript.Parse
