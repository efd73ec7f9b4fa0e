import Mathlib
import MetricScript.Proofs.Run.Keeping

/-!
# What resolving and calling keep up

The data of a tidy value is plain, and plain data is its own data.  A method whose receiver
and arguments are plain data gives a tidy value; `item()` gives plain data.  The two methods
that make a document of an argument never meet a handle in it.
-/

namespace MetricScript

open RunM

variable {m : Type → Type} [Monad m] [LawfulMonad m] {provider : Provider m}
variable {arguments : Table Value}

/-! ## Resolving -/

namespace Value

mutual

/-- Plain data is its own data, and nobody is asked for it. -/
theorem resolve_of_plain : (value : Value) → value.Plain → value.resolve provider = pure value
  | array items, hplain => by
    change (resolveItems provider items >>= fun items => pure (array items)) = _
    rw [resolveItems_of_plain items hplain, pure_bind]
  | map entries, hplain => by
    change (resolveEntries provider entries >>= fun entries => pure (map entries)) = _
    rw [resolveEntries_of_plain entries hplain, pure_bind]
  | handle _, hplain => hplain.elim
  | null, _ | boolean _, _ | number _, _ | string _, _ => rfl

theorem resolveItems_of_plain : (items : List Value) → PlainItems items →
    resolveItems provider items = pure items
  | [], _ => rfl
  | item :: rest, hplain => by
    change (item.resolve provider >>= fun first => resolveItems provider rest >>= fun others =>
      pure (first :: others)) = _
    rw [resolve_of_plain item hplain.1, pure_bind, resolveItems_of_plain rest hplain.2, pure_bind]

theorem resolveEntries_of_plain : (entries : List (String × Value)) → PlainEntries entries →
    resolveEntries provider entries = pure entries
  | [], _ => rfl
  | (key, value) :: rest, hplain => by
    change (value.resolve provider >>= fun first => resolveEntries provider rest >>= fun others =>
      pure ((key, first) :: others)) = _
    rw [resolve_of_plain value hplain.1, pure_bind, resolveEntries_of_plain rest hplain.2,
      pure_bind]

end

end Value

theorem keeps_settle {α ε : Type} (result : Except ε α) :
    Keeps arguments (settle result : RunM m ε α) (fun _ => True) fun _ => True :=
  Keeps.settle (fun _ _ => trivial) fun _ _ => trivial

/-- An operation of the provider, after which something is made of the answer. -/
theorem keeps_answer {label : String} {operation : Operation}
    {shown : operation.Answer → Value} {gives : Value → Prop}
    (hshown : ∀ answer, gives (shown answer)) :
    Keeps arguments (do return shown (← perform provider label operation)) gives
      fun _ => True := by
  apply Keeps.bind (Keeps.perform provider fun _ => trivial)
  exact fun answer _ => Keeps.pure (hshown answer)

theorem keeps_handle_resolve (reference : Handle) :
    Keeps arguments (reference.resolve provider) Value.Plain fun _ => True := by
  cases reference with
  | counter name => exact keeps_answer fun _ => trivial
  | point sample => exact Keeps.pure trivial
  | aggregate points => exact Keeps.pure (plain_pointValues points)
  | global | storage | series | method => exact Keeps.throw trivial

/-- The data of a tidy value is plain. -/
theorem keeps_resolve {value : Value} (hvalue : value.Tidy) :
    Keeps arguments (value.resolve provider) Value.Plain fun _ => True := by
  cases value with
  | handle reference => exact keeps_handle_resolve reference
  | null | boolean | number | string => exact Keeps.pure trivial
  | array items =>
    rw [Value.resolve_of_plain (.array items) hvalue]
    exact Keeps.pure hvalue
  | map entries =>
    rw [Value.resolve_of_plain (.map entries) hvalue]
    exact Keeps.pure hvalue

/-! ## Calls -/

section Calls

variable {given : Arguments}

/-- A response is plain data. -/
theorem plain_response (response : HttpResponse) : (responseValue response).Plain := by
  refine ⟨Value.plain_ofJson response.body, ?_, trivial, trivial⟩
  apply Value.plain_map
  intro entry hmem
  obtain ⟨header, _, rfl⟩ := List.mem_map.1 hmem
  exact trivial

theorem keeps_http (hgiven : Table.Plain given.values) (method : HttpMethod) :
    Keeps arguments (callHttp provider method given) Value.Plain Fault.SparesHandles := by
  apply Keeps.bind (Keeps.settle (fun _ _ => trivial) (sparesHandles_request hgiven method))
  intro request (_ : True)
  apply Keeps.bind (Keeps.perform provider fun _ => by rintro text ⟨⟩)
  exact fun response _ => Keeps.pure (plain_response response)

/-- Loading gives plain data. -/
theorem keeps_load :
    Keeps arguments (callLoad provider given) Value.Plain fun _ => True := by
  apply Keeps.bind (keeps_settle _)
  intro format _
  dsimp only
  split
  · exact Keeps.throw trivial
  · apply Keeps.bind (keeps_settle _)
    intro path _
    apply Keeps.bind (Keeps.perform provider fun _ => trivial)
    intro text _
    split
    · exact Keeps.pure (Value.plain_ofJson _)
    · exact Keeps.throw trivial

/-- A global method keeps the run sound and gives a tidy value. -/
theorem keeps_global (harguments : Table.Tidy arguments) (hgiven : Table.Plain given.values)
    (method : GlobalMethod) :
    Keeps arguments (method.call provider given) Value.Tidy fun _ => True := by
  cases method with
  | now => exact Keeps.bind (Keeps.clock provider) fun _ _ => Keeps.pure trivial
  | counter | series => exact Keeps.bind (keeps_settle _) fun _ _ => Keeps.pure trivial
  | get => exact (keeps_http hgiven .get).mono (fun _ => Value.Plain.tidy) fun _ _ => trivial
  | post => exact (keeps_http hgiven .post).mono (fun _ => Value.Plain.tidy) fun _ _ => trivial
  | arg =>
    apply Keeps.bind (keeps_settle _)
    intro name _
    apply Keeps.bind Keeps.current
    rintro run ⟨hrun, _⟩
    rw [hrun]
    split
    · next value hget => exact Keeps.pure (harguments _ (Table.mem_of_get? hget))
    · exact Keeps.throw trivial
  | log =>
    apply Keeps.bind (keeps_settle _)
    intro message _
    apply Keeps.bind (Keeps.note (.logged message) (fun _ => rfl) trivial)
    exact fun _ _ => Keeps.pure trivial
  | error => exact Keeps.bind (keeps_settle _) fun _ _ => Keeps.throw trivial
  | anomaly =>
    apply Keeps.bind (keeps_settle _)
    intro data _
    apply Keeps.bind (keeps_settle _)
    exact fun value _ => Keeps.pure trivial
  | load => exact keeps_load.mono (fun _ => Value.Plain.tidy) fun _ _ => trivial

theorem keeps_counter (counter : String) (method : CounterMethod) :
    Keeps arguments (method.call provider counter given) Value.Plain fun _ => True := by
  unfold CounterMethod.call
  cases method with
  | set | increment =>
    apply Keeps.bind (keeps_settle _)
    intro value _
    rw [pure_bind]
    exact keeps_answer fun _ => trivial
  | reset =>
    dsimp only
    rw [pure_bind]
    exact keeps_answer fun _ => trivial

/-- Working out what to trim keeps the run sound. -/
theorem keeps_trim : Keeps arguments (trimOf provider given) (fun _ => True) fun _ => True := by
  unfold trimOf
  split
  · exact Keeps.throw trivial
  · apply Keeps.bind (keeps_settle _)
    intro seconds _
    split
    · exact Keeps.throw trivial
    · apply Keeps.bind (Keeps.clock provider)
      intro now _
      split
      · exact Keeps.pure trivial
      · exact Keeps.throw trivial
  · exact Keeps.bind (keeps_settle _) fun _ _ => Keeps.pure trivial
  · exact Keeps.throw trivial

/-- A series method keeps the run sound and gives a tidy value. -/
theorem keeps_series (series : String) (method : SeriesMethod) :
    Keeps arguments (method.call provider series given) Value.Tidy fun _ => True := by
  cases method with
  | last | pop => exact keeps_answer fun _ => trivial
  | aggregate =>
    apply Keeps.bind (keeps_settle _)
    intro name _
    split
    · exact Keeps.throw trivial
    · apply Keeps.bind (keeps_settle _)
      intro interval _
      apply Keeps.bind (keeps_settle _)
      exact fun count _ => keeps_answer fun _ => trivial
  | compute function =>
    apply Keeps.bind (keeps_settle _)
    exact fun window _ => keeps_answer fun _ => trivial
  | push =>
    apply Keeps.bind (keeps_settle _)
    intro value _
    split
    · rw [pure_bind]
      exact keeps_answer fun _ => trivial
    · apply Keeps.bind (Keeps.clock provider)
      exact fun timestamp _ => keeps_answer fun _ => trivial
  | trim =>
    apply Keeps.bind keeps_trim
    exact fun trim _ => keeps_answer fun _ => trivial
  | items =>
    apply Keeps.bind (keeps_settle _)
    exact fun count _ => keeps_answer fun _ => trivial

/-- A storage method given plain arguments gives plain data. -/
theorem keeps_storage (hgiven : Table.Plain given.values) (method : StorageMethod) :
    Keeps arguments (method.call provider given) Value.Plain Fault.SparesHandles := by
  apply Keeps.bind (Keeps.settle (fun _ _ => trivial) (sparesHandles_string given "key"))
  intro key (_ : True)
  cases method with
  | get =>
    apply Keeps.bind (Keeps.perform provider fun _ => by rintro text ⟨⟩)
    exact fun _ _ => Keeps.pure (Value.plain_ofJson _)
  | set =>
    apply Keeps.bind (Keeps.settle (fun _ => plain_of_map_argument hgiven)
      (sparesHandles_map_argument given "value"))
    intro entries hentries
    have hdocument : SparesHandles (objectOf given entries) := by
      rw [objectOf_eq]
      exact Value.sparesHandles_entriesToJson entries ((Value.plainEntries_iff entries).2 hentries)
    apply Keeps.bind (Keeps.settle (fun _ _ => trivial) hdocument)
    intro document (_ : True)
    apply Keeps.bind (Keeps.perform provider fun _ => by rintro text ⟨⟩)
    exact fun _ _ => Keeps.pure trivial

/-- A method of a plain map gives plain data. -/
theorem keeps_map {entries : Table Value} (hentries : Table.Plain entries)
    (hgiven : Table.Plain given.values) (origin : Option String) (method : MapMethod) :
    Keeps arguments (method.call entries origin given : RunM m Fault Value) Value.Plain
      fun _ => True := by
  cases method with
  | item =>
    apply Keeps.bind (keeps_settle _)
    intro index _
    split
    · next value hget => exact Keeps.pure (hentries _ (Table.mem_of_get? hget))
    · exact Keeps.throw trivial
  | count => exact Keeps.pure trivial
  | set =>
    apply Keeps.bind (keeps_settle _)
    intro index _
    apply Keeps.bind (Keeps.settle (givesPlain_argument hgiven "value") fun _ _ => trivial)
    intro value hvalue
    cases origin with
    | none => exact Keeps.pure trivial
    | some variableName =>
      have hmap : (Value.map (Table.insert index value entries)).Plain :=
        Value.plain_map (Table.forall_insert hentries index hvalue)
      apply Keeps.bind (Keeps.assign variableName hmap.tidy)
      exact fun _ _ => Keeps.pure trivial

/-- What can come of a call when the receiver and the arguments are plain data: `item()` gives
plain data as well, all other methods give tidy values. -/
def BoundMethod.Gives (bound : BoundMethod) (value : Value) : Prop :=
  value.Tidy ∧ (bound.name = "item" → value.Plain)

/-- The methods that make a document of an argument find no handle in it. -/
def BoundMethod.FailsWith (bound : BoundMethod) (fault : Fault) : Prop :=
  bound = .ofStorage .set ∨ bound = .ofGlobal .post → fault.SparesHandles

theorem BoundMethod.gives_of_plain (bound : BoundMethod) {value : Value} (hplain : value.Plain) :
    bound.Gives value :=
  ⟨hplain.tidy, fun _ => hplain⟩

theorem GlobalMethod.name_ne_item (method : GlobalMethod) : method.name ≠ "item" := by
  cases method <;> decide

theorem SeriesMethod.name_ne_item (method : SeriesMethod) : method.name ≠ "item" := by
  cases method with
  | compute function => cases function <;> decide
  | last | pop | aggregate | push | trim | items => decide

/-- A tidy bound method keeps the run sound and gives what its kind may give. -/
theorem keeps_apply (harguments : Table.Tidy arguments) (hgiven : Table.Plain given.values)
    {bound : BoundMethod} (hbound : bound.Tidy) :
    Keeps arguments (bound.apply provider given) bound.Gives bound.FailsWith := by
  cases bound with
  | ofGlobal method =>
    by_cases hpost : method = .post
    · subst hpost
      apply (keeps_http hgiven .post).mono fun _ => BoundMethod.gives_of_plain _
      exact fun fault hfault _ => hfault
    · apply (keeps_global harguments hgiven method).mono
      · intro value hvalue
        exact ⟨hvalue, fun hname => absurd hname method.name_ne_item⟩
      · rintro fault _ (hset | hmethod)
        · cases hset
        · exact absurd (BoundMethod.ofGlobal.inj hmethod) hpost
  | ofCounter counter method =>
    exact (keeps_counter counter method).mono (fun _ => BoundMethod.gives_of_plain _)
      fun _ _ => by rintro (hset | hpost) <;> contradiction
  | ofSeries series method =>
    apply (keeps_series series method).mono
    · intro value hvalue
      exact ⟨hvalue, fun hname => absurd hname method.name_ne_item⟩
    · rintro fault _ (hset | hpost) <;> contradiction
  | ofStorage method =>
    apply (keeps_storage hgiven method).mono fun _ => BoundMethod.gives_of_plain _
    exact fun fault hfault _ => hfault
  | ofString text method =>
    apply Keeps.settle
    · exact fun value hvalue =>
        BoundMethod.gives_of_plain _ (givesPlain_string method text given value hvalue)
    · rintro fault _ (hset | hpost) <;> contradiction
  | ofArray items method =>
    apply Keeps.settle
    · exact fun value hvalue =>
        BoundMethod.gives_of_plain _ (givesPlain_array method hbound given value hvalue)
    · rintro fault _ (hset | hpost) <;> contradiction
  | ofMap entries origin method =>
    apply (keeps_map hbound hgiven origin method).mono fun _ => BoundMethod.gives_of_plain _
    rintro fault _ (hset | hpost) <;> contradiction

/-- So does a call of it, its arguments being bound first. -/
theorem keeps_call (harguments : Table.Tidy arguments) {bound : BoundMethod}
    (hbound : bound.Tidy) {values : List (Option String × Value)}
    (hvalues : ∀ argument ∈ values, argument.2.Plain) :
    Keeps arguments (bound.call provider values) bound.Gives bound.FailsWith := by
  refine Keeps.bind (Keeps.settle (fun given hgiven => plain_bindArguments hvalues hgiven) ?_)
    fun given hgiven => keeps_apply harguments hgiven hbound
  exact fun fault hfault _ => sparesHandles_bindArguments _ _ values fault hfault

theorem keeps_value_call (harguments : Table.Tidy arguments) {target : Value}
    (htarget : target.Tidy) (shown : String) {values : List (Option String × Value)}
    (hvalues : ∀ argument ∈ values, argument.2.Plain) :
    Keeps arguments (target.call provider shown values) Value.Tidy fun _ => True := by
  unfold Value.call
  split
  · exact (keeps_call harguments htarget hvalues).mono (fun _ hgives => hgives.1)
      fun _ _ => trivial
  · exact Keeps.throw trivial

end Calls

end MetricScript
