import Mathlib
import MetricScript.Method.OnData
import MetricScript.Value.Document
import MetricScript.Proofs.Method.Binding

/-!
# What bound arguments have

A method asks for its arguments by name and as values of some kind, and its parameters are
declared apart from that.  Arguments that were bound to parameters meet them: what is bound to a
parameter is of its kind, and what is needed is there.  So the needed arguments can be had as
what they were declared.
-/

namespace MetricScript

/-- What is bound to the parameters is of their kinds, and what is needed is bound. -/
structure Arguments.Meets (arguments : Arguments) (params : List Param) : Prop where
  fits : ∀ param ∈ params, ∀ value, arguments.get? param.name = some value →
    param.kind.Fits value
  supplied : ∀ param ∈ params, param.required = true →
    ∃ value, arguments.get? param.name = some value

/-- Bound arguments meet the parameters they were bound to. -/
theorem meets_of_bindArguments {function : String} {params : List Param}
    {given : List (Option String × Value)} {arguments : Arguments}
    (hnames : (params.map Param.name).Nodup)
    (hbound : bindArguments function params given = .ok arguments) : arguments.Meets params := by
  obtain ⟨entries, hentries, hsupplied, rfl⟩ := bindArguments_eq_ok_iff.1 hbound
  refine ⟨fun param hmem value hget => ?_, hsupplied⟩
  have hentry : (param.name, value) ∈ entries :=
    Table.mem_of_mem_ofList (Table.mem_of_get? hget)
  obtain ⟨argument, _, hstep⟩ := (forall_of_mapM_eq_ok hentries).2 _ hentry
  obtain ⟨other, hother, hbinds⟩ := (entryOf_eq_ok_iff hnames).1 hstep
  obtain rfl : other = param := List.inj_on_of_nodup_map hnames hother hmem hbinds.key.symm
  exact ArgKind.fits_of_coerce hbinds.coerced

/-- No method has two parameters of one name. -/
theorem BoundMethod.nodup_params (bound : BoundMethod) :
    (bound.params.map Param.name).Nodup := by
  cases bound with
  | ofGlobal method => cases method <;> decide
  | ofStorage method => cases method <;> decide
  | ofCounter _ method =>
    change (method.params.map Param.name).Nodup
    cases method <;> decide
  | ofString _ method =>
    change (method.params.map Param.name).Nodup
    cases method <;> decide
  | ofArray _ method =>
    change (method.params.map Param.name).Nodup
    cases method <;> decide
  | ofMap _ _ method =>
    change (method.params.map Param.name).Nodup
    cases method <;> decide
  | ofSeries _ method =>
    change (method.params.map Param.name).Nodup
    cases method with
    | compute function => exact List.nodup_singleton "interval"
    | last | aggregate | push | pop | trim | items => decide

namespace Arguments

variable {arguments : Arguments} {params : List Param} {name : String}

/-! ## Arguments that are there -/

theorem string_of_get? {text : String} (hget : arguments.get? name = some (.string text)) :
    arguments.string name = .ok text := by
  simp only [string, string?, hget]

/-- A number among the arguments is read as it stands. -/
theorem number_of_get? {x : Float} (hget : arguments.get? name = some (.number x)) :
    arguments.number name = .ok x := by
  simp only [number, number?, hget]

namespace Meets

variable (hmeets : arguments.Meets params)
include hmeets

theorem exists_get? {kind : ArgKind} (hmem : .needed name kind ∈ params) :
    ∃ value, arguments.get? name = some value ∧ kind.Fits value := by
  obtain ⟨value, hget⟩ := hmeets.supplied (.needed name kind) hmem rfl
  exact ⟨value, hget, hmeets.fits (.needed name kind) hmem value hget⟩

theorem string (hmem : .needed name .string ∈ params) :
    ∃ text, arguments.string name = .ok text := by
  obtain ⟨_, hget, text, rfl⟩ := hmeets.exists_get? hmem
  exact ⟨text, string_of_get? hget⟩

theorem number (hmem : .needed name .numeric ∈ params) :
    ∃ x, arguments.number name = .ok x := by
  obtain ⟨_, hget, x, rfl⟩ := hmeets.exists_get? hmem
  exact ⟨x, number_of_get? hget⟩

theorem map (hmem : .needed name .map ∈ params) :
    ∃ entries, arguments.map name = .ok entries := by
  obtain ⟨_, hget, entries, rfl⟩ := hmeets.exists_get? hmem
  refine ⟨entries, ?_⟩
  simp only [Arguments.map, map?, hget]

theorem value {kind : ArgKind} (hmem : .needed name kind ∈ params) :
    ∃ value, arguments.value name = .ok value := by
  obtain ⟨value, hget, _⟩ := hmeets.exists_get? hmem
  refine ⟨value, ?_⟩
  simp only [Arguments.value, hget]

end Meets

end Arguments

theorem Value.numbersFrom_numbers (index : Nat) (numbers : List Float) :
    Value.numbersFrom index (numbers.map .number) = .ok numbers := by
  induction numbers generalizing index with
  | nil => rfl
  | cons first rest ih =>
    change (Value.numbersFrom (index + 1) (rest.map .number)).map (first :: ·) = _
    rw [ih]
    rfl

theorem Arguments.Meets.numbers {arguments : Arguments} {params : List Param} {name : String}
    (hmeets : arguments.Meets params) (hmem : .needed name .numericArray ∈ params) :
    ∃ numbers, arguments.numbers name = .ok numbers := by
  obtain ⟨_, hget, numbers, rfl⟩ := hmeets.exists_get? hmem
  refine ⟨numbers, ?_⟩
  have hvalue : arguments.value name = .ok (.array (numbers.map .number)) := by
    simp only [Arguments.value, hget]
  rw [Arguments.numbers, hvalue]
  exact Value.numbersFrom_numbers 0 numbers

end MetricScript
