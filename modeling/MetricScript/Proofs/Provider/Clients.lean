import Mathlib
import MetricScript.Proofs.Provider.Refinement

/-!
# Clients with names of their own

Every operation on a store is about one counter, one series or one stored map, and neither sees
nor touches anything else.  So two clients that share a store but no name do not notice each
other: in whatever order they take their turns, each of them is told what it would be told
alone, and the store ends up as if one had gone after the other.
-/

namespace MetricScript

inductive Address where
  | counter (name : String)
  | series (name : String)
  | stored (key : String)
deriving DecidableEq

/-- The place that an operation is about; requests and files are not in the store. -/
def Operation.address? : Operation → Option Address
  | .counterValue name | .setCounter name _ | .incrementCounter name _ => some (.counter name)
  | .seriesLast name | .seriesAggregate name _ _ _ | .seriesCompute name _ _
  | .seriesPush name _ | .seriesPop name | .seriesTrim name _ | .seriesItems name _ =>
      some (.series name)
  | .readStorage key | .writeStorage key _ => some (.stored key)
  | .http _ | .fileText _ => none

def Operation.change : Operation → Store → Store
  | .setCounter name value, store => store.setCounter name value
  | .incrementCounter name delta, store => store.incrementCounter name delta
  | .seriesPush name point, store => store.pushPoint name point
  | .seriesPop name, store => store.modifySeries name List.dropLast
  | .seriesTrim name trim, store => store.modifySeries name fun points => Series.trim points trim
  | .writeStorage key value, store => store.writeStored key value
  | .counterValue _, store | .seriesLast _, store | .seriesAggregate _ _ _ _, store
  | .seriesCompute _ _ _, store | .seriesItems _ _, store | .readStorage _, store
  | .http _, store | .fileText _, store => store

/-- Reading the clock changes nothing outside, so the clock stands still while nothing else is
done there. -/
def Surroundings.Still {σ : Type} (outside : Surroundings (StateM σ)) : Prop :=
  ∀ around, (outside.now around).2 = around

namespace Store

/-! ## Places that an operation is not about -/

section Elsewhere

variable {operation : Operation} (store : Store)

theorem counter_change {name : String} (helsewhere : operation.address? ≠ some (.counter name)) :
    (operation.change store).counter name = store.counter name := by
  cases operation with
  | setCounter other | incrementCounter other =>
    have hne : name ≠ other := fun heq => helsewhere (heq ▸ rfl)
    simp only [Operation.change, setCounter, incrementCounter, counter,
      Table.get?_insert_of_ne hne]
  | _ => rfl

theorem points_change {name : String} (helsewhere : operation.address? ≠ some (.series name)) :
    (operation.change store).points name = store.points name := by
  cases operation with
  | seriesPush other =>
    have hne : name ≠ other := fun heq => helsewhere (heq ▸ rfl)
    simp only [Operation.change, pushPoint, points, Table.get?_insert_of_ne hne]
  | seriesPop other | seriesTrim other =>
    have hne : name ≠ other := fun heq => helsewhere (heq ▸ rfl)
    simp only [Operation.change, modifySeries, points, Table.get?_modify_of_ne hne]
  | _ => rfl

theorem stored_change {key : String} (helsewhere : operation.address? ≠ some (.stored key)) :
    (operation.change store).stored key = store.stored key := by
  cases operation with
  | writeStorage other =>
    have hne : key ≠ other := fun heq => helsewhere (heq ▸ rfl)
    simp only [Operation.change, writeStored, stored, Table.get?_insert_of_ne hne]
  | _ => rfl

theorem change_setCounter {name : String} (helsewhere : operation.address? ≠ some (.counter name))
    (value : Int64) :
    operation.change (store.setCounter name value) =
      (operation.change store).setCounter name value := by
  cases operation with
  | setCounter other | incrementCounter other =>
    have hne : other ≠ name := fun heq => helsewhere (heq ▸ rfl)
    simp only [Operation.change, setCounter, incrementCounter, counter,
      Table.insert_comm hne, Table.get?_insert_of_ne hne]
  | _ => rfl

/-- Pushing a sample commutes with the operations on other addresses. -/
theorem change_pushPoint {name : String} (helsewhere : operation.address? ≠ some (.series name))
    (point : Point) :
    operation.change (store.pushPoint name point) =
      (operation.change store).pushPoint name point := by
  cases operation with
  | seriesPush other =>
    have hne : other ≠ name := fun heq => helsewhere (heq ▸ rfl)
    simp only [Operation.change, pushPoint, points, Table.insert_comm hne,
      Table.get?_insert_of_ne hne, Table.get?_insert_of_ne hne.symm]
  | seriesPop other | seriesTrim other =>
    have hne : other ≠ name := fun heq => helsewhere (heq ▸ rfl)
    simp only [Operation.change, pushPoint, modifySeries, points, Table.modify_insert hne,
      Table.get?_modify_of_ne hne.symm]
  | _ => rfl

/-- Changing a series commutes with the operations on other addresses. -/
theorem change_modifySeries {name : String}
    (helsewhere : operation.address? ≠ some (.series name)) (change : Series → Series) :
    operation.change (store.modifySeries name change) =
      (operation.change store).modifySeries name change := by
  cases operation with
  | seriesPush other =>
    have hne : other ≠ name := fun heq => helsewhere (heq ▸ rfl)
    simp only [Operation.change, pushPoint, modifySeries, points, Table.modify_insert hne.symm,
      Table.get?_modify_of_ne hne]
  | seriesPop other | seriesTrim other =>
    have hne : other ≠ name := fun heq => helsewhere (heq ▸ rfl)
    simp only [Operation.change, modifySeries, Table.modify_comm hne]
  | _ => rfl

theorem change_writeStored {key : String} (helsewhere : operation.address? ≠ some (.stored key))
    (value : Table Json) :
    operation.change (store.writeStored key value) =
      (operation.change store).writeStored key value := by
  cases operation with
  | writeStorage other =>
    have hne : other ≠ key := fun heq => helsewhere (heq ▸ rfl)
    simp only [Operation.change, writeStored, Table.insert_comm hne]
  | _ => rfl

/-- Operations on different places can be done in either order. -/
theorem change_comm {other : Operation} (happart : operation.address? ≠ other.address?) :
    operation.change (other.change store) = other.change (operation.change store) := by
  cases other with
  | setCounter => exact change_setCounter store happart _
  | incrementCounter name =>
    refine (change_setCounter store happart _).trans ?_
    rw [← counter_change store happart]
    rfl
  | seriesPush => exact change_pushPoint store happart _
  | seriesPop | seriesTrim => exact change_modifySeries store happart _
  | writeStorage => exact change_writeStored store happart _
  | _ => rfl

end Elsewhere

/-! ## One operation -/

section Steps

variable {σ : Type} {outside : Surroundings (StateM σ)}

theorem stepped_eq_change (hclock : outside.Still) (state : Store × σ)
    {operation : Operation} (hinside : operation.address? ≠ none) :
    stepped outside state operation = (operation.change state.1, state.2) := by
  cases operation with
  | seriesAggregate | seriesCompute =>
    exact congrArg (Prod.mk state.1) (hclock state.2)
  | http | fileText => exact absurd rfl hinside
  | _ => rfl

theorem replied_incrementCounter (state : Store × σ) (name : String) (delta : Int64) :
    replied outside state (.incrementCounter name delta) = .ok () := rfl

theorem aggregate_congr {left right : Store} {name : String}
    (hpoints : left.points name = right.points name) (now : Int64) (function : AggregateFunction)
    (interval count : Nat) :
    left.aggregate now name function interval count =
      right.aggregate now name function interval count := by
  simp only [aggregate, window, hpoints]

theorem compute_congr {left right : Store} {name : String}
    (hpoints : left.points name = right.points name) (now : Int64) (function : AggregateFunction)
    (seconds : Nat) :
    left.compute now name function seconds = right.compute now name function seconds := by
  simp only [compute, window, hpoints]

/-- What an operation is told does not depend on other places. -/
theorem replied_change (state : Store × σ) {operation other : Operation}
    (hinside : operation.address? ≠ none) (happart : other.address? ≠ operation.address?) :
    replied outside (other.change state.1, state.2) operation =
      replied outside state operation := by
  cases operation with
  | counterValue name => exact congrArg Except.ok (counter_change state.1 happart)
  | seriesLast name => exact congrArg (Except.ok ∘ Series.last?) (points_change state.1 happart)
  | seriesAggregate name function interval count =>
    exact aggregate_congr (points_change state.1 happart) _ function interval count
  | seriesCompute name function seconds =>
    exact compute_congr (points_change state.1 happart) _ function seconds
  | seriesPop name => exact congrArg (Except.ok ∘ Series.last?) (points_change state.1 happart)
  | seriesItems name count =>
    exact congrArg (Except.ok ∘ Series.newest count) (points_change state.1 happart)
  | readStorage key => exact congrArg Except.ok (stored_change state.1 happart)
  | incrementCounter name delta => rw [replied_incrementCounter, replied_incrementCounter]
  | setCounter | seriesPush | seriesTrim | writeStorage => rfl
  | http | fileText => exact absurd rfl hinside

theorem replied_stepped (hclock : outside.Still) (state : Store × σ)
    {operation other : Operation} (hinside : operation.address? ≠ none)
    (hother : other.address? ≠ none) (happart : other.address? ≠ operation.address?) :
    replied outside (stepped outside state other) operation = replied outside state operation := by
  rw [stepped_eq_change hclock state hother]
  exact replied_change state hinside happart

theorem stepped_comm (hclock : outside.Still) (state : Store × σ)
    {operation other : Operation} (hinside : operation.address? ≠ none)
    (hother : other.address? ≠ none) (happart : other.address? ≠ operation.address?) :
    stepped outside (stepped outside state other) operation =
      stepped outside (stepped outside state operation) other := by
  simp only [stepped_eq_change hclock _ hinside, stepped_eq_change hclock _ hother,
    change_comm state.1 happart]

/-! ## Histories and turns -/

/-- An operation and what is said to it. -/
abbrev Exchange := (operation : Operation) × operation.Reply

variable (outside) in
/-- What is said to the operations of a history, one after the other. -/
def exchanges : List Operation → Store × σ → List Exchange
  | [], _ => []
  | operation :: history, state =>
      ⟨operation, replied outside state operation⟩ ::
        exchanges history (stepped outside state operation)

def operationOf : Operation ⊕ Operation → Operation := Sum.elim id id

variable (outside) in
/-- What is said to two clients that take turns, to each of them on its own side. -/
def sharedExchanges : List (Operation ⊕ Operation) → Store × σ → List (Exchange ⊕ Exchange)
  | [], _ => []
  | turn :: turns, state =>
      let told (operation : Operation) : Exchange := ⟨operation, replied outside state operation⟩
      turn.map told told :: sharedExchanges turns (stepped outside state (operationOf turn))

section Apart

variable {history : List Operation} {other : Operation}
  (hinside : ∀ operation ∈ history, operation.address? ≠ none) (hother : other.address? ≠ none)
  (happart : ∀ operation ∈ history, other.address? ≠ operation.address?)
include hinside hother happart

/-- A history is told the same after an operation on another place. -/
theorem exchanges_stepped (hclock : outside.Still) (state : Store × σ) :
    exchanges outside history (stepped outside state other) =
      exchanges outside history state := by
  induction history generalizing state with
  | nil => rfl
  | cons operation history ih =>
    obtain ⟨hfirst, hrest⟩ := List.forall_mem_cons.1 hinside
    obtain ⟨hfirstApart, hrestApart⟩ := List.forall_mem_cons.1 happart
    rw [exchanges, exchanges, replied_stepped hclock state hfirst hother hfirstApart,
      stepped_comm hclock state hfirst hother hfirstApart, ih hrest hrestApart]

/-- An operation can be put off until after a history on other places. -/
theorem reached_stepped (hclock : outside.Still) (state : Store × σ) :
    reached outside history (stepped outside state other) =
      stepped outside (reached outside history state) other := by
  induction history generalizing state with
  | nil => rfl
  | cons operation history ih =>
    obtain ⟨hfirst, hrest⟩ := List.forall_mem_cons.1 hinside
    obtain ⟨hfirstApart, hrestApart⟩ := List.forall_mem_cons.1 happart
    change reached outside history (stepped outside (stepped outside state other) operation) = _
    rw [stepped_comm hclock state hfirst hother hfirstApart, ih hrest hrestApart]
    rfl

end Apart

/-- **Clients with names of their own do not notice each other.**  Two clients take turns at a
store in any order, and no operation of one is about a place that an operation of the other is
about.  Each is told what it would be told if it were alone, and in the end the store is as if
the first had gone before the second. -/
theorem clients_apart_unnoticed (hclock : outside.Still) {mine theirs : List Operation}
    (hmine : ∀ operation ∈ mine, operation.address? ≠ none)
    (htheirs : ∀ operation ∈ theirs, operation.address? ≠ none)
    (happart : ∀ operation ∈ mine, ∀ other ∈ theirs, operation.address? ≠ other.address?)
    {turns : List (Operation ⊕ Operation)} (hleft : turns.filterMap Sum.getLeft? = mine)
    (hright : turns.filterMap Sum.getRight? = theirs) (state : Store × σ) :
    (sharedExchanges outside turns state).filterMap Sum.getLeft? =
        exchanges outside mine state ∧
      (sharedExchanges outside turns state).filterMap Sum.getRight? =
        exchanges outside theirs state ∧
      reached outside (turns.map operationOf) state = reached outside (mine ++ theirs) state := by
  induction turns generalizing mine theirs state with
  | nil =>
    subst hleft hright
    exact ⟨rfl, rfl, rfl⟩
  | cons turn turns ih =>
    cases turn with
    | inl operation =>
      obtain rfl : operation :: turns.filterMap Sum.getLeft? = mine := hleft
      have hrest : turns.filterMap Sum.getRight? = theirs := hright
      obtain ⟨hfirst, hothers⟩ := List.forall_mem_cons.1 hmine
      obtain ⟨hfirstApart, hothersApart⟩ := List.forall_mem_cons.1 happart
      obtain ⟨hleftTold, hrightTold, hreached⟩ :=
        ih hothers htheirs hothersApart rfl hrest (stepped outside state operation)
      refine ⟨congrArg (_ :: ·) hleftTold, hrightTold.trans ?_, hreached⟩
      exact exchanges_stepped htheirs hfirst hfirstApart hclock state
    | inr other =>
      have hrest : turns.filterMap Sum.getLeft? = mine := hleft
      obtain rfl : other :: turns.filterMap Sum.getRight? = theirs := hright
      obtain ⟨hfirst, hothers⟩ := List.forall_mem_cons.1 htheirs
      have hfirstApart : ∀ operation ∈ mine, other.address? ≠ operation.address? :=
        fun operation hmem => (happart operation hmem other List.mem_cons_self).symm
      have hothersApart := fun operation hmem later hlater =>
        happart operation hmem later (List.mem_cons_of_mem other hlater)
      obtain ⟨hleftTold, hrightTold, hreached⟩ :=
        ih hmine hothers hothersApart hrest rfl (stepped outside state other)
      refine ⟨hleftTold.trans ?_, congrArg (_ :: ·) hrightTold, hreached.trans ?_⟩
      · exact exchanges_stepped hmine hfirst hfirstApart hclock state
      · rw [reached, reached, List.foldl_append, List.foldl_append]
        have hputOff := reached_stepped hmine hfirst hfirstApart hclock state
        exact congrArg (reached outside (turns.filterMap Sum.getRight?)) hputOff

end Steps

/-- The turns of two clients: one counts and samples `load`, the other does the same under other
names and stores a map.  Both create what is not there yet. -/
def pageAndJobTurns : List (Operation ⊕ Operation) :=
  [.inl (.incrementCounter "pages" 2), .inr (.incrementCounter "jobs" 5),
    .inr (.seriesPush "delay" ⟨20, 7.0⟩), .inl (.seriesPush "load" ⟨20, 2.0⟩),
    .inr (.writeStorage "last" [("job", .integer 1)]), .inl (.seriesPop "load"),
    .inl (.seriesItems "load" 5), .inr (.readStorage "last"), .inl (.counterValue "pages"),
    .inr (.seriesAggregate "delay" .count 10 2)]

/-- A page and a job that take turns on one store. -/
theorem clients_apart_unnoticed_pageAndJob :
    let mine := pageAndJobTurns.filterMap Sum.getLeft?
    let theirs := pageAndJobTurns.filterMap Sum.getRight?
    let state : Store × Scene := (twoSamples, { clock := 40 })
    (∀ operation ∈ mine, ∀ other ∈ theirs, operation.address? ≠ other.address?) ∧
      (sharedExchanges Scene.surroundings pageAndJobTurns state).filterMap Sum.getLeft? =
        exchanges Scene.surroundings mine state ∧
      (sharedExchanges Scene.surroundings pageAndJobTurns state).filterMap Sum.getRight? =
        exchanges Scene.surroundings theirs state ∧
      reached Scene.surroundings (pageAndJobTurns.map operationOf) state =
        reached Scene.surroundings (mine ++ theirs) state := by
  intro mine theirs state
  have hstill : Scene.surroundings.Still := fun _ => rfl
  have happart : ∀ operation ∈ mine, ∀ other ∈ theirs, operation.address? ≠ other.address? := by
    decide
  exact ⟨happart, clients_apart_unnoticed hstill (by decide) (by decide) happart rfl rfl state⟩

end Store

end MetricScript
