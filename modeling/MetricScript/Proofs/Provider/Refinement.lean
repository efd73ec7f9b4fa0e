import MetricScript.Provider.Memory
import MetricScript.Proofs.Series.Samples
import MetricScript.Proofs.Table

/-!
# The store refines finite maps

Seen from outside, a store is a map from times to values for each name of a series, next to
its counters and its stored maps.  Every operation answers and changes the store as it would
on these maps, and after any history of operations each series is still ascending in time,
which is what the next operation relies on.
-/

namespace MetricScript

namespace Store

open Series

/-- Every stored series is ascending. -/
def Sorted (store : Store) : Prop := ∀ entry ∈ store.series, Ascending entry.2

/-- What an observer can tell of a store. -/
structure View where
  counters : Table Int64
  series : String → Bindings
  storage : Table (Table Json)

/-- The view of a store, in which a series is the map of its bindings. -/
def view (store : Store) : View where
  counters := store.counters
  series name := bindings (store.points name)
  storage := store.storage

def View.rebind (view : View) (name : String) (bound : Bindings) : View :=
  { view with series := Function.update view.series name bound }

/-- The value of a counter; counters that are not there read as 0. -/
def View.counter (view : View) (name : String) : Int64 :=
  (Table.get? name view.counters).getD 0

def View.setCounter (view : View) (name : String) (value : Int64) : View :=
  { view with counters := Table.insert name value view.counters }

/-! ## What operations do to the maps -/

/-- The reply and the view that are right for an operation on a view.  Aggregates depend on
the maps and the clock alone; what lies outside the store is not part of the view. -/
def Meets : (operation : Operation) → View → operation.Reply → View → Prop
  | .counterValue name, before, reply, after =>
      reply = .ok (before.counter name) ∧ after = before
  | .setCounter name value, before, reply, after =>
      reply = .ok () ∧ after = before.setCounter name value
  | .incrementCounter name delta, before, reply, after =>
      reply = .ok () ∧ after = before.setCounter name (addClamped (before.counter name) delta)
  | .seriesLast name, before, reply, after =>
      ∃ newest, reply = .ok newest ∧ IsNewest (before.series name) newest ∧ after = before
  | .seriesAggregate name function interval count, before, reply, after =>
      (∃ now, ∀ store : Store, store.Sorted → store.view = before →
        reply = store.aggregate now name function interval count) ∧ after = before
  | .seriesCompute name function seconds, before, reply, after =>
      (∃ now, ∀ store : Store, store.Sorted → store.view = before →
        reply = store.compute now name function seconds) ∧ after = before
  | .seriesPush name point, before, reply, after =>
      reply = .ok () ∧ after = before.rebind name
        (Function.update (before.series name) point.timestamp (some point.value))
  | .seriesPop name, before, reply, after =>
      ∃ newest, reply = .ok newest ∧ IsNewest (before.series name) newest ∧
        after = before.rebind name (without (before.series name) newest)
  | .seriesTrim name (.since first), before, reply, after =>
      reply = .ok () ∧ after = before.rebind name (since first (before.series name))
  | .seriesTrim name (.count samples), before, reply, after =>
      reply = .ok () ∧ after = before.rebind name (greatest samples (before.series name))
  | .seriesItems name count, before, reply, after =>
      ∃ items, reply = .ok items ∧ Ascending items ∧
        bindings items = greatest count (before.series name) ∧ after = before
  | .readStorage key, before, reply, after =>
      reply = .ok ((Table.get? key before.storage).getD []) ∧ after = before
  | .writeStorage key value, before, reply, after =>
      reply = .ok () ∧
        after = { before with storage := Table.insert key value before.storage }
  | .http _, before, _, after | .fileText _, before, _, after => after = before

/-! ## One operation -/

theorem Sorted.points {store : Store} (hsorted : store.Sorted) (name : String) :
    Ascending (store.points name) := by
  unfold Store.points
  cases hget : Table.get? name store.series with
  | none => exact List.Pairwise.nil
  | some points => exact hsorted _ (Table.mem_of_get? hget)

/-- A sorted store has one series for the bindings of a name. -/
theorem points_of_view {left right : Store} (hleft : left.Sorted) (hright : right.Sorted)
    (hview : left.view = right.view) (name : String) : left.points name = right.points name := by
  apply (hleft.points name).eq_of_bindings (hright.points name)
  exact congrFun (congrArg View.series hview) name

theorem Sorted.pushPoint {store : Store} (hsorted : store.Sorted) (name : String)
    (point : Point) : (store.pushPoint name point).Sorted := by
  exact Table.forall_insert hsorted name ((hsorted.points name).push point)

theorem Sorted.modifySeries {store : Store} (hsorted : store.Sorted) (name : String)
    {change : Series → Series}
    (hchange : ∀ points, Ascending points → Ascending (change points)) :
    (store.modifySeries name change).Sorted := by
  intro entry hmem
  rcases Table.mem_modify hmem with hmem | ⟨old, hold, hentry⟩
  · exact hsorted entry hmem
  · rw [hentry]
    exact hchange _ (hsorted old hold)

/-- Pushing a sample changes one series only. -/
theorem points_pushPoint (store : Store) (name : String) (point : Point) (other : String) :
    (store.pushPoint name point).points other =
      if other = name then Series.push point (store.points name) else store.points other := by
  unfold Store.points Store.pushPoint
  split
  · next heq =>
    subst heq
    simp [Store.points]
  · next hne => simp [Table.get?_insert_of_ne hne]

/-- Changing a series leaves the others alone; one that is missing counts as empty. -/
theorem points_modifySeries (store : Store) (name : String) {change : Series → Series}
    (hempty : change [] = []) (other : String) :
    (store.modifySeries name change).points other =
      if other = name then change (store.points name) else store.points other := by
  unfold Store.points Store.modifySeries
  split
  · next heq =>
    subst heq
    rw [Table.get?_modify_self]
    cases Table.get? other store.series with
    | none => exact hempty.symm
    | some points => rfl
  · next hne => rw [Table.get?_modify_of_ne hne]

/-- The view of a store in which one series was replaced. -/
theorem view_of_points {before after : Store} {name : String} {points : Series}
    (hpoints : ∀ other, after.points other =
      if other = name then points else before.points other)
    (hcounters : after.counters = before.counters) (hstorage : after.storage = before.storage) :
    after.view = before.view.rebind name (bindings points) := by
  have hseries : (fun other => bindings (after.points other)) =
      Function.update (fun other => bindings (before.points other)) name (bindings points) := by
    funext other
    rw [hpoints]
    by_cases heq : other = name
    · subst heq
      simp
    · rw [if_neg heq, Function.update_of_ne heq]
  simp only [Store.view, View.rebind, hcounters, hstorage, hseries]

theorem view_pushPoint {store : Store} (hsorted : store.Sorted) (name : String) (point : Point) :
    (store.pushPoint name point).view = store.view.rebind name
      (Function.update (store.view.series name) point.timestamp (some point.value)) := by
  rw [view_of_points (points_pushPoint store name point) rfl rfl,
    bindings_push (hsorted.points name)]
  rfl

theorem view_modifySeries (store : Store) (name : String) (change : Series → Series)
    (hempty : change [] = []) :
    (store.modifySeries name change).view =
      store.view.rebind name (bindings (change (store.points name))) :=
  view_of_points (points_modifySeries store name hempty) rfl rfl

section Steps

variable {σ : Type} (outside : Surroundings (StateM σ))

def replied (state : Store × σ) (operation : Operation) : operation.Reply :=
  (perform outside operation state.1 state.2).1.1

def stepped (state : Store × σ) (operation : Operation) : Store × σ :=
  ((perform outside operation state.1 state.2).1.2, (perform outside operation state.1 state.2).2)

def reached (history : List Operation) (state : Store × σ) : Store × σ :=
  history.foldl (stepped outside) state

/-- No operation disorders a series. -/
theorem sorted_stepped {state : Store × σ} (hsorted : state.1.Sorted) (operation : Operation) :
    (stepped outside state operation).1.Sorted := by
  cases operation with
  | counterValue | setCounter | incrementCounter | seriesLast | seriesAggregate | seriesCompute
  | seriesItems | readStorage | writeStorage | http | fileText => exact hsorted
  | seriesPush name point => exact hsorted.pushPoint name point
  | seriesPop name => exact hsorted.modifySeries name fun _ hpoints => hpoints.dropLast
  | seriesTrim name trim =>
    refine hsorted.modifySeries name fun points hpoints => ?_
    cases trim with
    | since first => exact hpoints.filter _
    | count samples => exact hpoints.newest samples

/-- Every operation on a sorted store meets its specification. -/
theorem meets_stepped {state : Store × σ} (hsorted : state.1.Sorted) (operation : Operation) :
    Meets operation state.1.view (replied outside state operation)
      (stepped outside state operation).1.view := by
  cases operation with
  | counterValue name => exact ⟨rfl, rfl⟩
  | setCounter name value => exact ⟨rfl, rfl⟩
  | incrementCounter name delta => exact ⟨rfl, rfl⟩
  | seriesLast name => exact ⟨_, rfl, isNewest_last (hsorted.points name), rfl⟩
  | seriesAggregate name function interval count =>
    refine ⟨⟨(outside.now state.2).1, fun store hstore hview => ?_⟩, rfl⟩
    have hpoints := points_of_view hsorted hstore hview.symm name
    change state.1.aggregate _ name function interval count = _
    simp only [aggregate, window, hpoints]
  | seriesCompute name function seconds =>
    refine ⟨⟨(outside.now state.2).1, fun store hstore hview => ?_⟩, rfl⟩
    have hpoints := points_of_view hsorted hstore hview.symm name
    change state.1.compute _ name function seconds = _
    simp only [compute, window, hpoints]
  | seriesPush name point => exact ⟨rfl, view_pushPoint hsorted name point⟩
  | seriesPop name =>
    refine ⟨_, rfl, isNewest_last (hsorted.points name), ?_⟩
    refine (view_modifySeries state.1 name List.dropLast List.dropLast_nil).trans ?_
    rw [bindings_dropLast (hsorted.points name)]
    rfl
  | seriesTrim name trim =>
    have hview := view_modifySeries state.1 name (fun points => Series.trim points trim)
      (trim_nil trim)
    cases trim with
    | since first =>
      refine ⟨rfl, hview.trans ?_⟩
      rw [bindings_since (hsorted.points name)]
      rfl
    | count samples =>
      refine ⟨rfl, hview.trans ?_⟩
      change state.1.view.rebind name (bindings (newest samples (state.1.points name))) = _
      rw [bindings_newest (hsorted.points name)]
      rfl
  | seriesItems name count =>
    exact ⟨_, rfl, (hsorted.points name).newest count,
      bindings_newest (hsorted.points name) count, rfl⟩
  | readStorage key => exact ⟨rfl, rfl⟩
  | writeStorage key value => exact ⟨rfl, rfl⟩
  | http request => exact rfl
  | fileText path => exact rfl

theorem sorted_reached {state : Store × σ} (hsorted : state.1.Sorted)
    (history : List Operation) : (reached outside history state).1.Sorted := by
  induction history generalizing state with
  | nil => exact hsorted
  | cons operation history ih => exact ih (sorted_stepped outside hsorted operation)

/-- After any history of operations on a store with ascending series, all series are still
ascending, and the next operation answers and changes the store as on the maps. -/
theorem series_refine_maps {store : Store} (hsorted : store.Sorted) (surrounding : σ)
    (history : List Operation) (operation : Operation) :
    let state := reached outside history (store, surrounding)
    state.1.Sorted ∧ (stepped outside state operation).1.Sorted ∧
      Meets operation state.1.view (replied outside state operation)
        (stepped outside state operation).1.view := by
  have hreached : (reached outside history (store, surrounding)).1.Sorted :=
    sorted_reached outside hsorted history
  exact ⟨hreached, sorted_stepped outside hreached operation,
    meets_stepped outside hreached operation⟩

end Steps

def twoSamples : Store := { series := [("load", [⟨10, 1.0⟩, ⟨30, 3.0⟩])] }

theorem twoSamples_sorted : twoSamples.Sorted := by
  intro entry hmem
  obtain rfl : entry = ("load", [⟨10, 1.0⟩, ⟨30, 3.0⟩]) := by simpa [twoSamples] using hmem
  exact List.pairwise_pair.2 (show (10 : Int64) < 30 by decide)

/-- A sample between the two, one in the place of the older and one taken away: the newest
two are then asked for. -/
theorem series_refine_maps_twoSamples :
    twoSamples.Sorted ∧
      let history := [.seriesPush "load" ⟨20, 2.0⟩, .seriesPush "load" ⟨10, 5.0⟩,
        .seriesPop "load"]
      let state := reached Scene.surroundings history (twoSamples, { clock := 40 })
      state.1.Sorted ∧
        (stepped Scene.surroundings state (.seriesItems "load" 2)).1.Sorted ∧
        Meets (.seriesItems "load" 2) state.1.view
          (replied Scene.surroundings state (.seriesItems "load" 2))
          (stepped Scene.surroundings state (.seriesItems "load" 2)).1.view :=
  ⟨twoSamples_sorted, series_refine_maps Scene.surroundings twoSamples_sorted _ _ _⟩

end Store

end MetricScript
