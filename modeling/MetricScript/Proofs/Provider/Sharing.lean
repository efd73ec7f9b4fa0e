import Mathlib
import MetricScript.Proofs.Provider.Refinement

/-!
# Aggregates amid the work of others

Clients that share a store take turns at it: an operation holds the store while it answers, and
nobody sees the store in between.  The aggregate is the exception.  It reads the clock once and
then takes hold of the store anew for each of its buckets, so others get at the store between
two buckets.

Each point of the result is right at the moment at which its bucket was read.  If all that the
others do in between concerns no more than one of the buckets, the whole result is that of a
single moment.  In general it is not: two samples that come in between can make up a result
that the store never had.
-/

namespace MetricScript

/-! ## Windows that an operation leaves alone -/

/-- The operation leaves the samples of a series between two times as they are. -/
def Operation.Spares (name : String) (bucket : Int64 × Int64) : Operation → Prop
  | .seriesPush other point =>
      other = name → point.timestamp < bucket.1 ∨ bucket.2 < point.timestamp
  | .seriesTrim other (.since first) => other = name → first ≤ bucket.1
  | .seriesPop other | .seriesTrim other (.count _) => other ≠ name
  | .counterValue _ | .setCounter _ _ | .incrementCounter _ _ | .seriesLast _
  | .seriesAggregate _ _ _ _ | .seriesCompute _ _ _ | .seriesItems _ _ | .readStorage _
  | .writeStorage _ _ | .http _ | .fileText _ => True

namespace Series

theorem narrow_lt (points : List Point) (time : Int64) (base : Nat) {size : Nat}
    (hsize : 0 < size) :
    narrow points time base size < base + size := by
  fun_induction narrow points time base size with
  | case1 base size hsmall => omega
  | case2 base size hlarge middle newer ih =>
    refine Nat.lt_of_lt_of_le (ih (by omega)) ?_
    split <;> omega

section Outside

variable {first final : Int64} {point : Point}
  (houtside : point.timestamp < first ∨ final < point.timestamp)
include houtside

/-- A sample outside of a window is not seen in it, nor is one of the same time. -/
theorem window_cons_of_outside {other : Point} (htime : other.timestamp = point.timestamp)
    (points : List Point) : window first final (other :: points) = window first final points := by
  have hunseen :
      (decide (first ≤ other.timestamp) && decide (other.timestamp ≤ final)) = false := by
    rw [htime, Bool.and_eq_false_iff, decide_eq_false_iff_not, decide_eq_false_iff_not,
      Int64.not_le, Int64.not_le]
    exact houtside
  simp only [window, List.filter_cons, hunseen, Bool.false_eq_true, if_false]

omit houtside in
theorem window_append (front back : List Point) :
    window first final (front ++ back) = window first final front ++ window first final back := by
  rw [window, List.filter_append, List.map_append]
  rfl

theorem window_insertIdx_of_outside {points : List Point} {base : Nat}
    (hbase : base ≤ points.length) :
    window first final (points.insertIdx base point) = window first final points := by
  rw [insertIdx_eq_take_drop _ _ hbase, window_append, window_cons_of_outside houtside rfl,
    ← window_append, List.take_append_drop]

/-- A sample outside of a window is put in without a trace there, in whatever order the samples
of the series are. -/
theorem window_push_of_outside (points : List Point) :
    window first final (push point points) = window first final points := by
  by_cases hne : points = []
  · subst hne
    exact window_cons_of_outside houtside rfl []
  have hbase := narrow_lt points point.timestamp 0 (List.length_pos_of_ne_nil hne)
  rw [Nat.zero_add] at hbase
  unfold push
  generalize narrow points point.timestamp 0 points.length = base at hbase
  simp only [List.getElem?_eq_getElem hbase]
  split
  · next hsame =>
    have hsplit : points = points.take base ++ points[base] :: points.drop (base + 1) := by
      rw [← List.drop_eq_getElem_cons hbase, List.take_append_drop]
    rw [List.set_eq_take_append_cons_drop, if_pos hbase, window_append,
      window_cons_of_outside houtside rfl]
    conv_rhs => rw [hsplit, window_append, window_cons_of_outside houtside hsame]
  · split
    · exact window_insertIdx_of_outside houtside hbase
    · exact window_insertIdx_of_outside houtside hbase.le

end Outside

/-- Trimming samples from before a window leaves the window alone. -/
theorem window_since {first final time : Int64} (htime : time ≤ first) (points : List Point) :
    window first final (trim points (.since time)) = window first final points := by
  simp only [window, trim, List.filter_filter]
  congr 1
  apply List.filter_congr
  intro point _
  by_cases hfirst : first ≤ point.timestamp
  · simp [hfirst, Int64.le_trans htime hfirst]
  · simp [hfirst]

theorem length_bucketsAfter (start interval : Int64) (count : Nat) :
    (bucketsAfter start interval count).length = count := by
  induction count generalizing start with
  | zero => rfl
  | succ count ih => exact congrArg (· + 1) (ih _)

theorem length_buckets (now interval : Int64) (count : Nat) :
    (buckets now interval count).length = count := length_bucketsAfter _ _ _

end Series

namespace Store

open Series

/-- The point of a bucket, as the samples of a store make it. -/
def bucketPoint (store : Store) (name : String) (function : AggregateFunction)
    (bucket : Int64 × Int64) : Point :=
  ⟨bucket.2, function.apply (store.window name bucket.1 bucket.2)⟩

/-- The length of the buckets of an aggregate, or why there is none. -/
def bucketSpan (interval count : Nat) : Except ProviderError Int64 :=
  if maxBuckets < count then
    .error (.series (toString count ++ " buckets requested, at most " ++
      toString maxBuckets ++ " allowed"))
  else timeSpan "interval" interval

/-- An aggregate is one bucket point for each of its buckets. -/
theorem aggregate_eq (store : Store) (now : Int64) (name : String) (function : AggregateFunction)
    (interval count : Nat) :
    store.aggregate now name function interval count =
      (bucketSpan interval count).map fun span =>
        (buckets now span count).map (store.bucketPoint name function) := by
  unfold aggregate bucketSpan
  split
  · rfl
  · cases timeSpan "interval" interval with
    | error error => rfl
    | ok span => rfl

section Sharing

variable {σ : Type} (outside : Surroundings (StateM σ))

/-- An operation that spares a bucket does not change what its window holds. -/
theorem window_stepped_of_spares (state : Store × σ) {name : String} {bucket : Int64 × Int64}
    {operation : Operation} (hspares : operation.Spares name bucket) :
    (stepped outside state operation).1.window name bucket.1 bucket.2 =
      state.1.window name bucket.1 bucket.2 := by
  cases operation with
  | counterValue | setCounter | incrementCounter | seriesLast | seriesAggregate | seriesCompute
  | seriesItems | readStorage | writeStorage | http | fileText => rfl
  | seriesPush other point =>
    change Series.window bucket.1 bucket.2 ((state.1.pushPoint other point).points name) = _
    rw [points_pushPoint]
    split
    · next hname =>
      rw [hname]
      exact window_push_of_outside (hspares hname.symm) _
    · rfl
  | seriesPop other =>
    change Series.window bucket.1 bucket.2
      ((state.1.modifySeries other List.dropLast).points name) = _
    rw [points_modifySeries _ _ List.dropLast_nil, if_neg (Ne.symm hspares)]
    rfl
  | seriesTrim other trim =>
    change Series.window bucket.1 bucket.2
      ((state.1.modifySeries other fun points => Series.trim points trim).points name) = _
    rw [points_modifySeries _ _ (trim_nil trim)]
    split
    · next hname =>
      cases trim with
      | since first =>
        rw [hname]
        exact window_since (hspares hname.symm) _
      | count samples => exact absurd hname.symm hspares
    · rfl

/-! ## Aggregates in several sections -/

theorem bind_apply {α β : Type} (first : StateT Store (StateM σ) α)
    (next : α → StateT Store (StateM σ) β) (store : Store) (around : σ) :
    (first >>= next) store around =
      next (first store around).1.1 (first store around).1.2 (first store around).2 := rfl

/-- What other clients do in their turn, one operation after the other. -/
def takeTurn : List Operation → StateT Store (StateM σ) Unit
  | [] => return
  | operation :: operations => do
      let _ ← perform outside operation
      takeTurn operations

/-- Reads buckets one after the other.  Each is read while no other client is at the store, and
others have a turn before it. -/
def readBuckets (name : String) (function : AggregateFunction) :
    List (List Operation × (Int64 × Int64)) → StateT Store (StateM σ) (List Point)
  | [] => return []
  | (turn, bucket) :: rest => do
      takeTurn outside turn
      let point := (← get).bucketPoint name function bucket
      return point :: (← readBuckets name function rest)

/-- An aggregate while others are at work: they have a turn between any two of its buckets, so
there is one bucket more than there are turns. -/
def sharedAggregate (name : String) (function : AggregateFunction) (interval : Nat)
    (turns : List (List Operation)) :
    StateT Store (StateM σ) (Except ProviderError (List Point)) := do
  let now ← outside.now
  match bucketSpan interval (turns.length + 1) with
  | .error error => return .error error
  | .ok span =>
      let points ← readBuckets outside name function
        (([] :: turns).zip (buckets now span (turns.length + 1)))
      return .ok points

/-- The stores that are passed through during some operations, from the first to the last. -/
def passed : List Operation → Store × σ → List Store
  | [], state => [state.1]
  | operation :: operations, state =>
      state.1 :: passed operations (stepped outside state operation)

/-- The stores from which buckets are read, if others have these turns before them. -/
def moments : List (List Operation) → Store × σ → List Store
  | [], _ => []
  | turn :: turns, state =>
      (reached outside turn state).1 :: moments turns (reached outside turn state)

theorem takeTurn_apply (turn : List Operation) (state : Store × σ) :
    takeTurn outside turn state.1 state.2 =
      (((), (reached outside turn state).1), (reached outside turn state).2) := by
  induction turn generalizing state with
  | nil => rfl
  | cons operation turn ih => exact ih (stepped outside state operation)

/-- The points read bucket by bucket are those of the moments between the turns. -/
theorem readBuckets_apply (name : String) (function : AggregateFunction)
    (turns : List (List Operation)) (buckets : List (Int64 × Int64)) (state : Store × σ) :
    (readBuckets outside name function (turns.zip buckets) state.1 state.2).1.1 =
      (moments outside turns state).zipWith (fun store => store.bucketPoint name function)
        buckets := by
  induction turns generalizing buckets state with
  | nil => rfl
  | cons turn turns ih =>
    cases buckets with
    | nil => rfl
    | cons bucket buckets =>
      rw [moments, List.zipWith_cons_cons, ← ih buckets (reached outside turn state),
        List.zip_cons_cons, readBuckets, bind_apply, takeTurn_apply]
      rfl

/-- What an aggregate returns depends on the stores at its moments only. -/
theorem sharedAggregate_apply (name : String) (function : AggregateFunction) (interval : Nat)
    (turns : List (List Operation)) (state : Store × σ) :
    (sharedAggregate outside name function interval turns state.1 state.2).1.1 =
      (bucketSpan interval (turns.length + 1)).map fun span =>
        (moments outside ([] :: turns) (state.1, (outside.now state.2).2)).zipWith
          (fun store => store.bucketPoint name function)
          (buckets (outside.now state.2).1 span (turns.length + 1)) := by
  rw [sharedAggregate, bind_apply]
  cases hspan : bucketSpan interval (turns.length + 1) with
  | error error => rfl
  | ok span =>
    rw [Except.map, ← readBuckets_apply]
    rfl

/-- If nobody else takes a turn, reading bucket by bucket is the one aggregate. -/
theorem readBuckets_of_idle (name : String) (function : AggregateFunction)
    {turns : List (List Operation)} (hidle : ∀ turn ∈ turns, turn = [])
    {buckets : List (Int64 × Int64)} (hlength : turns.length = buckets.length) (store : Store)
    (around : σ) :
    readBuckets outside name function (turns.zip buckets) store around =
      ((buckets.map (store.bucketPoint name function), store), around) := by
  induction turns generalizing buckets with
  | nil =>
    obtain rfl := List.length_eq_zero_iff.1 hlength.symm
    rfl
  | cons turn turns ih =>
    obtain ⟨rfl, hothers⟩ := List.forall_mem_cons.1 hidle
    cases buckets with
    | nil => exact nomatch hlength
    | cons bucket buckets =>
      rw [List.zip_cons_cons, readBuckets, bind_apply, takeTurn_apply outside [] (store, around)]
      change (readBuckets outside name function (turns.zip buckets) >>= fun points =>
        pure (store.bucketPoint name function bucket :: points)) store around = _
      rw [bind_apply, ih hothers (Nat.succ.inj hlength)]
      rfl

/-- If nobody else is at work, the aggregate is the operation of the provider. -/
theorem sharedAggregate_of_idle (name : String) (function : AggregateFunction) (interval : Nat)
    {turns : List (List Operation)} (hidle : ∀ turn ∈ turns, turn = []) :
    sharedAggregate outside name function interval turns =
      perform outside (.seriesAggregate name function interval (turns.length + 1)) := by
  funext store around
  have hanswer : perform outside (.seriesAggregate name function interval (turns.length + 1))
      store around = ((store.aggregate (outside.now around).1 name function interval
        (turns.length + 1), store), (outside.now around).2) := rfl
  rw [hanswer, aggregate_eq, sharedAggregate, bind_apply]
  cases bucketSpan interval (turns.length + 1) with
  | error error => rfl
  | ok span =>
    have hbuckets := length_buckets (outside.now around).1 span (turns.length + 1)
    change (readBuckets outside name function
      (([] :: turns).zip (buckets (outside.now around).1 span (turns.length + 1))) >>=
        fun points => pure (Except.ok points)) store (outside.now around).2 = _
    rw [bind_apply, readBuckets_of_idle outside name function
      (List.forall_mem_cons.2 ⟨rfl, hidle⟩) hbuckets.symm]
    rfl

theorem length_moments (turns : List (List Operation)) (state : Store × σ) :
    (moments outside turns state).length = turns.length := by
  induction turns generalizing state with
  | nil => rfl
  | cons turn turns ih => exact congrArg (· + 1) (ih _)

theorem mem_passed_self (operations : List Operation) (state : Store × σ) :
    state.1 ∈ passed outside operations state := by
  cases operations with
  | nil => exact List.mem_singleton_self _
  | cons operation operations => exact List.mem_cons_self

theorem mem_passed_append {front back : List Operation} {state : Store × σ} {store : Store}
    (hstore : store ∈ passed outside back (reached outside front state)) :
    store ∈ passed outside (front ++ back) state := by
  induction front generalizing state with
  | nil => exact hstore
  | cons operation front ih => exact List.mem_cons_of_mem _ (ih hstore)

/-- Buckets are read from stores that are passed through. -/
theorem mem_passed_of_mem_moments {turns : List (List Operation)} {state : Store × σ}
    {store : Store} (hstore : store ∈ moments outside turns state) :
    store ∈ passed outside turns.flatten state := by
  induction turns generalizing state with
  | nil => exact absurd hstore List.not_mem_nil
  | cons turn turns ih =>
    rw [List.flatten_cons]
    apply mem_passed_append
    rcases List.mem_cons.1 hstore with rfl | hlater
    · exact mem_passed_self outside _ _
    · exact ih hlater

/-- A window that is spared by all operations stays as it is on the way. -/
theorem window_of_mem_passed {operations : List Operation} {state : Store × σ} {name : String}
    {bucket : Int64 × Int64} (hspares : ∀ operation ∈ operations, operation.Spares name bucket)
    {store : Store} (hstore : store ∈ passed outside operations state) :
    store.window name bucket.1 bucket.2 = state.1.window name bucket.1 bucket.2 := by
  induction operations generalizing state with
  | nil => rw [List.mem_singleton.1 hstore]
  | cons operation operations ih =>
    obtain ⟨hfirst, hothers⟩ := List.forall_mem_cons.1 hspares
    rcases List.mem_cons.1 hstore with rfl | hlater
    · rfl
    · rw [ih hothers hlater, window_stepped_of_spares outside state hfirst]

/-- Stores that agree on the windows of the buckets give the points of one moment. -/
theorem zipWith_bucketPoint {stores : List Store} {buckets : List (Int64 × Int64)}
    {moment : Store} {name : String} {function : AggregateFunction}
    (hlength : stores.length = buckets.length)
    (hwindow : ∀ (place : Nat) store bucket, stores[place]? = some store →
      buckets[place]? = some bucket →
        store.window name bucket.1 bucket.2 = moment.window name bucket.1 bucket.2) :
    stores.zipWith (fun store => store.bucketPoint name function) buckets =
      buckets.map (moment.bucketPoint name function) := by
  apply List.ext_getElem
  · rw [List.length_zipWith, List.length_map, hlength, Nat.min_self]
  · intro place hzip hmap
    have hbucket : place < buckets.length := by rwa [List.length_map] at hmap
    have hstore : place < stores.length := hlength.symm ▸ hbucket
    rw [List.getElem_zipWith, List.getElem_map, bucketPoint, bucketPoint,
      hwindow place _ _ (List.getElem?_eq_getElem hstore) (List.getElem?_eq_getElem hbucket)]

/-- **What an aggregate returns while others are at work.**  Without them it is one operation of
the provider, and it fails whenever that one does.  Otherwise each of its points is the one that a
whole aggregate would have in its place, on a store that was passed through between its first and
its last bucket.  If all that is done in between spares every bucket but one, a single such store
explains the whole result. -/
theorem aggregate_amid_others (name : String) (function : AggregateFunction) (interval : Nat)
    (turns : List (List Operation)) (state : Store × σ) :
    let count := turns.length + 1
    let now := (outside.now state.2).1
    let between := passed outside turns.flatten (state.1, (outside.now state.2).2)
    let returned := (sharedAggregate outside name function interval turns state.1 state.2).1.1
    ((∀ turn ∈ turns, turn = []) → sharedAggregate outside name function interval turns =
      perform outside (.seriesAggregate name function interval count)) ∧
    (∀ error, returned = .error error ↔
      state.1.aggregate now name function interval count = .error error) ∧
    (∀ points, returned = .ok points → points.length = count ∧
      ∀ place < count, ∃ moment ∈ between, ∃ whole,
        moment.aggregate now name function interval count = .ok whole ∧
          points[place]? = whole[place]?) ∧
    ∀ place : Nat, (∀ span, bucketSpan interval count = .ok span →
        ∀ (other : Nat) bucket, (buckets now span count)[other]? = some bucket → other ≠ place →
          ∀ operation ∈ turns.flatten, operation.Spares name bucket) →
      ∃ moment ∈ between, returned = moment.aggregate now name function interval count := by
  intro count now between returned
  refine ⟨sharedAggregate_of_idle outside name function interval, ?_⟩
  have hreturned : returned = (bucketSpan interval count).map fun span =>
      (moments outside ([] :: turns) (state.1, (outside.now state.2).2)).zipWith
        (fun store => store.bucketPoint name function) (buckets now span count) :=
    sharedAggregate_apply outside name function interval turns state
  have hlength : (moments outside ([] :: turns) (state.1, (outside.now state.2).2)).length =
      count := length_moments outside _ _
  have hbetween : ∀ store ∈ moments outside ([] :: turns) (state.1, (outside.now state.2).2),
      store ∈ between := fun store hstore =>
    @mem_passed_of_mem_moments _ outside ([] :: turns) _ store hstore
  generalize moments outside ([] :: turns) (state.1, (outside.now state.2).2) = stores
    at hreturned hlength hbetween
  simp only [aggregate_eq, hreturned]
  cases bucketSpan interval count with
  | error error =>
    refine ⟨fun _ => Iff.rfl, ?_, fun _ _ => ⟨state.1, mem_passed_self outside _ _, rfl⟩⟩
    intro points hpoints
    exact nomatch hpoints
  | ok span =>
    have hbuckets := length_buckets now span count
    refine ⟨fun _ => ⟨nofun, nofun⟩, ?_, ?_⟩
    · intro points hpoints
      obtain rfl := Except.ok.inj hpoints
      refine ⟨by rw [List.length_zipWith, hlength, hbuckets, Nat.min_self], fun place hplace => ?_⟩
      obtain ⟨moment, hmoment⟩ : ∃ moment, stores[place]? = some moment :=
        ⟨_, List.getElem?_eq_getElem (hlength.symm ▸ hplace)⟩
      refine ⟨moment, hbetween moment (List.mem_of_getElem? hmoment), _, rfl, ?_⟩
      rw [List.getElem?_zipWith, List.getElem?_map, hmoment]
      cases (buckets now span count)[place]? <;> rfl
    · intro place hspares
      -- The moment at which that one bucket is read, if there is such a bucket at all.
      obtain ⟨moment, hmoment, hplace⟩ : ∃ moment ∈ between, ∀ store,
          stores[place]? = some store → store = moment := by
        cases hstore : stores[place]? with
        | none => exact ⟨state.1, mem_passed_self outside _ _, fun store hsome => nomatch hsome⟩
        | some store =>
          exact ⟨store, hbetween store (List.mem_of_getElem? hstore),
            fun other hother => (Option.some.inj hother).symm⟩
      refine ⟨moment, hmoment, congrArg Except.ok ?_⟩
      apply zipWith_bucketPoint (hlength.trans hbuckets.symm)
      intro other store bucket hstore hbucket
      by_cases hother : other = place
      · rw [hplace store (hother ▸ hstore)]
      · have hsame := hspares span rfl other bucket hbucket hother
        rw [window_of_mem_passed outside hsame (hbetween store (List.mem_of_getElem? hstore)),
          window_of_mem_passed outside hsame hmoment]

end Sharing

/-- What others do between two buckets: a sample for each of them, the older one first. -/
def twoArrivals : List (List Operation) :=
  [[.seriesPush "load" ⟨85, 1.0⟩, .seriesPush "load" ⟨95, 1.0⟩]]

/-- **An aggregate that no store explains.**  An empty series is counted in two buckets of ten
seconds up to now, at time 100, and two samples arrive between the two.  The newer one is
counted and the older one is not, but at no moment was the newer one there without the older. -/
theorem aggregate_of_no_moment :
    let scene : Scene := { clock := 100 }
    let returned :=
      (sharedAggregate Scene.surroundings "load" .count 10 twoArrivals ({} : Store) scene).1.1
    returned = .ok [⟨90, 0.0⟩, ⟨100, 1.0⟩] ∧
      ∀ moment ∈ passed Scene.surroundings twoArrivals.flatten ({}, scene),
        moment.aggregate 100 "load" .count 10 2 ≠ returned := by
  decide +kernel

end Store

end MetricScript
