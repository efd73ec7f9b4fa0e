import Mathlib
import MetricScript.Proofs.Provider.Buckets

/-!
# Counting in any order

Clients that share a counter add to it in turns, and every sum is clamped to the 64-bit range.  A
sum that is cut off forgets by how much, so what is added after it counts from the border, and the
order of the increments can be seen in the end.

It cannot if the running sum never turns back from beyond a border: if all increments go the same
way, or if there is room for all that rise and for all that fall.  Then the counter holds one clamp
of the whole sum in whatever order the increments are made, and so it does on the way.  Without
that, two orders of the same increments lead to different values.
-/

namespace MetricScript

/-! ## Sums of increments -/

namespace Counting

/-- The sum of some increments, which is not clamped. -/
def total (deltas : List Int64) : Int := (deltas.map Int64.toInt).sum

/-- By how much the increments that rise do so. -/
def rises (deltas : List Int64) : Int := total (deltas.filter fun delta => 0 < delta)

/-- The sum of the increments that fall. -/
def falls (deltas : List Int64) : Int := total (deltas.filter fun delta => delta < 0)

/-- There is room above and below for everything that is added. -/
def Roomy (start : Int64) (deltas : List Int64) : Prop :=
  start.toInt + rises deltas ≤ Int64.maxValue.toInt ∧
    Int64.minValue.toInt ≤ start.toInt + falls deltas

/-- The increments go one way, or there is room for all of them. -/
def Steady (start : Int64) (deltas : List Int64) : Prop :=
  (∀ delta ∈ deltas, 0 ≤ delta) ∨ (∀ delta ∈ deltas, delta ≤ 0) ∨ Roomy start deltas

/-- A sum beyond a border of the range goes no way but further. -/
def Onward (sum : Int) (delta : Int64) : Prop :=
  (sum ≤ Int64.maxValue.toInt ∨ 0 ≤ delta) ∧ (Int64.minValue.toInt ≤ sum ∨ delta ≤ 0)

@[simp]
theorem total_nil : total [] = 0 := rfl

@[simp]
theorem total_cons (delta : Int64) (deltas : List Int64) :
    total (delta :: deltas) = delta.toInt + total deltas := List.sum_cons

@[simp]
theorem total_append (front back : List Int64) :
    total (front ++ back) = total front + total back := by
  rw [total, List.map_append, List.sum_append]
  rfl

theorem total_perm {left right : List Int64} (hperm : left.Perm right) :
    total left = total right := (hperm.map _).sum_eq

theorem total_nonneg {deltas : List Int64} (hrise : ∀ delta ∈ deltas, 0 ≤ delta) :
    0 ≤ total deltas := by
  refine List.sum_nonneg fun whole hwhole => ?_
  obtain ⟨delta, hdelta, rfl⟩ := List.mem_map.1 hwhole
  simpa only [Int64.le_iff_toInt_le, Int64.toInt_zero] using hrise delta hdelta

theorem total_nonpos {deltas : List Int64} (hfall : ∀ delta ∈ deltas, delta ≤ 0) :
    total deltas ≤ 0 := by
  induction deltas with
  | nil => exact le_rfl
  | cons delta deltas ih =>
    obtain ⟨hfirst, hothers⟩ := List.forall_mem_cons.1 hfall
    rw [Int64.le_iff_toInt_le, Int64.toInt_zero] at hfirst
    rw [total_cons]
    exact add_nonpos hfirst (ih hothers)

theorem rises_nonneg (deltas : List Int64) : 0 ≤ rises deltas :=
  total_nonneg fun _ hdelta => Int64.le_of_lt (of_decide_eq_true (List.mem_filter.1 hdelta).2)

theorem falls_nonpos (deltas : List Int64) : falls deltas ≤ 0 :=
  total_nonpos fun _ hdelta => Int64.le_of_lt (of_decide_eq_true (List.mem_filter.1 hdelta).2)

theorem total_filter_append (keep : Int64 → Bool) (front back : List Int64) :
    total ((front ++ back).filter keep) =
      total (front.filter keep) + total (back.filter keep) := by
  rw [List.filter_append, total_append]

theorem rises_append (front back : List Int64) :
    rises (front ++ back) = rises front + rises back := total_filter_append _ front back

theorem falls_append (front back : List Int64) :
    falls (front ++ back) = falls front + falls back := total_filter_append _ front back

theorem rises_perm {left right : List Int64} (hperm : left.Perm right) :
    rises left = rises right := total_perm (hperm.filter _)

theorem falls_perm {left right : List Int64} (hperm : left.Perm right) :
    falls left = falls right := total_perm (hperm.filter _)

theorem rises_cons (delta : Int64) (deltas : List Int64) :
    rises (delta :: deltas) = max delta.toInt 0 + rises deltas := by
  rw [rises, List.filter_cons, apply_ite total, total_cons, ← rises]
  simp only [decide_eq_true_eq, Int64.lt_iff_toInt_lt, Int64.toInt_zero]
  split <;> omega

theorem falls_cons (delta : Int64) (deltas : List Int64) :
    falls (delta :: deltas) = min delta.toInt 0 + falls deltas := by
  rw [falls, List.filter_cons, apply_ite total, total_cons, ← falls]
  simp only [decide_eq_true_eq, Int64.lt_iff_toInt_lt, Int64.toInt_zero]
  split <;> omega

theorem rises_pos {deltas : List Int64} {delta : Int64} (hmem : delta ∈ deltas)
    (hrise : 0 < delta) : 0 < rises deltas := by
  obtain ⟨front, back, rfl⟩ := List.append_of_mem hmem
  have hfront := rises_nonneg front
  have hback := rises_nonneg back
  rw [Int64.lt_iff_toInt_lt, Int64.toInt_zero] at hrise
  rw [rises_append, rises_cons]
  omega

theorem falls_neg {deltas : List Int64} {delta : Int64} (hmem : delta ∈ deltas)
    (hfall : delta < 0) : falls deltas < 0 := by
  obtain ⟨front, back, rfl⟩ := List.append_of_mem hmem
  have hfront := falls_nonpos front
  have hback := falls_nonpos back
  rw [Int64.lt_iff_toInt_lt, Int64.toInt_zero] at hfall
  rw [falls_append, falls_cons]
  omega

/-- What rises and what falls make up the sum. -/
theorem total_eq (deltas : List Int64) : total deltas = rises deltas + falls deltas := by
  induction deltas with
  | nil => rfl
  | cons delta deltas ih =>
    rw [total_cons, rises_cons, falls_cons, ih]
    omega

theorem Steady.perm {start : Int64} {left right : List Int64} (hsteady : Steady start left)
    (hperm : left.Perm right) : Steady start right := by
  refine hsteady.imp (fun hrise delta hdelta => hrise delta (hperm.mem_iff.2 hdelta)) ?_
  refine Or.imp (fun hfall delta hdelta => hfall delta (hperm.mem_iff.2 hdelta)) ?_
  rintro ⟨habove, hbelow⟩
  exact ⟨rises_perm hperm ▸ habove, falls_perm hperm ▸ hbelow⟩

/-- A steady sum never turns back from beyond a border. -/
theorem Steady.onward {start : Int64} {front back : List Int64} {delta : Int64}
    (hsteady : Steady start (front ++ delta :: back)) : Onward (start.toInt + total front) delta := by
  have hlow := start.minValue_le_toInt
  have hhigh := start.toInt_le
  obtain hrise | hfall | hroom := hsteady
  · have htotal := total_nonneg fun other hother => hrise other (List.mem_append_left _ hother)
    exact ⟨.inr (hrise delta (by simp)), .inl (by omega)⟩
  · have htotal := total_nonpos fun other hother => hfall other (List.mem_append_left _ hother)
    exact ⟨.inl (by omega), .inr (hfall delta (by simp))⟩
  · obtain ⟨habove, hbelow⟩ := hroom
    rw [rises_append] at habove
    rw [falls_append] at hbelow
    have hsum := total_eq front
    have hrises := rises_nonneg front
    have hfalls := falls_nonpos front
    have hrisesBehind := rises_nonneg (delta :: back)
    have hfallsBehind := falls_nonpos (delta :: back)
    exact ⟨.inl (by omega), .inl (by omega)⟩

/-- Clamping once more changes nothing while the sum goes onward. -/
theorem addClamped_ofIntClamp {sum : Int} {delta : Int64} (honward : Onward sum delta) :
    addClamped (.ofIntClamp sum) delta = .ofIntClamp (sum + delta.toInt) := by
  obtain ⟨habove, hbelow⟩ := honward
  rw [Int64.le_iff_toInt_le, Int64.toInt_zero] at habove hbelow
  have hlow := delta.minValue_le_toInt
  have hhigh := delta.toInt_le
  rw [← Int64.toInt_inj, addClamped]
  simp only [toInt_ofIntClamp]
  omega

end Counting

/-! ## Turns at a counter -/

/-- What an operation adds to a counter. -/
def Operation.delta? (name : String) : Operation → Option Int64
  | .incrementCounter other delta => if other = name then some delta else none
  | _ => none

def Operation.increments (name : String) (history : List Operation) : List Int64 :=
  history.filterMap (delta? name)

theorem Operation.increments_append (name : String) (front back : List Operation) :
    increments name (front ++ back) = increments name front ++ increments name back :=
  List.filterMap_append

theorem Operation.increments_incrementCounter (name : String) (deltas : List Int64) :
    increments name (deltas.map (.incrementCounter name)) = deltas := by
  have hsome : delta? name ∘ incrementCounter name = some := by
    funext delta
    exact if_pos rfl
  rw [increments, List.filterMap_map, hsome, List.filterMap_some]

theorem Operation.eq_of_delta? {name : String} {operation : Operation} {delta : Int64}
    (hdelta : operation.delta? name = some delta) : operation = .incrementCounter name delta := by
  unfold delta? at hdelta
  split at hdelta
  · split at hdelta <;> simp_all
  · exact nomatch hdelta

/-- Any number of clients take turns: in each turn one of them does what it is to do next. -/
inductive Interleaved {α : Type} : (clients : List (List α)) → (turns : List α) → Prop where
  | done {clients : List (List α)} (hdone : ∀ own ∈ clients, own = []) : Interleaved clients []
  | turn {before after : List (List α)} {own turns : List α} {next : α}
      (hturns : Interleaved (before ++ own :: after) turns) :
      Interleaved (before ++ (next :: own) :: after) (next :: turns)

theorem Interleaved.perm {α : Type} {clients : List (List α)} {turns : List α}
    (hturns : Interleaved clients turns) : turns.Perm clients.flatten := by
  induction hturns with
  | done hdone => rw [List.flatten_eq_nil_iff.2 hdone]
  | @turn before after own turns next _ ih =>
    simp only [List.flatten_append, List.flatten_cons, List.cons_append] at ih ⊢
    exact (ih.cons next).trans List.perm_middle.symm

namespace Store

open Counting Operation

variable {σ : Type} (outside : Surroundings (StateM σ)) {name : String}

theorem counter_setCounter_self (store : Store) (value : Int64) :
    (store.setCounter name value).counter name = value := by
  rw [counter, setCounter, Table.get?_insert_self]
  rfl

theorem counter_setCounter_of_ne (store : Store) {other : String} (hne : name ≠ other)
    (value : Int64) : (store.setCounter other value).counter name = store.counter name := by
  rw [counter, setCounter, Table.get?_insert_of_ne hne]
  rfl

theorem counter_stepped_increment (state : Store × σ) (delta : Int64) :
    (stepped outside state (.incrementCounter name delta)).1.counter name =
      addClamped (state.1.counter name) delta :=
  counter_setCounter_self _ _

/-- An operation that neither sets nor raises a counter leaves it alone. -/
theorem counter_stepped_other (state : Store × σ) {operation : Operation}
    (hset : ∀ value, operation ≠ .setCounter name value) (hdelta : operation.delta? name = none) :
    (stepped outside state operation).1.counter name = state.1.counter name := by
  cases operation with
  | setCounter other value =>
    refine counter_setCounter_of_ne state.1 ?_ value
    rintro rfl
    exact hset value rfl
  | incrementCounter other delta =>
    refine counter_setCounter_of_ne state.1 ?_ _
    rintro rfl
    simp [delta?] at hdelta
  | _ => rfl

/-- While the sum goes onward, the counter holds one clamp of it. -/
theorem counter_reached (state : Store × σ) {history : List Operation}
    (hset : ∀ value, .setCounter name value ∉ history)
    (honward : ∀ front delta back, increments name history = front ++ delta :: back →
      Onward ((state.1.counter name).toInt + total front) delta) :
    (reached outside history state).1.counter name =
      .ofIntClamp ((state.1.counter name).toInt + total (increments name history)) := by
  induction history using List.reverseRecOn with
  | nil =>
    change state.1.counter name = .ofIntClamp ((state.1.counter name).toInt + 0)
    rw [Int.add_zero, Int64.ofIntClamp_toInt]
  | append_singleton history operation ih =>
    rw [increments_append] at honward ⊢
    have hhistory := ih (fun value hmem => hset value (List.mem_append_left _ hmem))
      fun front delta back hsplit => honward front delta (back ++ increments name [operation])
        (by rw [hsplit, List.append_assoc, List.cons_append])
    rw [reached, List.foldl_append]
    change (stepped outside (reached outside history state) operation).1.counter name = _
    cases hdelta : operation.delta? name with
    | none =>
      have hnone : increments name [operation] = [] := by simp [increments, hdelta]
      rw [counter_stepped_other outside _ (fun value heq => hset value (by simp [heq])) hdelta,
        hhistory, hnone, List.append_nil]
    | some delta =>
      have hone : increments name [operation] = [delta] := by simp [increments, hdelta]
      rw [hone, total_append, total_cons, total_nil, Int.add_zero, ← Int.add_assoc,
        eq_of_delta? hdelta, counter_stepped_increment, hhistory]
      exact addClamped_ofIntClamp (honward _ delta [] (by rw [hone]))

section Orders

variable (state : Store × σ) {deltas : List Int64}
  (hsteady : Steady (state.1.counter name) deltas) {history : List Operation}
  (hset : ∀ value, .setCounter name value ∉ history)
  (hdeltas : (increments name history).Perm deltas)
include hsteady hset hdeltas

theorem counter_of_prefix {front : List Operation} (hfront : front <+: history) :
    (reached outside front state).1.counter name =
      .ofIntClamp ((state.1.counter name).toInt + total (increments name front)) := by
  obtain ⟨back, rfl⟩ := hfront
  refine counter_reached outside state
    (fun value hmem => hset value (List.mem_append_left _ hmem)) fun before delta after hsplit => ?_
  rw [increments_append, hsplit, List.append_assoc, List.cons_append] at hdeltas
  exact (hsteady.perm hdeltas.symm).onward

omit hsteady hset in
/-- On the way no more rises and no more falls than in the whole. -/
theorem total_of_prefix {front : List Operation} (hfront : front <+: history) :
    falls deltas ≤ total (increments name front) ∧
      total (increments name front) ≤ rises deltas := by
  obtain ⟨back, rfl⟩ := hfront
  rw [increments_append] at hdeltas
  rw [← falls_perm hdeltas, ← rises_perm hdeltas, falls_append, rises_append, total_eq]
  have hrises := rises_nonneg (increments name front)
  have hfalls := falls_nonpos (increments name front)
  have hrisesBehind := rises_nonneg (increments name back)
  have hfallsBehind := falls_nonpos (increments name back)
  omega

end Orders

theorem ofIntClamp_le {left right : Int} (hle : left ≤ right) :
    Int64.ofIntClamp left ≤ Int64.ofIntClamp right := by
  rw [Int64.le_iff_toInt_le, toInt_ofIntClamp, toInt_ofIntClamp]
  omega

/-- What some increments make of a counter in one order of theirs, among other operations. -/
structure AddsUp (name : String) (deltas : List Int64) (history : List Operation)
    (state : Store × σ) : Prop where
  /-- No increment is refused. -/
  accepted : ∀ front delta, front ++ [.incrementCounter name delta] <+: history →
    replied outside (reached outside front state) (.incrementCounter name delta) = .ok ()
  /-- In the end the counter holds one clamp of the whole sum. -/
  final : (reached outside history state).1.counter name =
    .ofIntClamp ((state.1.counter name).toInt + total deltas)
  /-- On the way it holds one clamp of what has been added. -/
  passing : ∀ front, front <+: history → (reached outside front state).1.counter name =
    .ofIntClamp ((state.1.counter name).toInt + total (increments name front))
  /-- It never leaves the values between all that falls and all that rises. -/
  bounded : ∀ front, front <+: history →
    .ofIntClamp ((state.1.counter name).toInt + falls deltas) ≤
        (reached outside front state).1.counter name ∧
      (reached outside front state).1.counter name ≤
        .ofIntClamp ((state.1.counter name).toInt + rises deltas)
  /-- If there is room for all increments, none is cut off. -/
  unclamped : Roomy (state.1.counter name) deltas → ∀ front, front <+: history →
    ((reached outside front state).1.counter name).toInt =
      (state.1.counter name).toInt + total (increments name front)

/-- However the increments are ordered and spread out, the counter ends at their sum. -/
theorem addsUp (state : Store × σ) {deltas : List Int64}
    (hsteady : Steady (state.1.counter name) deltas) {history : List Operation}
    (hset : ∀ value, .setCounter name value ∉ history)
    (hdeltas : (increments name history).Perm deltas) :
    AddsUp outside name deltas history state := by
  have hpassing : ∀ front, front <+: history → _ := fun front hfront =>
    counter_of_prefix outside state hsteady hset hdeltas hfront
  have htotal : ∀ front, front <+: history → _ := fun front hfront =>
    total_of_prefix hdeltas hfront
  refine ⟨fun _ _ _ => rfl, ?_, hpassing, fun front hfront => ?_, ?_⟩
  · rw [hpassing history (List.prefix_refl history), total_perm hdeltas]
  · obtain ⟨hlow, hhigh⟩ := htotal front hfront
    rw [hpassing front hfront]
    exact ⟨ofIntClamp_le (by omega), ofIntClamp_le (by omega)⟩
  · rintro ⟨habove, hbelow⟩ front hfront
    obtain ⟨hlow, hhigh⟩ := htotal front hfront
    rw [hpassing front hfront]
    exact Int64.toInt_ofIntClamp (by omega) (by omega)

theorem counter_reached_increments (state : Store × σ) {deltas : List Int64}
    (hsteady : Steady (state.1.counter name) deltas) :
    (reached outside (deltas.map (.incrementCounter name)) state).1.counter name =
      .ofIntClamp ((state.1.counter name).toInt + total deltas) :=
  (addsUp outside state hsteady (by simp) (by rw [increments_incrementCounter])).final

/-- What is added in two parts is clamped after each of them. -/
theorem counter_reached_append (state : Store × σ) {first second : List Int64}
    (hfirst : Steady (state.1.counter name) first) (hsecond : ∀ start, Steady start second) :
    (reached outside ((first ++ second).map (.incrementCounter name)) state).1.counter name =
      .ofIntClamp ((Int64.ofIntClamp ((state.1.counter name).toInt + total first)).toInt +
        total second) := by
  have hmiddle := counter_reached_increments outside state hfirst
  have hlast := @counter_reached_increments σ outside name
    (reached outside (first.map (.incrementCounter name)) state) second (hsecond _)
  rw [hmiddle] at hlast
  rw [← hlast, List.map_append, reached, List.foldl_append]
  rfl

/-- One order of increments: first those of one kind, then the others. -/
theorem counter_kept_first (state : Store × σ) {deltas : List Int64} {keep : Int64 → Bool}
    {others : Int} (htotal : total deltas = total (deltas.filter keep) + others)
    (hkept : Steady (state.1.counter name) (deltas.filter keep))
    (hothers : ∀ start, Steady start (deltas.filter fun delta => !keep delta)) :
    ∃ order : List Int64, order.Perm deltas ∧
      (reached outside (order.map (.incrementCounter name)) state).1.counter name =
        .ofIntClamp ((Int64.ofIntClamp ((state.1.counter name).toInt +
          total (deltas.filter keep))).toInt + others) := by
  have hperm := List.filter_append_perm keep deltas
  have hsum := total_perm hperm
  rw [total_append, htotal] at hsum
  refine ⟨_, hperm, ?_⟩
  rw [counter_reached_append outside state hkept hothers, Int.add_left_cancel hsum]

theorem counter_rising_first (state : Store × σ) (deltas : List Int64) :
    ∃ order : List Int64, order.Perm deltas ∧
      (reached outside (order.map (.incrementCounter name)) state).1.counter name =
        .ofIntClamp ((Int64.ofIntClamp ((state.1.counter name).toInt + rises deltas)).toInt +
          falls deltas) := by
  apply counter_kept_first outside state (total_eq deltas)
  · exact .inl fun delta hdelta => Int64.le_of_lt (by simpa using (List.mem_filter.1 hdelta).2)
  · exact fun start => .inr (.inl fun delta hdelta => by simpa using (List.mem_filter.1 hdelta).2)

theorem counter_falling_first (state : Store × σ) (deltas : List Int64) :
    ∃ order : List Int64, order.Perm deltas ∧
      (reached outside (order.map (.incrementCounter name)) state).1.counter name =
        .ofIntClamp ((Int64.ofIntClamp ((state.1.counter name).toInt + falls deltas)).toInt +
          rises deltas) := by
  apply counter_kept_first outside state (by rw [total_eq, Int.add_comm]; rfl)
  · exact .inr (.inl fun delta hdelta =>
      Int64.le_of_lt (by simpa using (List.mem_filter.1 hdelta).2))
  · exact fun start => .inl fun delta hdelta => by simpa using (List.mem_filter.1 hdelta).2

/-- **The order can be seen otherwise.**  If every order of some increments ends in one clamp of
their sum, then they all go the same way or there is room for all of them.  The rising ones first
and the falling ones first are the two orders that tell. -/
theorem steady_of_every_order (state : Store × σ) {deltas : List Int64}
    (hfinal : ∀ order : List Int64, order.Perm deltas →
      (reached outside (order.map (.incrementCounter name)) state).1.counter name =
        .ofIntClamp ((state.1.counter name).toInt + total deltas)) :
    Steady (state.1.counter name) deltas := by
  by_contra hunsteady
  simp only [Steady, not_or, not_forall, Int64.not_le] at hunsteady
  obtain ⟨⟨falling, hfalling, hfall⟩, ⟨rising, hrising, hrise⟩, hroom⟩ := hunsteady
  have hfalls := falls_neg hfalling hfall
  have hrises := rises_pos hrising hrise
  obtain ⟨risingFirst, hrisingFirst, hpeak⟩ := @counter_rising_first σ outside name state deltas
  obtain ⟨fallingFirst, hfallingFirst, hdip⟩ := @counter_falling_first σ outside name state deltas
  rw [hfinal _ hrisingFirst, total_eq, ← Int64.toInt_inj] at hpeak
  rw [hfinal _ hfallingFirst, total_eq, ← Int64.toInt_inj] at hdip
  simp only [toInt_ofIntClamp] at hpeak hdip
  have hlow := (state.1.counter name).minValue_le_toInt
  have hhigh := (state.1.counter name).toInt_le
  have hrange : Int64.minValue.toInt < Int64.maxValue.toInt := by decide
  unfold Roomy at hroom
  omega

/-- **Increments in any order.**  If all increments of a counter go the same way, or if there is
room for all that rise and for all that fall, then they add up to one clamp of their sum in
whatever order they are made.  So they do when any number of clients make them in turns, whatever
else the clients do, as long as none of them sets the counter. -/
theorem increments_in_any_order (state : Store × σ) {deltas : List Int64}
    (hsteady : Steady (state.1.counter name) deltas) :
    (∀ order : List Int64, order.Perm deltas →
      AddsUp outside name deltas (order.map (.incrementCounter name)) state) ∧
    ∀ clients turns, Interleaved clients turns →
      (∀ own ∈ clients, ∀ value, .setCounter name value ∉ own) →
        (increments name clients.flatten).Perm deltas → AddsUp outside name deltas turns state := by
  refine ⟨fun order horder => ?_, fun clients turns hturns hset hdeltas => ?_⟩
  · apply addsUp outside state hsteady (by simp)
    rwa [increments_incrementCounter]
  · refine addsUp outside state hsteady (fun value hmem => ?_)
      ((hturns.perm.filterMap _).trans hdeltas)
    obtain ⟨own, hown, hmine⟩ := List.mem_flatten.1 (hturns.perm.mem_iff.1 hmem)
    exact hset own hown value hmine

/-- A counter that is ten below the end of the range. -/
def nearLimit : Store := { counters := [("hits", .ofIntClamp (Int64.maxValue.toInt - 10))] }

/-- Two clients that use up the room above the counter, and one of them reads it. -/
def hitClients : List (List Operation) :=
  [[.incrementCounter "hits" 7, .counterValue "hits"],
    [.incrementCounter "hits" (-30), .setCounter "misses" 1, .incrementCounter "hits" 3]]

def hitTurns : List Operation :=
  [.incrementCounter "hits" 7, .incrementCounter "hits" (-30), .counterValue "hits",
    .setCounter "misses" 1, .incrementCounter "hits" 3]

theorem hitTurns_interleaved : Interleaved hitClients hitTurns := by
  apply @Interleaved.turn _ [] _ _ _ _
  apply @Interleaved.turn _ [_] [] _ _ _
  apply @Interleaved.turn _ [] _ _ _ _
  apply @Interleaved.turn _ [_] [] _ _ _
  apply @Interleaved.turn _ [_] [] _ _ _
  exact .done (by simp)

/-- Three increments near the limit, in an order other than their own. -/
theorem increments_in_any_order_hits :
    let state : Store × Scene := (nearLimit, { clock := 0 })
    Steady (nearLimit.counter "hits") [7, -30, 3] ∧
      AddsUp Scene.surroundings "hits" [7, -30, 3]
        (([3, 7, -30] : List Int64).map (.incrementCounter "hits")) state ∧
      AddsUp Scene.surroundings "hits" [7, -30, 3] hitTurns state := by
  intro state
  have hsteady : Steady (nearLimit.counter "hits") [7, -30, 3] :=
    .inr (.inr ⟨by decide +kernel, by decide +kernel⟩)
  obtain ⟨horders, hclients⟩ := increments_in_any_order Scene.surroundings state hsteady
  refine ⟨hsteady, horders _ (by decide), hclients hitClients hitTurns hitTurns_interleaved ?_
    (by decide)⟩
  simp [hitClients]

end Store

end MetricScript
