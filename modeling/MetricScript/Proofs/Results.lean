import Mathlib

/-!
# Results that are there

What is known of the parts of a computation that may stop, if its result is there.
-/

namespace MetricScript

/-- A computation that does not fail goes through its first part. -/
theorem exists_of_bind_eq_ok {ε α β : Type} {first : Except ε α} {next : α → Except ε β}
    {result : β} (hbind : first >>= next = .ok result) :
    ∃ value, first = .ok value ∧ next value = .ok result := by
  cases first with
  | error error => exact nomatch hbind
  | ok value => exact ⟨value, rfl, hbind⟩

/-- A mapped result that went well comes from a value. -/
theorem exists_of_map_eq_ok {ε α β : Type} {first : Except ε α} {change : α → β} {result : β}
    (hmap : first.map change = .ok result) : ∃ value, first = .ok value ∧ change value = result := by
  cases first with
  | error error => exact nomatch hmap
  | ok value => exact ⟨value, rfl, Except.ok.inj hmap⟩

theorem exists_map_eq_ok_iff {ε α β : Type} {first : Except ε α} {change : α → β} :
    (∃ result, first.map change = .ok result) ↔ ∃ value, first = .ok value := by
  constructor
  · rintro ⟨result, hmap⟩
    obtain ⟨value, hvalue, _⟩ := exists_of_map_eq_ok hmap
    exact ⟨value, hvalue⟩
  · rintro ⟨value, rfl⟩
    exact ⟨change value, rfl⟩

/-- A result that is made of two others is there if they are. -/
theorem exists_bind_bind_eq_ok_iff {ε α β γ : Type} {first : Except ε α} {second : Except ε β}
    {make : α → β → γ} :
    (∃ result, (do
      let left ← first
      let right ← second
      pure (make left right)) = .ok result) ↔
      (∃ left, first = .ok left) ∧ ∃ right, second = .ok right := by
  constructor
  · rintro ⟨result, hresult⟩
    obtain ⟨left, hleft, hresult⟩ := exists_of_bind_eq_ok hresult
    obtain ⟨right, hright, _⟩ := exists_of_bind_eq_ok hresult
    exact ⟨⟨left, hleft⟩, right, hright⟩
  · rintro ⟨⟨left, rfl⟩, right, rfl⟩
    exact ⟨make left right, rfl⟩

/-! ## Errors of a kind -/

/-- If the result is an error then it is one of the allowed ones. -/
def ErrsWithin {ε α : Type} (allowed : ε → Prop) (result : Except ε α) : Prop :=
  ∀ error, result = .error error → allowed error

namespace ErrsWithin

variable {ε α β : Type} {allowed weaker : ε → Prop}

theorem ok (value : α) : ErrsWithin allowed (.ok value) := fun _ herror => nomatch herror

theorem error {error : ε} (herror : allowed error) :
    ErrsWithin allowed (.error error : Except ε α) :=
  fun _ heq => Except.error.inj heq ▸ herror

theorem of_exists {result : Except ε α} (hresult : ∃ value, result = .ok value) :
    ErrsWithin allowed result := by
  obtain ⟨value, rfl⟩ := hresult
  exact ok value

theorem mono {result : Except ε α} (hresult : ErrsWithin allowed result)
    (himp : ∀ error, allowed error → weaker error) : ErrsWithin weaker result :=
  fun error heq => himp error (hresult error heq)

theorem bind {first : Except ε α} {next : α → Except ε β} (hfirst : ErrsWithin allowed first)
    (hnext : ∀ value, first = .ok value → ErrsWithin allowed (next value)) :
    ErrsWithin allowed (first >>= next) := by
  cases first with
  | error stop => exact error (hfirst stop rfl)
  | ok value => exact hnext value rfl

theorem map {first : Except ε α} (hfirst : ErrsWithin allowed first) (change : α → β) :
    ErrsWithin allowed (first.map change) := by
  cases first with
  | error stop => exact error (hfirst stop rfl)
  | ok value => exact ok (change value)

end ErrsWithin

/-! ## Passes over lists -/

/-- A pass over a list does not fail if it gives a result for each item. -/
theorem mapM_eq_ok_iff {ε α β : Type} {step : α → Except ε β} {items : List α}
    {results : List β} : items.mapM step = .ok results ↔
      List.Forall₂ (fun item result => step item = .ok result) items results := by
  induction items generalizing results with
  | nil =>
    rw [List.forall₂_nil_left_iff]
    exact ⟨fun hmapM => (Except.ok.inj hmapM).symm, fun hresults => congrArg Except.ok hresults.symm⟩
  | cons item items ih =>
    rw [List.mapM_cons, List.forall₂_cons_left_iff]
    constructor
    · intro hmapM
      obtain ⟨first, hfirst, hmapM⟩ := exists_of_bind_eq_ok hmapM
      obtain ⟨others, hothers, hmapM⟩ := exists_of_bind_eq_ok hmapM
      exact ⟨first, others, hfirst, ih.1 hothers, (Except.ok.inj hmapM).symm⟩
    · rintro ⟨first, others, hfirst, hothers, rfl⟩
      rw [hfirst, ih.2 hothers]
      rfl

/-- If a pass over a list does not fail, then each item has a result, and each result is that
of an item. -/
theorem forall_of_mapM_eq_ok {ε α β : Type} {step : α → Except ε β} {items : List α}
    {results : List β} (hmapM : items.mapM step = .ok results) :
    (∀ item ∈ items, ∃ result ∈ results, step item = .ok result) ∧
      ∀ result ∈ results, ∃ item ∈ items, step item = .ok result := by
  induction mapM_eq_ok_iff.1 hmapM with
  | nil => exact ⟨List.forall_mem_nil _, List.forall_mem_nil _⟩
  | cons hfirst hothers ih =>
    obtain ⟨hitems, hresults⟩ := ih (mapM_eq_ok_iff.2 hothers)
    refine ⟨List.forall_mem_cons.2 ⟨⟨_, List.mem_cons_self, hfirst⟩, ?_⟩,
      List.forall_mem_cons.2 ⟨⟨_, List.mem_cons_self, hfirst⟩, ?_⟩⟩
    · intro item hmem
      obtain ⟨result, hresult, hstep⟩ := hitems item hmem
      exact ⟨result, List.mem_cons_of_mem _ hresult, hstep⟩
    · intro result hmem
      obtain ⟨item, hitem, hstep⟩ := hresults result hmem
      exact ⟨item, List.mem_cons_of_mem _ hitem, hstep⟩

/-- A pass over a list fails only at an item. -/
theorem exists_mapM_eq_ok {ε α β : Type} {step : α → Except ε β} {items : List α}
    (hitems : ∀ item ∈ items, ∃ result, step item = .ok result) :
    ∃ results, items.mapM step = .ok results := by
  induction items with
  | nil => exact ⟨[], rfl⟩
  | cons item items ih =>
    obtain ⟨⟨first, hfirst⟩, hothers⟩ := List.forall_mem_cons.1 hitems
    obtain ⟨others, hmapM⟩ := ih hothers
    refine ⟨first :: others, ?_⟩
    rw [List.mapM_cons, hfirst, hmapM]
    rfl

/-- What was written item by item is read item by item. -/
theorem mapM_map_of_forall {α β : Type} {read : α → Option β} {write : β → α} {items : List β}
    (hread : ∀ item ∈ items, read (write item) = some item) :
    (items.map write).mapM read = some items := by
  induction items with
  | nil => rfl
  | cons item items ih =>
    obtain ⟨hitem, hitems⟩ := List.forall_mem_cons.1 hread
    rw [List.map_cons, List.mapM_cons, hitem, ih hitems]
    rfl

/-- If all items of a list are read, then each is, and each result is that of an item. -/
theorem forall_of_mapM {α β : Type} {read : α → Option β} {items : List α} {results : List β}
    (hread : items.mapM read = some results) :
    (∀ item ∈ items, ∃ result, read item = some result) ∧
      ∀ result ∈ results, ∃ item ∈ items, read item = some result := by
  induction items generalizing results with
  | nil =>
    obtain rfl := Option.some.inj hread
    exact ⟨List.forall_mem_nil _, List.forall_mem_nil _⟩
  | cons item items ih =>
    rw [List.mapM_cons] at hread
    obtain ⟨first, hfirst, hread⟩ := Option.bind_eq_some_iff.1 hread
    obtain ⟨others, hothers, hread⟩ := Option.bind_eq_some_iff.1 hread
    obtain rfl := Option.some.inj hread
    obtain ⟨hitems, hresults⟩ := ih hothers
    refine ⟨List.forall_mem_cons.2 ⟨⟨first, hfirst⟩, hitems⟩,
      List.forall_mem_cons.2 ⟨⟨item, List.mem_cons_self, hfirst⟩, ?_⟩⟩
    intro result hmem
    obtain ⟨other, hother, hresult⟩ := hresults result hmem
    exact ⟨other, List.mem_cons_of_mem _ hother, hresult⟩

end MetricScript
