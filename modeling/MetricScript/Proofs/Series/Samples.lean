import Mathlib
import MetricScript.Series.Basic

/-!
# Series as finite maps

An ascending series binds each of its times to one value.  This module says what becomes of
the bindings when a sample is put in, when the newest sample is taken away and when the
series is shortened.  The order of the samples is what the search for a place relies on and
what every change has to keep.
-/

namespace MetricScript.Series

/-- Which value is bound to a time, if any. -/
abbrev Bindings := Int64 → Option Float

def bindings (points : List Point) : Bindings := fun time =>
  (points.find? fun point => point.timestamp = time).map (·.value)

/-! ## Ascending series -/

theorem Ascending.lt_of_lt {points : List Point} (hascending : Ascending points) {i j : Nat}
    {earlier later : Point} (hlt : i < j) (hearlier : points[i]? = some earlier)
    (hlater : points[j]? = some later) : earlier.timestamp < later.timestamp := by
  obtain ⟨hi, rfl⟩ := List.getElem?_eq_some_iff.1 hearlier
  obtain ⟨hj, rfl⟩ := List.getElem?_eq_some_iff.1 hlater
  exact List.pairwise_iff_getElem.1 hascending i j hi hj hlt

theorem Ascending.eq_of_timestamp {points : List Point} (hascending : Ascending points)
    {left right : Point} (hleft : left ∈ points) (hright : right ∈ points)
    (hsame : left.timestamp = right.timestamp) : left = right := by
  obtain ⟨i, hi⟩ := List.getElem?_of_mem hleft
  obtain ⟨j, hj⟩ := List.getElem?_of_mem hright
  rcases Nat.lt_trichotomy i j with hlt | rfl | hlt
  · exact absurd (hascending.lt_of_lt hlt hi hj) (by simp [hsame])
  · exact Option.some.inj (hi.symm.trans hj)
  · exact absurd (hascending.lt_of_lt hlt hj hi) (by simp [hsame])

theorem Ascending.nodup {points : List Point} (hascending : Ascending points) : points.Nodup := by
  apply List.Pairwise.imp _ hascending
  rintro left right hlt rfl
  exact Int64.lt_irrefl hlt

/-- A binding of an ascending series is one of its samples. -/
theorem bindings_eq_some {points : List Point} (hascending : Ascending points) {time : Int64}
    {value : Float} : bindings points time = some value ↔ ⟨time, value⟩ ∈ points := by
  constructor
  · intro hbound
    obtain ⟨point, hfind, rfl⟩ := Option.map_eq_some_iff.1 hbound
    have htime : point.timestamp = time := by simpa using List.find?_some hfind
    subst htime
    exact List.mem_of_find?_eq_some hfind
  · intro hmem
    have hsome : (points.find? fun point => point.timestamp = time).isSome := by
      rw [List.find?_isSome]
      exact ⟨_, hmem, by simp⟩
    obtain ⟨point, hfind⟩ := Option.isSome_iff_exists.1 hsome
    have htime : point.timestamp = time := by simpa using List.find?_some hfind
    have hpoint := hascending.eq_of_timestamp (List.mem_of_find?_eq_some hfind) hmem htime
    simp [bindings, hfind, hpoint]

/-- Bindings are equal if they bind the same. -/
theorem bindings_ext {left right : Bindings}
    (hsame : ∀ time value, left time = some value ↔ right time = some value) : left = right := by
  funext time
  apply Option.ext
  intro value
  exact hsame time value

/-- An ascending series is determined by its bindings. -/
theorem Ascending.eq_of_bindings {left right : List Point} (hleft : Ascending left)
    (hright : Ascending right) (hsame : bindings left = bindings right) : left = right := by
  have hmem : ∀ point, point ∈ left ↔ point ∈ right := by
    rintro ⟨time, value⟩
    rw [← bindings_eq_some hleft, ← bindings_eq_some hright, hsame]
  have hperm := (List.perm_ext_iff_of_nodup hleft.nodup hright.nodup).2 hmem
  refine List.Perm.eq_of_pairwise ?_ hleft hright hperm
  intro first second _ _ hlt hgt
  exact absurd (Int64.lt_trans hlt hgt) Int64.lt_irrefl

/-! ## The search for a place -/

/-- The place of a time: nothing behind it is as old, and it is not newer itself unless it is
the first one. -/
structure Placed (points : List Point) (time : Int64) (base : Nat) : Prop where
  before : base = 0 ∨ ∃ found, points[base]? = some found ∧ found.timestamp ≤ time
  behind : ∀ i found, base < i → points[i]? = some found → time < found.timestamp

/-- What holds of the samples still in question while a place is searched. -/
structure InQuestion (points : List Point) (time : Int64) (base size : Nat) : Prop where
  inside : base + size ≤ points.length
  before : base = 0 ∨ ∃ found, points[base]? = some found ∧ found.timestamp ≤ time
  behind : ∀ i found, base + size ≤ i → points[i]? = some found → time < found.timestamp

theorem InQuestion.lower {points : List Point} {time : Int64} (hascending : Ascending points)
    {base size : Nat} (hquestion : InQuestion points time base size) {point : Point}
    (hpoint : points[base + size / 2]? = some point) (hnewer : time < point.timestamp) :
    InQuestion points time base (size - size / 2) := by
  have hinside := hquestion.inside
  refine ⟨by omega, hquestion.before, fun i found hle hfound => ?_⟩
  rcases Nat.eq_or_lt_of_le (show base + size / 2 ≤ i by omega) with rfl | hlt
  · rw [hpoint] at hfound
    exact Option.some.inj hfound ▸ hnewer
  · exact Int64.lt_trans hnewer (hascending.lt_of_lt hlt hpoint hfound)

theorem InQuestion.upper {points : List Point} {time : Int64} {base size : Nat}
    (hquestion : InQuestion points time base size) {point : Point}
    (hpoint : points[base + size / 2]? = some point) (hold : point.timestamp ≤ time) :
    InQuestion points time (base + size / 2) (size - size / 2) := by
  have hinside := hquestion.inside
  refine ⟨by omega, .inr ⟨point, hpoint, hold⟩, fun i found hle hfound => ?_⟩
  exact hquestion.behind i found (by omega) hfound

/-- The search ends at the place of the time. -/
theorem narrow_placed {points : List Point} {time : Int64} (hascending : Ascending points)
    {base size : Nat} (hsize : 0 < size) (hquestion : InQuestion points time base size) :
    Placed points time (narrow points time base size) := by
  fun_induction narrow points time base size with
  | case1 base size hsmall =>
    refine ⟨hquestion.before, fun i found hlt hfound => ?_⟩
    exact hquestion.behind i found (by omega) hfound
  | case2 base size hlarge middle newer ih =>
    have hmiddle : base + size / 2 < points.length := by
      have hinside := hquestion.inside
      omega
    have hpoint := List.getElem?_eq_getElem hmiddle
    have hnewer : newer = decide (time < points[base + size / 2].timestamp) := by
      simp only [newer, middle, hpoint]
    refine ih (by omega) ?_
    by_cases hlt : time < points[base + size / 2].timestamp
    · rw [hnewer, decide_eq_true hlt]
      exact hquestion.lower hascending hpoint hlt
    · rw [hnewer, decide_eq_false hlt]
      exact hquestion.upper hpoint (Int64.not_lt.1 hlt)

theorem placed_of_ascending {points : List Point} (hascending : Ascending points)
    (hne : points ≠ []) (time : Int64) :
    Placed points time (narrow points time 0 points.length) := by
  apply narrow_placed hascending (List.length_pos_of_ne_nil hne)
  refine ⟨by omega, .inl rfl, fun i found hle hfound => ?_⟩
  rw [List.getElem?_eq_none (by omega)] at hfound
  exact nomatch hfound

/-! ## Putting in a sample -/

/-- Around one time, the filters give the samples before it and those behind it. -/
theorem filter_split {points low same high : List Point} {time : Int64}
    (hpoints : points = low ++ (same ++ high)) (hlow : ∀ point ∈ low, point.timestamp < time)
    (hsame : ∀ point ∈ same, point.timestamp = time)
    (hhigh : ∀ point ∈ high, time < point.timestamp) :
    points.filter (·.timestamp < time) = low ∧ points.filter (time < ·.timestamp) = high := by
  have holder : same.filter (·.timestamp < time) = [] := by
    apply List.filter_eq_nil_iff.2
    intro point hmem
    simp [hsame point hmem]
  have hnewer : same.filter (time < ·.timestamp) = [] := by
    apply List.filter_eq_nil_iff.2
    intro point hmem
    simp [hsame point hmem]
  have hlowNewer : low.filter (time < ·.timestamp) = [] := by
    apply List.filter_eq_nil_iff.2
    intro point hmem
    simpa using Int64.le_of_lt (hlow point hmem)
  have hhighOlder : high.filter (·.timestamp < time) = [] := by
    apply List.filter_eq_nil_iff.2
    intro point hmem
    simpa using Int64.le_of_lt (hhigh point hmem)
  subst hpoints
  constructor
  · rw [List.filter_append, List.filter_append, holder, hhighOlder, List.append_nil,
      List.append_nil, List.filter_eq_self.2 (by simpa using hlow)]
  · rw [List.filter_append, List.filter_append, hnewer, hlowNewer, List.nil_append,
      List.nil_append, List.filter_eq_self.2 (by simpa using hhigh)]

theorem take_older {points : List Point} (hascending : Ascending points) {base : Nat}
    {found : Point} (hfound : points[base]? = some found) :
    ∀ point ∈ points.take base, point.timestamp < found.timestamp := by
  intro point hmem
  obtain ⟨i, hi⟩ := List.getElem?_of_mem hmem
  rw [List.getElem?_take] at hi
  split at hi
  · next hlt => exact hascending.lt_of_lt hlt hi hfound
  · exact nomatch hi

theorem Placed.drop_newer {points : List Point} {time : Int64} {base : Nat}
    (hplaced : Placed points time base) :
    ∀ point ∈ points.drop (base + 1), time < point.timestamp := by
  intro point hmem
  obtain ⟨i, hi⟩ := List.getElem?_of_mem hmem
  rw [List.getElem?_drop] at hi
  exact hplaced.behind _ point (by omega) hi

theorem insertIdx_eq_take_drop (points : List Point) (point : Point) {base : Nat}
    (hbase : base ≤ points.length) :
    points.insertIdx base point = points.take base ++ point :: points.drop base := by
  induction points generalizing base with
  | nil =>
    obtain rfl : base = 0 := by simpa using hbase
    rfl
  | cons first rest ih =>
    cases base with
    | zero => rfl
    | succ base =>
      rw [List.insertIdx_succ_cons, ih (by simpa using hbase)]
      rfl

namespace Placed

variable {points : List Point} {point found : Point} {base : Nat}

theorem exists_found {time : Int64} (hplaced : Placed points time base) (hne : points ≠ []) :
    ∃ found, points[base]? = some found := by
  rcases hplaced.before with rfl | ⟨found, hfound, -⟩
  · exact ⟨_, List.getElem?_eq_getElem (List.length_pos_of_ne_nil hne)⟩
  · exact ⟨found, hfound⟩

/-- Only the first sample can be newer than the time of its place. -/
theorem eq_zero_of_newer {time : Int64} (hplaced : Placed points time base)
    (hfound : points[base]? = some found) (hnewer : time < found.timestamp) : base = 0 := by
  rcases hplaced.before with hzero | ⟨other, hother, hold⟩
  · exact hzero
  · obtain rfl : found = other := Option.some.inj (hfound.symm.trans hother)
    exact absurd hnewer (Int64.not_lt.2 hold)

theorem set_eq (hplaced : Placed points point.timestamp base) (hascending : Ascending points)
    (hfound : points[base]? = some found) (hsame : found.timestamp = point.timestamp) :
    points.set base point = points.filter (·.timestamp < point.timestamp) ++
      point :: points.filter (point.timestamp < ·.timestamp) := by
  have holder := take_older hascending hfound
  obtain ⟨hbase, rfl⟩ := List.getElem?_eq_some_iff.1 hfound
  have hsplit : points = points.take base ++ ([points[base]] ++ points.drop (base + 1)) := by
    rw [List.singleton_append, ← List.drop_eq_getElem_cons hbase, List.take_append_drop]
  obtain ⟨hlow, hhigh⟩ :=
    filter_split hsplit (hsame ▸ holder) (by simpa using hsame) hplaced.drop_newer
  rw [hlow, hhigh, List.set_eq_take_append_cons_drop, if_pos hbase]

theorem insertIdx_succ_eq (hplaced : Placed points point.timestamp base)
    (hascending : Ascending points) (hfound : points[base]? = some found)
    (hlt : found.timestamp < point.timestamp) :
    points.insertIdx (base + 1) point = points.filter (·.timestamp < point.timestamp) ++
      point :: points.filter (point.timestamp < ·.timestamp) := by
  have holder := take_older hascending hfound
  obtain ⟨hbase, rfl⟩ := List.getElem?_eq_some_iff.1 hfound
  have hsplit : points = points.take (base + 1) ++ ([] ++ points.drop (base + 1)) := by
    rw [List.nil_append, List.take_append_drop]
  have hlow : ∀ other ∈ points.take (base + 1), other.timestamp < point.timestamp := by
    intro other hmem
    rw [List.take_succ_eq_append_getElem hbase, List.mem_append, List.mem_singleton] at hmem
    rcases hmem with hmem | rfl
    · exact Int64.lt_trans (holder other hmem) hlt
    · exact hlt
  obtain ⟨hfilter, hhigh⟩ := filter_split hsplit hlow (by simp) hplaced.drop_newer
  rw [hfilter, hhigh, insertIdx_eq_take_drop _ _ hbase]

/-- A sample goes between the older and the newer ones. -/
theorem insertIdx_eq (hplaced : Placed points point.timestamp base)
    (hfound : points[base]? = some found) (hnewer : point.timestamp < found.timestamp) :
    points.insertIdx base point = points.filter (·.timestamp < point.timestamp) ++
      point :: points.filter (point.timestamp < ·.timestamp) := by
  obtain rfl := hplaced.eq_zero_of_newer hfound hnewer
  have hhigh : ∀ other ∈ points, point.timestamp < other.timestamp := by
    cases points with
    | nil => exact fun other hmem => nomatch hmem
    | cons first rest =>
      obtain rfl := Option.some.inj hfound
      exact List.forall_mem_cons.2 ⟨hnewer, hplaced.drop_newer⟩
  obtain ⟨hlow, hfilter⟩ := filter_split (show points = [] ++ ([] ++ points) from rfl)
    (by simp) (by simp) hhigh
  rw [hlow, hfilter]
  rfl

end Placed

/-- A sample stands between the older and the newer ones. -/
theorem push_eq {points : List Point} (hascending : Ascending points) (point : Point) :
    push point points = points.filter (·.timestamp < point.timestamp) ++
      point :: points.filter (point.timestamp < ·.timestamp) := by
  by_cases hne : points = []
  · subst hne
    rfl
  have hplaced := placed_of_ascending hascending hne point.timestamp
  obtain ⟨found, hfound⟩ := hplaced.exists_found hne
  simp only [push, hfound]
  split
  · next hsame => exact hplaced.set_eq hascending hfound hsame
  · next hdiffers =>
    split
    · next hlt => exact hplaced.insertIdx_succ_eq hascending hfound hlt
    · next hnotOlder =>
      refine hplaced.insertIdx_eq hfound (Int64.not_le.1 fun hle => ?_)
      exact hnotOlder (Int64.lt_of_le_of_ne hle hdiffers)

/-- Pushing keeps the times rising. -/
theorem Ascending.push {points : List Point} (hascending : Ascending points) (point : Point) :
    Ascending (push point points) := by
  rw [push_eq hascending]
  refine List.pairwise_append.2 ⟨hascending.filter _, List.pairwise_cons.2 ⟨?_,
    hascending.filter _⟩, ?_⟩
  · intro other hmem
    simpa using (List.mem_filter.1 hmem).2
  · intro older holder other hmem
    have hlt : older.timestamp < point.timestamp := by simpa using (List.mem_filter.1 holder).2
    rcases List.mem_cons.1 hmem with rfl | hmem
    · exact hlt
    · exact Int64.lt_trans hlt (by simpa using (List.mem_filter.1 hmem).2)

/-- Putting in a sample binds its time and no other one. -/
theorem bindings_push {points : List Point} (hascending : Ascending points) (point : Point) :
    bindings (push point points) =
      Function.update (bindings points) point.timestamp (some point.value) := by
  apply bindings_ext
  intro time value
  rw [bindings_eq_some (hascending.push point), push_eq hascending]
  by_cases htime : time = point.timestamp
  · subst htime
    have hpoint : (⟨point.timestamp, value⟩ : Point) = point ↔ point.value = value := by
      cases point
      simp [eq_comm]
    simp [hpoint]
  · rw [Function.update_of_ne htime, bindings_eq_some hascending]
    have hpoint : (⟨time, value⟩ : Point) ≠ point := fun heq => htime (congrArg Point.timestamp heq)
    simp only [List.mem_append, List.mem_cons, List.mem_filter, hpoint, false_or,
      decide_eq_true_eq]
    rcases Int64.lt_or_le time point.timestamp with hlt | hle
    · have hnot : ¬ point.timestamp < time := Int64.lt_asymm hlt
      simp [hlt, hnot]
    · have hlt := Int64.lt_of_le_of_ne hle (Ne.symm htime)
      have hnot : ¬ time < point.timestamp := Int64.lt_asymm hlt
      simp [hlt, hnot]

/-! ## The newest sample -/

/-- The sample is the binding with the greatest time; there is none if nothing is bound. -/
def IsNewest (bound : Bindings) : Option Point → Prop
  | none => ∀ time, bound time = none
  | some point => bound point.timestamp = some point.value ∧
      ∀ time value, bound time = some value → time ≤ point.timestamp

def without (bound : Bindings) : Option Point → Bindings
  | none => bound
  | some point => Function.update bound point.timestamp none

/-- The last sample is the newest. -/
theorem isNewest_last {points : List Point} (hascending : Ascending points) :
    IsNewest (bindings points) (last? points) := by
  rcases List.eq_nil_or_concat points with rfl | ⟨older, newest, rfl⟩
  · exact fun _ => rfl
  · rw [List.concat_eq_append] at hascending ⊢
    rw [last?, List.getLast?_concat]
    refine ⟨(bindings_eq_some hascending).2 (by simp), fun time value hbound => ?_⟩
    rcases List.mem_append.1 ((bindings_eq_some hascending).1 hbound) with hmem | hmem
    · exact Int64.le_of_lt ((List.pairwise_append.1 hascending).2.2 _ hmem newest (by simp))
    · rw [← List.mem_singleton.1 hmem]
      exact Int64.le_refl _

theorem Ascending.dropLast {points : List Point} (hascending : Ascending points) :
    Ascending points.dropLast :=
  hascending.sublist (List.dropLast_sublist points)

/-- Taking the newest sample away unbinds its time and no other one. -/
theorem bindings_dropLast {points : List Point} (hascending : Ascending points) :
    bindings points.dropLast = without (bindings points) (last? points) := by
  rcases List.eq_nil_or_concat points with rfl | ⟨older, newest, rfl⟩
  · rfl
  · rw [List.concat_eq_append] at hascending ⊢
    have holder := (List.pairwise_append.1 hascending).1
    have hbefore := (List.pairwise_append.1 hascending).2.2
    rw [last?, List.getLast?_concat, List.dropLast_concat, without]
    apply bindings_ext
    intro time value
    rw [bindings_eq_some holder]
    by_cases htime : time = newest.timestamp
    · subst htime
      rw [Function.update_self]
      constructor
      · intro hmem
        exact absurd (hbefore _ hmem newest (by simp)) Int64.lt_irrefl
      · intro hnone
        exact nomatch hnone
    · rw [Function.update_of_ne htime, bindings_eq_some hascending, List.mem_append,
        List.mem_singleton]
      have hdiffers : (⟨time, value⟩ : Point) ≠ newest :=
        fun heq => htime (congrArg Point.timestamp heq)
      simp [hdiffers]

/-! ## Shortening -/

def since (first : Int64) (bound : Bindings) : Bindings := fun time =>
  if first ≤ time then bound time else none

noncomputable def later (bound : Bindings) (time : Int64) : Nat :=
  {other : Int64 | time < other ∧ (bound other).isSome}.ncard

/-- The bindings with the greatest times, as many as are asked for or all. -/
noncomputable def greatest (count : Nat) (bound : Bindings) : Bindings := fun time =>
  if later bound time < count then bound time else none

theorem trim_nil (shortening : Trim) : trim [] shortening = [] := by
  cases shortening with
  | since first => rfl
  | count samples => exact List.drop_nil

/-- Trimming by time cuts the map at that time. -/
theorem bindings_since {points : List Point} (hascending : Ascending points) (first : Int64) :
    bindings (trim points (.since first)) = since first (bindings points) := by
  apply bindings_ext
  intro time value
  have hfilter : Ascending (trim points (.since first)) := hascending.filter _
  rw [bindings_eq_some hfilter, trim, List.mem_filter, since]
  by_cases hle : first ≤ time
  · simp [hle, bindings_eq_some hascending]
  · simp [hle]

/-- As many bindings are later as there are later samples. -/
theorem later_bindings {points : List Point} (hascending : Ascending points) (time : Int64) :
    later (bindings points) time = (points.filter (time < ·.timestamp)).length := by
  have hnodup : ((points.filter (time < ·.timestamp)).map (·.timestamp)).Nodup := by
    rw [List.nodup_map_iff_inj_on (hascending.nodup.filter _)]
    intro left hleft right hright hsame
    exact hascending.eq_of_timestamp (List.mem_of_mem_filter hleft)
      (List.mem_of_mem_filter hright) hsame
  have hset : {other : Int64 | time < other ∧ (bindings points other).isSome} =
      ((points.filter (time < ·.timestamp)).map (·.timestamp)).toFinset := by
    ext other
    simp only [Set.mem_ofPred_eq, List.coe_toFinset, List.mem_map, List.mem_filter,
      decide_eq_true_eq, Option.isSome_iff_exists, bindings_eq_some hascending]
    constructor
    · rintro ⟨hlt, value, hmem⟩
      exact ⟨_, ⟨hmem, hlt⟩, rfl⟩
    · rintro ⟨point, ⟨hmem, hlt⟩, rfl⟩
      exact ⟨hlt, point.value, hmem⟩
  calc later (bindings points) time
      = ((points.filter (time < ·.timestamp)).map (·.timestamp)).toFinset.card := by
        rw [later, hset, Set.ncard_coe_finset]
    _ = (points.filter (time < ·.timestamp)).length := by
        rw [List.toFinset_card_of_nodup hnodup, List.length_map]

theorem later_of_index {points : List Point} (hascending : Ascending points) {i : Nat}
    {point : Point} (hpoint : points[i]? = some point) :
    later (bindings points) point.timestamp = points.length - (i + 1) := by
  obtain ⟨hi, rfl⟩ := List.getElem?_eq_some_iff.1 hpoint
  have hsplit : points = points.take i ++ ([points[i]] ++ points.drop (i + 1)) := by
    rw [List.singleton_append, ← List.drop_eq_getElem_cons hi, List.take_append_drop]
  have hnewer : ∀ other ∈ points.drop (i + 1), points[i].timestamp < other.timestamp := by
    intro other hmem
    obtain ⟨j, hj⟩ := List.getElem?_of_mem hmem
    rw [List.getElem?_drop] at hj
    exact hascending.lt_of_lt (by omega) hpoint hj
  obtain ⟨_, hfilter⟩ := filter_split hsplit (take_older hascending hpoint) (by simp) hnewer
  rw [later_bindings hascending, hfilter, List.length_drop]

/-- A sample is kept exactly if its place is not among the skipped ones. -/
theorem mem_drop_iff {points : List Point} (hascending : Ascending points) {i skipped : Nat}
    {point : Point} (hpoint : points[i]? = some point) :
    point ∈ points.drop skipped ↔ skipped ≤ i := by
  constructor
  · intro hmem
    obtain ⟨j, hj⟩ := List.getElem?_of_mem hmem
    rw [List.getElem?_drop] at hj
    by_contra hlt
    exact absurd (hascending.lt_of_lt (by omega) hpoint hj) Int64.lt_irrefl
  · intro hle
    apply List.mem_of_getElem? (i := i - skipped)
    rwa [List.getElem?_drop, Nat.add_sub_cancel' hle]

theorem Ascending.newest {points : List Point} (hascending : Ascending points) (count : Nat) :
    Ascending (newest count points) :=
  hascending.sublist (List.drop_sublist _ _)

/-- The newest samples are the bindings with the greatest times. -/
theorem bindings_newest {points : List Point} (hascending : Ascending points) (count : Nat) :
    bindings (newest count points) = greatest count (bindings points) := by
  apply bindings_ext
  intro time value
  rw [bindings_eq_some (hascending.newest count), greatest]
  constructor
  · intro hmem
    have hbound := List.mem_of_mem_drop hmem
    obtain ⟨i, hi⟩ := List.getElem?_of_mem hbound
    have hskipped := (mem_drop_iff hascending hi).1 hmem
    have hlength := (List.getElem?_eq_some_iff.1 hi).1
    have hlater := later_of_index hascending hi
    rw [if_pos (by simp only at hlater; omega)]
    exact (bindings_eq_some hascending).2 hbound
  · intro hgreatest
    split at hgreatest
    · next hlater =>
      obtain ⟨i, hi⟩ := List.getElem?_of_mem ((bindings_eq_some hascending).1 hgreatest)
      have hlength := (List.getElem?_eq_some_iff.1 hi).1
      rw [show time = (⟨time, value⟩ : Point).timestamp from rfl,
        later_of_index hascending hi] at hlater
      exact (mem_drop_iff hascending hi).2 (by omega)
    · exact nomatch hgreatest

end MetricScript.Series
