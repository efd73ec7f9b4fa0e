import Mathlib
import MetricScript.Proofs.Provider.Sharing

/-!
# Buckets partition their window

The buckets of an aggregate lie one behind the other.  A running time begins as many intervals ago
as there are buckets and moves on by one interval for each of them; a bucket reaches from just
after the old time to the new one.  Every step clamps to the 64-bit range, so the running time may
stand still at the upper end.  Even then only a sample of the very last time can be seen by more
than one bucket, and as long as nothing is clamped the buckets cut the whole window up.
-/

namespace MetricScript

/-! ## Clamped times -/

/-- Clamping keeps an integer within the 64-bit bounds. -/
theorem toInt_ofIntClamp (whole : Int) :
    (Int64.ofIntClamp whole).toInt =
      max Int64.minValue.toInt (min whole Int64.maxValue.toInt) := by
  have hbounds : Int64.minValue.toInt ≤ Int64.maxValue.toInt := by decide
  unfold Int64.ofIntClamp
  split
  · next hlow =>
    split
    · next hhigh =>
      have hexact := Int64.toInt_ofIntClamp hlow hhigh
      rw [Int64.ofIntClamp, dif_pos hlow, dif_pos hhigh] at hexact
      omega
    · omega
  · omega

/-- A time that moves on by a span stops at the last time at most. -/
theorem toInt_addClamped (time : Int64) {span : Int64} (hspan : 0 ≤ span.toInt) :
    (addClamped time span).toInt = min (time.toInt + span.toInt) Int64.maxValue.toInt := by
  have hlow := time.minValue_le_toInt
  have hhigh := time.toInt_le
  rw [addClamped, toInt_ofIntClamp, max_eq_right]
  omega

namespace Series

/-- The samples that a bucket sees. -/
def seen (points : List Point) (bucket : Int64 × Int64) : List Point :=
  points.filter fun point => bucket.1 ≤ point.timestamp && point.timestamp ≤ bucket.2

theorem mem_seen {points : List Point} {bucket : Int64 × Int64} {sample : Point} :
    sample ∈ seen points bucket ↔
      sample ∈ points ∧ bucket.1.toInt ≤ sample.timestamp.toInt ∧
        sample.timestamp.toInt ≤ bucket.2.toInt := by
  simp [seen, Int64.le_iff_toInt_le]

/-- A bucket begins just after the time that the buckets before it have come to, and ends one span
later. -/
theorem getElem?_bucketsAfter {span : Int64} (hspan : 0 ≤ span.toInt) {count k : Nat}
    (hk : k < count) (start : Int64) :
    ∃ bucket, (bucketsAfter start span count)[k]? = some bucket ∧
      bucket.1.toInt =
        min (min (start.toInt + span.toInt * k) Int64.maxValue.toInt + 1) Int64.maxValue.toInt ∧
      bucket.2.toInt = min (start.toInt + span.toInt * (k + 1)) Int64.maxValue.toInt := by
  induction count generalizing start k with
  | zero => exact absurd hk (Nat.not_lt_zero k)
  | succ count ih =>
    have hmoved := toInt_addClamped start hspan
    cases k with
    | zero =>
      have hone : (1 : Int64).toInt = 1 := by decide
      have hfirst := toInt_addClamped start (hone ▸ Int.one_nonneg)
      have hstart := start.toInt_le
      refine ⟨_, rfl, ?_, ?_⟩
      · rw [hfirst, hone, Nat.cast_zero, mul_zero]
        omega
      · rw [hmoved, Nat.cast_zero, zero_add, mul_one]
    | succ k =>
      obtain ⟨bucket, hbucket, hfirst, hfinal⟩ :=
        ih (Nat.lt_of_succ_lt_succ hk) (addClamped start span)
      have hpassed : 0 ≤ span.toInt * (k : Int) := mul_nonneg hspan (Int.natCast_nonneg k)
      have hnext : span.toInt * ((k : Int) + 1) = span.toInt * k + span.toInt := by ring
      have hafter : span.toInt * ((k : Int) + 1 + 1) =
          span.toInt * k + span.toInt + span.toInt := by ring
      refine ⟨bucket, hbucket, ?_, ?_⟩
      · rw [hfirst, hmoved, Nat.cast_succ, hnext]
        omega
      · rw [hfinal, hmoved, Nat.cast_succ, hafter, hnext]
        omega

/-- The bounds of a bucket, and its share, which is what it sees. -/
theorem getElem?_shares {span : Int64} (hspan : 0 ≤ span.toInt) {count k : Nat} (hk : k < count)
    (points : List Point) (now : Int64) :
    ∃ bucket, (buckets now span count)[k]? = some bucket ∧
      ((buckets now span count).map (seen points))[k]? = some (seen points bucket) ∧
      bucket.1.toInt =
        min (min ((subClamped now (mulClamped span count)).toInt + span.toInt * k)
          Int64.maxValue.toInt + 1) Int64.maxValue.toInt ∧
      bucket.2.toInt =
        min ((subClamped now (mulClamped span count)).toInt + span.toInt * (k + 1))
          Int64.maxValue.toInt := by
  obtain ⟨bucket, hbucket, hfirst, hfinal⟩ :=
    getElem?_bucketsAfter hspan hk (subClamped now (mulClamped span count))
  refine ⟨bucket, hbucket, ?_, hfirst, hfinal⟩
  rw [List.getElem?_map, buckets, hbucket]
  rfl

/-- Points made of shares of the samples, one for each bucket and in the order of their times.  The
shares keep the samples in their order, and no sample but those of the very last time is in two of
them. -/
structure SharedOut (samples : List Point) (function : AggregateFunction) (count : Nat)
    (shares : List (List Point)) (points : List Point) : Prop where
  length : points.length = count
  ordered : points.Pairwise fun earlier later => earlier.timestamp ≤ later.timestamp
  values : points.map (·.value) = shares.map fun share => function.apply (share.map (·.value))
  kept : ∀ share ∈ shares, share.Sublist samples
  ascending : Ascending samples → ∀ share ∈ shares, Ascending share
  apart : ∀ sample : Point, sample.timestamp < Int64.maxValue → ∀ (j k : Nat) left right,
    shares[j]? = some left → shares[k]? = some right → sample ∈ left → sample ∈ right → j = k

/-- The window that ends now is cut up into intervals of one length, each without its beginning and
with its end.  A share holds what the samples have in its interval, so the samples of the window
are in one share each and no others are in any. -/
structure CutUp (now : Int64) (samples : List Point) (interval count : Nat)
    (shares : List (List Point)) (points : List Point) : Prop where
  times : ∀ k < count, ∃ point, points[k]? = some point ∧
    point.timestamp.toInt = now.toInt - interval * (count - 1 - k : Nat)
  newest : ∀ point ∈ points.getLast?, point.timestamp = now
  intervals : ∀ k < count, shares[k]? = some (samples.filter fun sample =>
    now.toInt - interval * (count - k : Nat) < sample.timestamp.toInt ∧
      sample.timestamp.toInt ≤ now.toInt - interval * (count - 1 - k : Nat))
  once : ∀ sample ∈ samples, now.toInt - interval * count < sample.timestamp.toInt →
    sample.timestamp ≤ now → ∃! k : Nat, ∃ share, shares[k]? = some share ∧ sample ∈ share
  others : ∀ share ∈ shares, ∀ sample ∈ share,
    now.toInt - interval * count < sample.timestamp.toInt ∧ sample.timestamp ≤ now

/-- Of two buckets the later one begins behind the end of the earlier one, unless that is the very
last time. -/
theorem eq_of_mem_seen {span : Int64} (hspan : 0 ≤ span.toInt) {count : Nat} (now : Int64)
    {points : List Point} {sample : Point} (hsample : sample.timestamp < Int64.maxValue)
    {j k : Nat} {left right : Int64 × Int64} (hleft : (buckets now span count)[j]? = some left)
    (hright : (buckets now span count)[k]? = some right) (hmemLeft : sample ∈ seen points left)
    (hmemRight : sample ∈ seen points right) : j = k := by
  wlog hjk : j < k generalizing j k left right
  · rcases Nat.lt_or_eq_of_le (Nat.le_of_not_lt hjk) with hless | hsame
    · exact (this hright hleft hmemRight hmemLeft hless).symm
    · exact hsame.symm
  have hk : k < count := by
    rw [← length_buckets now span count]
    exact (List.getElem?_eq_some_iff.1 hright).1
  obtain ⟨_, hearlier, -, -, hend⟩ := getElem?_shares hspan (hjk.trans hk) points now
  obtain ⟨_, hlater, -, hbegin, -⟩ := getElem?_shares hspan hk points now
  obtain rfl := Option.some.inj (hleft.symm.trans hearlier)
  obtain rfl := Option.some.inj (hright.symm.trans hlater)
  have hbefore := (mem_seen.1 hmemLeft).2.2
  have hbehind := (mem_seen.1 hmemRight).2.1
  have hlast := Int64.lt_iff_toInt_lt.1 hsample
  have hspans : span.toInt * ((j : Int) + 1) ≤ span.toInt * k :=
    mul_le_mul_of_nonneg_left (by exact_mod_cast hjk) hspan
  omega

end Series

namespace Store

open Series

/-- The buckets share the samples out, also where the clock saturates. -/
theorem sharedOut_aggregate (store : Store) (now : Int64) (name : String)
    (function : AggregateFunction) {span : Int64} (hspan : 0 ≤ span.toInt) (count : Nat) :
    SharedOut (store.points name) function count
      ((buckets now span count).map (seen (store.points name)))
      ((buckets now span count).map (store.bucketPoint name function)) where
  length := by rw [List.length_map, length_buckets]
  ordered := by
    rw [List.pairwise_map, List.pairwise_iff_getElem]
    intro j k hj hk hjk
    rw [length_buckets] at hj hk
    obtain ⟨_, hearlier, -, -, hend⟩ := getElem?_shares hspan hj (store.points name) now
    obtain ⟨_, hlater, -, -, hfinal⟩ := getElem?_shares hspan hk (store.points name) now
    have hspans : span.toInt * ((j : Int) + 1) ≤ span.toInt * ((k : Int) + 1) :=
      mul_le_mul_of_nonneg_left (by exact_mod_cast Nat.succ_le_succ hjk.le) hspan
    rw [(List.getElem?_eq_some_iff.1 hearlier).2, (List.getElem?_eq_some_iff.1 hlater).2]
    exact Int64.le_iff_toInt_le.2 (by simp only [bucketPoint]; omega)
  values := by
    rw [List.map_map, List.map_map]
    rfl
  kept share hshare := by
    obtain ⟨bucket, -, rfl⟩ := List.mem_map.1 hshare
    exact List.filter_sublist
  ascending hascending share hshare := by
    obtain ⟨bucket, -, rfl⟩ := List.mem_map.1 hshare
    exact List.Pairwise.filter _ hascending
  apart sample hsample j k left right hleft hright hmemLeft hmemRight := by
    rw [List.getElem?_map, Option.map_eq_some_iff] at hleft hright
    obtain ⟨earlier, hearlier, rfl⟩ := hleft
    obtain ⟨later, hlater, rfl⟩ := hright
    exact eq_of_mem_seen hspan now hsample hearlier hlater hmemLeft hmemRight

section Unclamped

variable {now : Int64} {interval count : Nat} (hinterval : 1 ≤ interval)
  (hwindow : (interval * count : Int) ≤ Int64.maxValue.toInt)
  (hstart : Int64.minValue.toInt ≤ now.toInt - interval * count)
include hinterval hwindow hstart

theorem toInt_start {span : Int64} (hspan : span.toInt = interval) :
    (subClamped now (mulClamped span count)).toInt = now.toInt - interval * count := by
  have hpositive : (0 : Int) ≤ interval * count := by positivity
  have hlength : (mulClamped span count).toInt = interval * count := by
    rw [mulClamped, hspan, toInt_ofIntClamp]
    have hnegative : Int64.minValue.toInt ≤ 0 := by decide
    omega
  have hnow := now.toInt_le
  rw [subClamped, hlength, toInt_ofIntClamp]
  omega

/-- While nothing is clamped, the buckets end at the times that lie whole intervals before now. -/
theorem getElem?_buckets {span : Int64} (hspan : span.toInt = interval) {k : Nat} (hk : k < count) :
    ∃ bucket, (buckets now span count)[k]? = some bucket ∧
      bucket.1.toInt = now.toInt - interval * (count - k : Nat) + 1 ∧
      bucket.2.toInt = now.toInt - interval * (count - 1 - k : Nat) := by
  obtain ⟨bucket, hbucket, -, hfirst, hfinal⟩ :=
    getElem?_shares (hspan ▸ Int.natCast_nonneg interval) hk [] now
  refine ⟨bucket, hbucket, ?_⟩
  rw [hspan, toInt_start hinterval hwindow hstart hspan] at hfirst hfinal
  obtain ⟨left, rfl⟩ : ∃ left, count = k + 1 + left := ⟨_, (Nat.add_sub_of_le hk).symm⟩
  have hcount : (interval : Int) * (k + 1 + left : Nat) =
      interval * k + interval + interval * left := by push_cast; ring
  have hafter : (interval : Int) * (k + 1) = interval * k + interval := by ring
  have hbefore : (interval : Int) * (k + 1 + left - k : Nat) = interval + interval * left := by
    rw [show k + 1 + left - k = 1 + left by omega]
    push_cast
    ring
  have hbehind : k + 1 + left - 1 - k = left := by omega
  have hleft : (0 : Int) ≤ interval * left := by positivity
  have hnow := now.toInt_le
  rw [hcount] at hfirst hfinal
  rw [hbefore, hbehind]
  rw [hafter] at hfinal
  omega

omit hwindow hstart in
/-- Which interval a time lies in is told by the number of whole intervals of its age. -/
theorem interval_iff {time : Int64} {k : Nat} (hk : k < count) :
    (now.toInt - interval * (count - k : Nat) < time.toInt ∧
        time.toInt ≤ now.toInt - interval * (count - 1 - k : Nat)) ↔
      time.toInt ≤ now.toInt ∧ (now.toInt - time.toInt).toNat / interval = count - 1 - k := by
  obtain ⟨left, rfl⟩ : ∃ left, count = k + 1 + left := ⟨_, (Nat.add_sub_of_le hk).symm⟩
  rw [show k + 1 + left - k = left + 1 by omega, show k + 1 + left - 1 - k = left by omega,
    Nat.div_eq_iff hinterval, Nat.cast_succ, mul_add, mul_one, mul_comm left interval]
  have hpassed : ((interval * left : Nat) : Int) = interval * left := Nat.cast_mul _ _
  have hpositive : (0 : Int) ≤ interval * left := by positivity
  generalize (interval : Int) * left = passed at *
  generalize interval * left = whole at *
  omega

/-- A share holds the samples whose times lie in its interval. -/
theorem getElem?_seen (points : List Point) {span : Int64} (hspan : span.toInt = interval) {k : Nat}
    (hk : k < count) : ((buckets now span count).map (seen points))[k]? =
      some (points.filter fun sample =>
        now.toInt - interval * (count - k : Nat) < sample.timestamp.toInt ∧
          sample.timestamp.toInt ≤ now.toInt - interval * (count - 1 - k : Nat)) := by
  obtain ⟨bucket, hbucket, hfirst, hfinal⟩ := getElem?_buckets hinterval hwindow hstart hspan hk
  rw [List.getElem?_map, hbucket, Option.map_some, seen]
  congr 2
  funext sample
  simp only [Int64.le_iff_toInt_le, hfirst, hfinal, Int.add_one_le_iff, Bool.decide_and]

/-- The age of a sample tells which share it is in. -/
theorem mem_share_iff (points : List Point) {span : Int64} (hspan : span.toInt = interval) {k : Nat}
    {sample : Point} :
    (∃ share, ((buckets now span count).map (seen points))[k]? = some share ∧ sample ∈ share) ↔
      k < count ∧ sample ∈ points ∧ sample.timestamp.toInt ≤ now.toInt ∧
        (now.toInt - sample.timestamp.toInt).toNat / interval = count - 1 - k := by
  have hshare {k : Nat} (hk : k < count) :=
    getElem?_seen hinterval hwindow hstart points hspan hk
  constructor
  · rintro ⟨share, hplace, hsample⟩
    have hk : k < count := by
      have hk := (List.getElem?_eq_some_iff.1 hplace).1
      rwa [List.length_map, length_buckets] at hk
    obtain rfl := Option.some.inj ((hshare hk).symm.trans hplace)
    rw [List.mem_filter, decide_eq_true_eq, interval_iff hinterval hk] at hsample
    exact ⟨hk, hsample⟩
  · rintro ⟨hk, hsample⟩
    refine ⟨_, hshare hk, ?_⟩
    rwa [List.mem_filter, decide_eq_true_eq, interval_iff hinterval hk]

/-- Where the clock does not saturate, the buckets cut the window up. -/
theorem cutUp_aggregate (store : Store) (name : String) (function : AggregateFunction)
    {span : Int64} (hspan : span.toInt = interval) :
    CutUp now (store.points name) interval count
      ((buckets now span count).map (seen (store.points name)))
      ((buckets now span count).map (store.bucketPoint name function)) where
  times k hk := by
    obtain ⟨bucket, hbucket, -, hfinal⟩ := getElem?_buckets hinterval hwindow hstart hspan hk
    exact ⟨_, by rw [List.getElem?_map, hbucket]; rfl, hfinal⟩
  newest point hpoint := by
    rw [List.getLast?_map, List.getLast?_eq_getElem?, length_buckets, Option.mem_def,
      Option.map_eq_some_iff] at hpoint
    obtain ⟨bucket, hbucket, rfl⟩ := hpoint
    have hk : count - 1 < count := by
      have hbound := (List.getElem?_eq_some_iff.1 hbucket).1
      rwa [length_buckets] at hbound
    obtain ⟨_, hlast, -, hfinal⟩ := getElem?_buckets hinterval hwindow hstart hspan hk
    obtain rfl := Option.some.inj (hbucket.symm.trans hlast)
    rw [Nat.sub_self, Nat.cast_zero, mul_zero, sub_zero] at hfinal
    exact Int64.toInt_inj.1 hfinal
  intervals k hk := getElem?_seen hinterval hwindow hstart (store.points name) hspan hk
  once sample hsample hbegin hend := by
    have hmem {k : Nat} := @mem_share_iff now interval count hinterval hwindow hstart
      (store.points name) span hspan k sample
    have hend := Int64.le_iff_toInt_le.1 hend
    obtain ⟨age, hage⟩ : ∃ age, (now.toInt - sample.timestamp.toInt).toNat / interval = age :=
      ⟨_, rfl⟩
    have hless : age < count := by
      rw [← hage]
      apply Nat.div_lt_of_lt_mul
      zify
      omega
    refine ⟨count - 1 - age, hmem.2 ⟨by omega, hsample, hend, by omega⟩, fun k hk => ?_⟩
    obtain ⟨hk, -, -, hplace⟩ := hmem.1 hk
    omega
  others share hshare sample hsample := by
    obtain ⟨k, hplace⟩ := List.mem_iff_getElem?.1 hshare
    obtain ⟨hk, -, hend, hage⟩ :=
      (mem_share_iff hinterval hwindow hstart (store.points name) hspan).1
        ⟨share, hplace, hsample⟩
    refine ⟨?_, Int64.le_iff_toInt_le.2 hend⟩
    have hyoung : (now.toInt - sample.timestamp.toInt).toNat / interval < count := by
      rw [hage]
      omega
    have hless := Nat.lt_mul_of_div_lt hyoung hinterval
    rw [mul_comm] at hless
    zify at hless
    omega

end Unclamped

/-- **What the buckets of an aggregate see.**  An aggregate of at most 100000 buckets succeeds for
every length of its intervals that is a time.  Its points come in the order of time, each made of
the samples that its bucket sees, and no sample but those of the very last time is seen by two
buckets.  If the window of all buckets reaches back no further than the first time, it is cut up
exactly. -/
theorem aggregate_partitions_window {σ : Type} (outside : Surroundings (StateM σ))
    (state : Store × σ) (name : String) (function : AggregateFunction) {interval count : Nat}
    (hinterval : (interval : Int) ≤ Int64.maxValue.toInt) (hcount : count ≤ 100000) :
    let now := (outside.now state.2).1
    let samples := state.1.points name
    let shares := (buckets now (.ofNat interval) count).map (seen samples)
    ∃ points, replied outside state (.seriesAggregate name function interval count) = .ok points ∧
      SharedOut samples function count shares points ∧
      (1 ≤ interval → (interval * count : Int) ≤ Int64.maxValue.toInt →
        Int64.minValue.toInt ≤ now.toInt - interval * count →
          CutUp now samples interval count shares points) := by
  intro now samples shares
  have hmax : Int64.maxValue.toInt = 2 ^ 63 - 1 := Int64.toInt_maxValue
  have hspan : (Int64.ofNat interval).toInt = interval :=
    Int64.toInt_ofNat_of_lt (by zify; omega)
  have hallowed : bucketSpan interval count = .ok (.ofNat interval) := by
    have hbuckets : ¬maxBuckets < count := Nat.not_lt.2 hcount
    rw [bucketSpan, if_neg hbuckets, timeSpan, if_pos (by omega)]
  refine ⟨(buckets now (.ofNat interval) count).map (state.1.bucketPoint name function), ?_,
    sharedOut_aggregate state.1 now name function (hspan ▸ Int.natCast_nonneg interval) count, ?_⟩
  · change state.1.aggregate now name function interval count = _
    rw [aggregate_eq, hallowed]
    rfl
  · intro hpositive hwindow hstart
    exact cutUp_aggregate hpositive hwindow hstart state.1 name function hspan

/-- Samples on the borders of two buckets, one of them older than both. -/
def borderSamples : Store := { series := [("load", [⟨80, 1.0⟩, ⟨90, 2.0⟩, ⟨91, 3.0⟩, ⟨100, 4.0⟩])] }

/-- Samples on the borders of two buckets, each counted once. -/
theorem aggregate_partitions_window_borderSamples :
    let shares := [[(⟨90, 2.0⟩ : Point)], [⟨91, 3.0⟩, ⟨100, 4.0⟩]]
    ((10 : Nat) : Int) ≤ Int64.maxValue.toInt ∧ 2 ≤ 100000 ∧
      ∃ points, replied Scene.surroundings (borderSamples, { clock := 100 })
          (.seriesAggregate "load" .count 10 2) = .ok points ∧
        SharedOut (borderSamples.points "load") .count 2 shares points ∧
        CutUp 100 (borderSamples.points "load") 10 2 shares points := by
  have hshares : (buckets 100 (.ofNat 10) 2).map (seen (borderSamples.points "load")) =
      [[(⟨90, 2.0⟩ : Point)], [⟨91, 3.0⟩, ⟨100, 4.0⟩]] := by decide +kernel
  obtain ⟨points, hpoints, hshared, hcut⟩ := aggregate_partitions_window Scene.surroundings
    (borderSamples, { clock := 100 }) "load" .count (by decide : ((10 : Nat) : Int) ≤ _)
    (by decide : 2 ≤ 100000)
  refine ⟨by decide, by decide, points, hpoints, ?_, ?_⟩
  · exact hshares ▸ hshared
  · exact hshares ▸ hcut (by decide) (by decide) (by decide)

end Store

end MetricScript
