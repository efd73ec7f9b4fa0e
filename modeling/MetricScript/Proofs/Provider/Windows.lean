import Mathlib
import MetricScript.Proofs.Provider.Buckets
import MetricScript.Proofs.Run.StoredMaps

/-!
# Queries about a window

Two queries look at what a series has up to now.  One takes a single window, with both of its
ends; the other cuts the time up into buckets, which begin just after the end of the one before.
So the window is the bucket that is longer by one second, and it is the bucket of its own length
as well unless a sample lies on its border.

Trimming by age drops the samples before a window with both of its ends.  Whatever a younger
query looks at is still there behind it: three bounds are computed in three ways, one of them
refused and two of them clamped when they are out of range, and they nest.
-/

namespace MetricScript

open RunM

/-! ## Where windows begin -/

namespace Series

/-- The buckets begin no earlier than the time that they start from. -/
theorem start_le_of_mem_bucketsAfter {start span : Int64} (hspan : 0 ≤ span.toInt) {count : Nat}
    {bucket : Int64 × Int64} (hbucket : bucket ∈ bucketsAfter start span count) :
    start ≤ bucket.1 := by
  obtain ⟨k, hk⟩ := List.mem_iff_getElem?.1 hbucket
  have hcount : k < count := by
    rw [← length_bucketsAfter start span count]
    exact (List.getElem?_eq_some_iff.1 hk).1
  obtain ⟨_, hplace, hfirst, -⟩ := getElem?_bucketsAfter hspan hcount start
  obtain rfl := Option.some.inj (hk.symm.trans hplace)
  have hpassed : 0 ≤ span.toInt * (k : Int) := mul_nonneg hspan (Int.natCast_nonneg k)
  have hstart := start.toInt_le
  rw [Int64.le_iff_toInt_le, hfirst]
  omega

/-- Going back by less than a time that is in range does not go past it. -/
theorem le_subClamped {now time back : Int64} {seconds : Nat}
    (htime : time.toInt = now.toInt - seconds) (hback : back.toInt ≤ seconds) :
    time ≤ subClamped now back := by
  have hleast := time.minValue_le_toInt
  have hgreatest := time.toInt_le
  rw [Int64.le_iff_toInt_le, subClamped, toInt_ofIntClamp]
  omega

theorem toInt_subClamped {now span : Int64} (hspan : 0 ≤ span.toInt)
    (hstart : Int64.minValue.toInt ≤ now.toInt - span.toInt) :
    (subClamped now span).toInt = now.toInt - span.toInt := by
  have hgreatest := now.toInt_le
  rw [subClamped, toInt_ofIntClamp]
  omega

/-- A single bucket ends now and begins just after the time that lies back by its length. -/
theorem buckets_one {now span : Int64} (hspan : 0 ≤ span.toInt)
    (hstart : Int64.minValue.toInt ≤ now.toInt - span.toInt) :
    ∃ first : Int64, buckets now span 1 = [(first, now)] ∧
      first.toInt = min (now.toInt - span.toInt + 1) Int64.maxValue.toInt := by
  have hone : mulClamped span 1 = span := by
    rw [← Int64.toInt_inj, mulClamped, toInt_ofIntClamp, Nat.cast_one, mul_one]
    have hleast := span.minValue_le_toInt
    have hgreatest := span.toInt_le
    omega
  have hstarts := toInt_subClamped hspan hstart
  have hfinal : addClamped (subClamped now span) span = now := by
    rw [← Int64.toInt_inj, toInt_addClamped _ hspan, hstarts]
    have hgreatest := now.toInt_le
    omega
  refine ⟨addClamped (subClamped now span) 1, ?_, ?_⟩
  · rw [buckets, hone, bucketsAfter, hfinal]
    rfl
  · rw [toInt_addClamped _ (by decide), hstarts]
    rfl

/-- Two windows that end at one time hold the same values if no sample lies in one of them only. -/
theorem window_congr {first other final : Int64} {points : List Point}
    (hpoints : ∀ point ∈ points, point.timestamp ≤ final →
      (first ≤ point.timestamp ↔ other ≤ point.timestamp)) :
    window first final points = window other final points := by
  unfold window
  congr 1
  refine List.filter_congr fun point hpoint => ?_
  by_cases hfinal : point.timestamp ≤ final
  · simp [hfinal, hpoints point hpoint hfinal]
  · simp [hfinal]

theorem toInt_mulClamped_le {span : Int64} {interval count : Nat} (hspan : span.toInt = interval) :
    (mulClamped span count).toInt ≤ (interval * count : Nat) := by
  have hproduct : (0 : Int) ≤ interval * count := by positivity
  have hleast : Int64.minValue.toInt ≤ 0 := by decide
  rw [mulClamped, toInt_ofIntClamp, hspan, Nat.cast_mul]
  omega

end Series

namespace Store

open Series

theorem timeSpan_eq_ok {what : String} {seconds : Nat} {span : Int64}
    (hspan : timeSpan what seconds = .ok span) : span.toInt = seconds := by
  unfold timeSpan at hspan
  split at hspan
  · next hseconds =>
    obtain rfl := Except.ok.inj hspan
    have hmax : Int64.maxValue.toInt = 2 ^ 63 - 1 := Int64.toInt_maxValue
    exact Int64.toInt_ofNat_of_lt (by zify; omega)
  · exact nomatch hspan

theorem timeSpan_of_le (what : String) {seconds : Nat}
    (hseconds : (seconds : Int) ≤ Int64.maxValue.toInt) :
    timeSpan what seconds = .ok (.ofNat seconds) :=
  if_pos (by omega)

theorem bucketSpan_eq_ok {interval count : Nat} {span : Int64}
    (hspan : bucketSpan interval count = .ok span) : span.toInt = interval := by
  unfold bucketSpan at hspan
  split at hspan
  · exact nomatch hspan
  · exact timeSpan_eq_ok hspan

/-! ## The window and the bucket -/

/-- A bucket and a window are the same if no sample lies on the border that only one of them
has. -/
theorem aggregate_one_of_window (store : Store) (name : String) (function : AggregateFunction)
    {now : Int64} {interval : Nat} (hpositive : 1 ≤ interval)
    (hinterval : (interval : Int) ≤ Int64.maxValue.toInt)
    (hstart : Int64.minValue.toInt ≤ now.toInt - interval) {first : Int64}
    (hfirst : ∀ point ∈ store.points name, point.timestamp ≤ now →
      (now.toInt - interval < point.timestamp.toInt ↔ first ≤ point.timestamp)) :
    store.aggregate now name function interval 1 =
      .ok [⟨now, function.apply (store.window name first now)⟩] := by
  have hallowed : bucketSpan interval 1 = .ok (.ofNat interval) := by
    rw [bucketSpan, if_neg (by decide), timeSpan_of_le _ hinterval]
  have hspan := bucketSpan_eq_ok hallowed
  obtain ⟨begins, hbuckets, hbegins⟩ := buckets_one (hspan ▸ Int.natCast_nonneg interval)
    (hspan.symm ▸ hstart)
  have hwindow : store.window name begins now = store.window name first now := by
    refine window_congr fun point hpoint hnow => ?_
    rw [← hfirst point hpoint hnow, Int64.le_iff_toInt_le, hbegins, hspan]
    have hgreatest := now.toInt_le
    omega
  rw [aggregate_eq, hallowed, Except.map, hbuckets, List.map_singleton, bucketPoint, hwindow]

theorem compute_of_span (store : Store) (name : String) (function : AggregateFunction)
    (now : Int64) {window : Nat} (hwindow : (window : Int) ≤ Int64.maxValue.toInt) :
    store.compute now name function window =
      .ok (function.apply (store.window name (subClamped now (.ofNat window)) now)) := by
  rw [compute, timeSpan_of_le _ hwindow]
  rfl

/-- **The window and the bucket.**  A query about the last seconds gives the value of the single
bucket that is longer by one second.  It gives the value of the single bucket of its own length as
well, unless a sample lies on the border of the window. -/
theorem compute_eq_single_bucket {σ : Type} (outside : Surroundings (StateM σ)) (state : Store × σ)
    (name : String) (function : AggregateFunction) {window : Nat} :
    let now := (outside.now state.2).1
    (window + 1 : Int) ≤ Int64.maxValue.toInt → Int64.minValue.toInt ≤ now.toInt - (window + 1) →
      ∃ value, replied outside state (.seriesCompute name function window) = .ok value ∧
        replied outside state (.seriesAggregate name function (window + 1) 1) =
          .ok [⟨now, value⟩] ∧
        (1 ≤ window → (∀ point ∈ state.1.points name,
            point.timestamp.toInt ≠ now.toInt - window) →
          replied outside state (.seriesAggregate name function window 1) =
            .ok [⟨now, value⟩]) := by
  intro now hwindow hstart
  change ∃ value, state.1.compute now name function window = .ok value ∧
    state.1.aggregate now name function (window + 1) 1 = .ok [⟨now, value⟩] ∧
    (_ → _ → state.1.aggregate now name function window 1 = .ok [⟨now, value⟩])
  clear_value now
  have hrange : (window : Int) ≤ Int64.maxValue.toInt := by omega
  have hspan := timeSpan_eq_ok (timeSpan_of_le "window" hrange)
  have hfirst : (subClamped now (.ofNat window)).toInt = now.toInt - window := by
    rw [toInt_subClamped (by omega) (by omega), hspan]
  refine ⟨_, compute_of_span state.1 name function now hrange, ?_, fun hpositive hborder => ?_⟩
  · refine aggregate_one_of_window state.1 name function (by omega) (by omega) (by omega)
      fun point _ _ => ?_
    rw [Int64.le_iff_toInt_le, hfirst]
    omega
  · refine aggregate_one_of_window state.1 name function hpositive hrange (by omega)
      fun point hpoint _ => ?_
    have hapart := hborder point hpoint
    rw [Int64.le_iff_toInt_le, hfirst]
    omega

/-- Samples before, on and behind the border of the last ten seconds, and one that is still to
come. -/
def agedSamples : Store :=
  { series := [("load", [⟨80, 1.0⟩, ⟨90, 2.0⟩, ⟨95, 3.0⟩, ⟨120, 4.0⟩])] }

/-- Samples around the border of a window, and one from the future. -/
theorem compute_eq_single_bucket_agedSamples :
    let state : Store × Scene := (agedSamples, { clock := 100 })
    (11 + 1 : Int) ≤ Int64.maxValue.toInt ∧ Int64.minValue.toInt ≤ (100 : Int64).toInt - (11 + 1) ∧
      (∀ point ∈ agedSamples.points "load", point.timestamp.toInt ≠ (100 : Int64).toInt - 11) ∧
      ∃ value, replied Scene.surroundings state (.seriesCompute "load" .count 11) = .ok value ∧
        replied Scene.surroundings state (.seriesAggregate "load" .count 12 1) =
          .ok [⟨100, value⟩] ∧
        replied Scene.surroundings state (.seriesAggregate "load" .count 11 1) =
          .ok [⟨100, value⟩] := by
  intro state
  have hborder : ∀ point ∈ agedSamples.points "load",
      point.timestamp.toInt ≠ (100 : Int64).toInt - 11 := by decide +kernel
  obtain ⟨value, hcompute, hlonger, hsame⟩ := compute_eq_single_bucket Scene.surroundings state
    "load" .count (by decide : ((11 : Nat) + 1 : Int) ≤ _) (by decide)
  exact ⟨by decide, by decide, hborder, value, hcompute, hlonger, hsame (by decide) hborder⟩

/-! ## Trimming by age -/

section Trimming

variable {before after : Store} {name : String} {now time : Int64} {seconds : Nat}
  (hpoints : after.points name = Series.trim (before.points name) (.since time))
  (htime : time.toInt = now.toInt - seconds)
include hpoints

/-- A window that begins behind the trimmed samples is what it was. -/
theorem window_of_trimmed {first : Int64} (hfirst : time ≤ first) (final : Int64) :
    after.window name first final = before.window name first final := by
  rw [window, hpoints, window_since hfirst]
  rfl

include htime

theorem compute_of_trimmed (function : AggregateFunction) {window : Nat}
    (hwindow : window ≤ seconds) :
    after.compute now name function window = before.compute now name function window := by
  unfold compute
  cases hspan : timeSpan "window" window with
  | error error => rfl
  | ok span =>
    have hfirst : time ≤ subClamped now span :=
      le_subClamped htime (by rw [timeSpan_eq_ok hspan]; omega)
    exact congrArg (fun values => Except.ok (function.apply values))
      (window_of_trimmed hpoints hfirst now)

/-- Trimming what is older than all of the buckets does not change an aggregate. -/
theorem aggregate_of_trimmed (function : AggregateFunction) {interval count : Nat}
    (hwindow : interval * count ≤ seconds) :
    after.aggregate now name function interval count =
      before.aggregate now name function interval count := by
  rw [aggregate_eq, aggregate_eq]
  cases hspan : bucketSpan interval count with
  | error error => rfl
  | ok span =>
    have hinterval := bucketSpan_eq_ok hspan
    have hback : (mulClamped span count).toInt ≤ (interval * count : Nat) :=
      toInt_mulClamped_le hinterval
    have hstart : time ≤ subClamped now (mulClamped span count) :=
      le_subClamped htime (by omega)
    refine congrArg Except.ok (List.map_congr_left fun bucket hbucket => ?_)
    have hfirst : time ≤ bucket.1 := Int64.le_trans hstart
      (start_le_of_mem_bucketsAfter (hinterval ▸ Int.natCast_nonneg interval) hbucket)
    rw [bucketPoint, bucketPoint, window_of_trimmed hpoints hfirst]

end Trimming

end Store

/-! ## Calls that trim by age -/

/-- A moment before now exists exactly if the clock can show it. -/
theorem timeBefore?_eq_some_iff {now time : Int64} {seconds : Nat} :
    timeBefore? now seconds = some time ↔ time.toInt = now.toInt - seconds := by
  have hnow := now.toInt_le
  unfold timeBefore?
  dsimp only
  split
  · next hleast =>
    have hexact : (Int64.ofInt (now.toInt - seconds)).toInt = now.toInt - seconds :=
      Int64.toInt_ofInt_of_le hleast (by have := Int64.toInt_maxValue; omega)
    rw [Option.some.injEq, ← Int64.toInt_inj, hexact]
    exact eq_comm
  · next hleast =>
    refine iff_of_false (fun hnone => nomatch hnone) fun htime => hleast ?_
    exact htime ▸ time.minValue_le_toInt

/-- An interval argument counts with its whole seconds if there are any. -/
theorem intervalSeconds_eq_ok_iff {arguments : Arguments} {name text : String}
    (htext : arguments.string name = .ok text) {seconds : Nat} :
    intervalSeconds arguments name = .ok seconds ↔
      ∃ duration, Duration.read text = .ok duration ∧ duration.seconds ≠ 0 ∧
        duration.seconds = seconds := by
  unfold intervalSeconds
  simp only [htext, bind, Except.bind]
  cases Duration.read text with
  | error error =>
    exact iff_of_false (fun herror => nomatch herror) fun ⟨_, hread, _⟩ => nomatch hread
  | ok duration =>
    simp only [Except.ok.injEq, exists_eq_left']
    split
    · next hzero => exact iff_of_false (fun herror => nomatch herror) fun hne => hne.1 hzero
    · next hne => simp [hne]

section Calls

variable {σ : Type} (outside : Surroundings (StateM σ)) (name : String) (since : Value) (run : Run)
  (store : Store) {now : Int64} {around : σ}

def trimSince : RunM (StateT Store (StateM σ)) Fault Value :=
  (BoundMethod.ofSeries name .trim).call (Store.provider outside) [(some "since", since)]

/-- The time is as long ago as an interval says, in whole seconds. -/
def LiesBack (now : Int64) (since : Value) (time : Int64) : Prop :=
  ∃ duration, Duration.read since.text = .ok duration ∧ duration.seconds ≠ 0 ∧
    (duration.seconds : Int) ≤ Int64.maxValue.toInt ∧ time.toInt = now.toInt - duration.seconds

theorem liesBack_iff {since : Value} {duration : Duration}
    (hread : Duration.read since.text = .ok duration) {time : Int64} :
    LiesBack now since time ↔ duration.seconds ≠ 0 ∧
      (duration.seconds : Int) ≤ Int64.maxValue.toInt ∧
        timeBefore? now duration.seconds = some time := by
  simp only [LiesBack, hread, Except.ok.injEq, exists_eq_left', timeBefore?_eq_some_iff]

section Steps

variable {α β : Type} {action : RunM (StateT Store (StateM σ)) Fault α}
  {next : α → RunM (StateT Store (StateM σ)) Fault β} {run left : Run} {store kept : Store}
  {further : σ}

/-- What follows an action goes on where the action ended. -/
theorem outcome_bind_of_ok {value : α}
    (haction : outcome action run store around = (((.ok value, left), kept), further)) :
    outcome (action >>= next) run store around = outcome (next value) left kept further := by
  rw [outcome_bind]
  simp only [bind, StateT.bind, haction]

/-- Nothing follows an action that fails. -/
theorem outcome_bind_of_error {fault : Fault}
    (haction : outcome action run store around = (((.error fault, left), kept), further)) :
    outcome (action >>= next) run store around = (((.error fault, left), kept), further) := by
  rw [outcome_bind]
  simp only [bind, StateT.bind, haction]
  rfl

theorem outcome_clock_of_now {outside : Surroundings (StateM σ)}
    (hclock : outside.now around = (now, around)) :
    outcome (clock (Store.provider outside) : RunM _ Fault Int64) run store around =
      (((.ok now, run.after (.readClock now)), store), around) := by
  rw [outcome_clock]
  change (((Except.ok (outside.now around).1, run.after (.readClock (outside.now around).1)),
    store), (outside.now around).2) = _
  rw [hclock]

end Steps

def sinceOnly (since : Value) : Arguments := ⟨"trim", [("since", .string since.text)]⟩

/-- The time is made out from the clock, unless there is none. -/
theorem outcome_trimOf (hclock : outside.now around = (now, around)) :
    let trim := outcome (trimOf (Store.provider outside) (sinceOnly since)) run store around
    (∃ time, LiesBack now since time ∧
        ∃ left, trim = (((.ok (.since time), left), store), around)) ∨
      (∀ time, ¬LiesBack now since time) ∧
        ∃ fault left, trim = (((.error fault, left), store), around) := by
  intro trim
  have hseconds (seconds : Nat) :
      intervalSeconds (sinceOnly since) "since" = .ok seconds ↔ ∃ duration,
        Duration.read since.text = .ok duration ∧ duration.seconds ≠ 0 ∧
          duration.seconds = seconds := intervalSeconds_eq_ok_iff rfl
  have hgiven : (sinceOnly since).string? "since" = some since.text := rfl
  have habsent : (sinceOnly since).get? "count" = none := rfl
  have htrim : trim =
      outcome (trimOf (Store.provider outside) (sinceOnly since)) run store around := rfl
  rw [trimOf, hgiven, habsent] at htrim
  dsimp only at htrim
  cases hresult : intervalSeconds (sinceOnly since) "since" with
  | error fault =>
    rw [hresult] at htrim
    refine .inr ⟨?_, fault, run, htrim⟩
    rintro time ⟨duration, hread, hne, -⟩
    cases hresult.symm.trans ((hseconds _).2 ⟨duration, hread, hne, rfl⟩)
  | ok seconds =>
    obtain ⟨duration, hread, hne, rfl⟩ := (hseconds seconds).1 hresult
    rw [hresult, settle, pure_bind] at htrim
    by_cases hlarge : Int64.maxValue.toInt < duration.seconds
    · rw [if_pos hlarge] at htrim
      refine .inr ⟨fun time hlies => ?_, _, run, htrim⟩
      exact absurd hlarge (not_lt.2 ((liesBack_iff hread).1 hlies).2.1)
    rw [if_neg hlarge, outcome_bind_of_ok (outcome_clock_of_now hclock)] at htrim
    cases htime : timeBefore? now duration.seconds with
    | some time =>
      rw [htime] at htrim
      exact .inl ⟨time, (liesBack_iff hread).2 ⟨hne, not_lt.1 hlarge, htime⟩, _, htrim⟩
    | none =>
      rw [htime] at htrim
      refine .inr ⟨fun time hlies => ?_, _, _, htrim⟩
      cases htime.symm.trans ((liesBack_iff hread).1 hlies).2.2

/-- Trimming by age cuts at the time that lies back so far; without such a time it fails and changes
nothing. -/
theorem outcome_trimSince (hclock : outside.now around = (now, around)) :
    let ended := outcome (trimSince outside name since) run store around
    (∃ time, LiesBack now since time ∧ ∃ left, ended =
      (((.ok .null, left), store.modifySeries name fun points =>
        Series.trim points (.since time)), around)) ∨
      (∀ time, ¬LiesBack now since time) ∧
        ∃ fault left, ended = (((.error fault, left), store), around) := by
  intro ended
  let label := quotedCall "series" name ++ "." ++ SeriesMethod.trim.name ++ "()"
  have hbound : bindArguments (BoundMethod.ofSeries name .trim).name
      (BoundMethod.ofSeries name .trim).params [(some "since", since)] =
        .ok (sinceOnly since) := rfl
  have hcall : trimSince outside name since =
      trimOf (Store.provider outside) (sinceOnly since) >>= fun trim =>
        perform (Store.provider outside) label (.seriesTrim name trim) >>= fun _ =>
          pure Value.null := by
    rw [trimSince, BoundMethod.call_of_bound hbound]
    rfl
  have hended : ended = outcome (trimSince outside name since) run store around := rfl
  rw [hcall] at hended
  rcases outcome_trimOf outside since run store hclock with
    ⟨time, hlies, left, htrim⟩ | ⟨hnone, fault, left, htrim⟩
  · rw [outcome_bind_of_ok htrim] at hended
    exact .inl ⟨time, hlies, _, hended⟩
  · rw [outcome_bind_of_error htrim] at hended
    exact .inr ⟨hnone, fault, left, hended⟩

/-- **Trimming by age spares the younger queries.**  A call that trims a series by age succeeds if
the time that lies back by its interval is in range.  Then all samples from this time on are still
there, in their order, and no others; and a query whose window is no longer than the interval
answers as before. -/
theorem trim_spares_younger_queries (hclock : outside.now around = (now, around)) :
    let ended := outcome (trimSince outside name since) run store around
    let before := (store, around)
    let after := (ended.1.2, ended.2)
    ((∃ value, ended.1.1.1 = .ok value) ↔ ∃ time, LiesBack now since time) ∧
    ∀ value, ended.1.1.1 = .ok value →
      ∃ duration, Duration.read since.text = .ok duration ∧
        (∀ function window, window ≤ duration.seconds →
          Store.replied outside after (.seriesCompute name function window) =
            Store.replied outside before (.seriesCompute name function window)) ∧
        (∀ function interval count, interval * count ≤ duration.seconds →
          Store.replied outside after (.seriesAggregate name function interval count) =
            Store.replied outside before (.seriesAggregate name function interval count)) ∧
        after.1.points name = (store.points name).filter fun sample =>
          now.toInt - duration.seconds ≤ sample.timestamp.toInt := by
  intro ended before after
  rcases outcome_trimSince outside name since run store hclock with
    ⟨time, hlies, left, houtcome⟩ | ⟨hnone, fault, left, houtcome⟩
  · have hended : ended = _ := houtcome
    refine ⟨iff_of_true ⟨.null, by rw [hended]⟩ ⟨time, hlies⟩, fun _ _ => ?_⟩
    obtain ⟨duration, hread, -, -, htime⟩ := hlies
    obtain ⟨trimmed, hafter, hpoints⟩ : ∃ trimmed : Store, after = (trimmed, around) ∧
        trimmed.points name = Series.trim (store.points name) (.since time) :=
      ⟨_, congrArg (fun ending => (ending.1.2, ending.2)) hended, by
        rw [Store.points_modifySeries store name (Series.trim_nil _), if_pos rfl]⟩
    have hnow : (outside.now around).1 = now := by rw [hclock]
    rw [hafter]
    refine ⟨duration, hread, fun function window hwindow => ?_,
      fun function interval count hwindow => ?_, ?_⟩
    · change trimmed.compute (outside.now around).1 name function window =
        store.compute (outside.now around).1 name function window
      rw [hnow, Store.compute_of_trimmed hpoints htime function hwindow]
    · change trimmed.aggregate (outside.now around).1 name function interval count =
        store.aggregate (outside.now around).1 name function interval count
      rw [hnow, Store.aggregate_of_trimmed hpoints htime function hwindow]
    · rw [hpoints, ← htime]
      simp only [Series.trim, Int64.le_iff_toInt_le]
  · have hended : ended = _ := houtcome
    have hfails (value : Value) : ended.1.1.1 ≠ .ok value := by
      intro hvalue
      rw [hended] at hvalue
      cases hvalue
    exact ⟨iff_of_false (not_exists.2 hfails) (not_exists.2 hnone),
      fun value hvalue => absurd hvalue (hfails value)⟩

/-- The oldest sample goes, the one on the border stays, and so does the one that is still to
come. -/
theorem trim_spares_younger_queries_agedSamples :
    let scene : Scene := { clock := 100 }
    let store := Store.agedSamples
    let ended := outcome (trimSince Scene.surroundings "load" (.string "10")) {} store scene
    Scene.surroundings.now scene = (100, scene) ∧ (∃ value, ended.1.1.1 = .ok value) ∧
      ended.1.2.points "load" = [⟨90, 2.0⟩, ⟨95, 3.0⟩, ⟨120, 4.0⟩] ∧
      Store.replied Scene.surroundings (ended.1.2, ended.2) (.seriesCompute "load" .sum 10) =
        Store.replied Scene.surroundings (store, scene) (.seriesCompute "load" .sum 10) ∧
      Store.replied Scene.surroundings (ended.1.2, ended.2) (.seriesAggregate "load" .sum 5 2) =
        Store.replied Scene.surroundings (store, scene)
          (.seriesAggregate "load" .sum 5 2) := by
  intro scene store ended
  have hclock : Scene.surroundings.now scene = (100, scene) := rfl
  have hread : Duration.read (Value.string "10").text = .ok ⟨10, 0⟩ := by decide +kernel
  obtain ⟨hsucceeds, hafter⟩ :=
    trim_spares_younger_queries Scene.surroundings "load" (.string "10") {} store hclock
  obtain ⟨value, hvalue⟩ := hsucceeds.2 ⟨90, ⟨10, 0⟩, hread, by decide, by decide, by decide⟩
  obtain ⟨duration, hduration, hcompute, haggregate, hpoints⟩ := hafter value hvalue
  obtain rfl := Except.ok.inj (hread.symm.trans hduration)
  exact ⟨hclock, ⟨value, hvalue⟩, hpoints.trans (by decide +kernel),
    hcompute .sum 10 (by decide), haggregate .sum 5 2 (by decide)⟩

end Calls

end MetricScript
