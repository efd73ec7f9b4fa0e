import Mathlib
import MetricScript.Series.Interval
import MetricScript.Proofs.Number.Value

/-!
# Seconds as lengths of time

A number of seconds becomes a length of time if its value is at least zero and below `2 ^ 64`,
and then the length is the value in nanoseconds, rounded to the nearest whole number and a half
to the even neighbour.  This rounding is stated for rational numbers, where it has one result;
the quotients of whole numbers that are computed are shown to be rounded in this way.
-/

namespace MetricScript.Duration

open MetricScript.Number (Binary binary?)

/-! ## Rounding -/

/-- The whole number nearest to a rational one; of two that are equally near, the even one. -/
def Nearest (x : ℚ) (n : Nat) : Prop := |x - n| < 1 / 2 ∨ |x - n| = 1 / 2 ∧ Even n

/-- Only one integer is the nearest, ties included. -/
theorem Nearest.unique {x : ℚ} {n m : Nat} (hn : Nearest x n) (hm : Nearest x m) : n = m := by
  have hle : ∀ {k}, Nearest x k → |x - k| ≤ 1 / 2 := fun hk => hk.elim le_of_lt fun hk => hk.1.le
  have hdistance : |(n : ℚ) - m| ≤ |x - m| + |x - n| := by
    calc |(n : ℚ) - m| = |(x - m) - (x - n)| := by ring_nf
      _ ≤ |x - m| + |x - n| := abs_sub _ _
  by_contra hne
  have hone : (1 : ℚ) ≤ |(n : ℚ) - m| := by
    have hne : (n : Int) - m ≠ 0 := sub_ne_zero.2 (by exact_mod_cast hne)
    exact_mod_cast Int.one_le_abs hne
  -- Two results would both be at a half from the number, and be even neighbours.
  have hhalf : |x - n| = 1 / 2 ∧ |x - m| = 1 / 2 := by
    have := hle hn
    have := hle hm
    constructor <;> linarith
  have heven : Even n ∧ Even m :=
    ⟨(hn.resolve_left hhalf.1.not_lt).2, (hm.resolve_left hhalf.2.not_lt).2⟩
  have hnear : |(n : Int) - m| = 1 := by
    have hone : |(n : ℚ) - m| = 1 := by
      rw [hhalf.1, hhalf.2] at hdistance
      linarith
    exact_mod_cast hone
  obtain ⟨⟨a, ha⟩, ⟨b, hb⟩⟩ := heven
  rcases (abs_eq zero_le_one).1 hnear with hnear | hnear <;> omega

section Neighbours

variable (whole : Nat) {part : ℚ}

theorem nearest_of_lt_half (hleast : 0 ≤ part) (hpart : part < 1 / 2) :
    Nearest (whole + part) whole := by
  refine .inl ?_
  rw [add_sub_cancel_left, abs_of_nonneg hleast]
  exact hpart

theorem nearest_of_half_lt (hpart : 1 / 2 < part) (hmost : part < 1) :
    Nearest (whole + part) (whole + 1) := by
  refine .inl ?_
  rw [Nat.cast_succ, add_sub_add_left_eq_sub, abs_sub_comm, abs_of_nonneg (by linarith)]
  linarith

theorem nearest_half : Nearest (whole + 1 / 2) (whole + whole % 2) := by
  refine .inr ⟨?_, ?_⟩
  · rw [Nat.cast_add, add_sub_add_left_eq_sub]
    rcases Nat.mod_two_eq_zero_or_one whole with hmod | hmod <;> rw [hmod] <;> norm_num
  · rw [Nat.even_iff]
    omega

end Neighbours

/-- The division with rounding gives the nearest integer. -/
theorem nearest_roundDiv (numerator : Nat) {denominator : Nat} (hpos : 0 < denominator) :
    Nearest ((numerator : ℚ) / denominator) (roundDiv numerator denominator) := by
  have hdenominator : (0 : ℚ) < denominator := by exact_mod_cast hpos
  have hquotient : (numerator : ℚ) / denominator =
      (numerator / denominator : Nat) + (numerator % denominator : Nat) / denominator := by
    rw [eq_comm, ← eq_sub_iff_add_eq', div_eq_iff hdenominator.ne', sub_mul,
      div_mul_cancel₀ _ hdenominator.ne', eq_sub_iff_add_eq]
    exact_mod_cast Nat.mod_add_div' numerator denominator
  have hrest : numerator % denominator < denominator := Nat.mod_lt _ hpos
  unfold roundDiv
  dsimp only
  rw [hquotient]
  generalize numerator / denominator = quotient
  generalize numerator % denominator = rest at hrest
  split
  · next hsmall =>
    apply nearest_of_lt_half quotient (by positivity)
    rw [div_lt_div_iff₀ hdenominator two_pos]
    exact_mod_cast (by omega : rest * 2 < 1 * denominator)
  split
  · next hlarge =>
    apply nearest_of_half_lt quotient
    · rw [div_lt_div_iff₀ two_pos hdenominator]
      exact_mod_cast (by omega : 1 * denominator < rest * 2)
    · rw [div_lt_one hdenominator]
      exact_mod_cast hrest
  · next hnotSmall hnotLarge =>
    have hhalf : (rest : ℚ) / denominator = 1 / 2 := by
      rw [div_eq_div_iff hdenominator.ne' two_ne_zero]
      exact_mod_cast (by omega : rest * 2 = 1 * denominator)
    rw [hhalf]
    exact nearest_half quotient

/-- The length of time in nanoseconds. -/
def total (duration : Duration) : Nat := duration.seconds * 10 ^ 9 + duration.nanoseconds

/-- The length of time is this number of seconds, rounded to nanoseconds. -/
def Rounds (duration : Duration) (seconds : ℚ) : Prop :=
  duration.nanoseconds < 10 ^ 9 ∧ Nearest (seconds * 10 ^ 9) duration.total

/-- A duration rounds the seconds if it has as many nanoseconds as are nearest. -/
theorem rounds_iff {duration : Duration} {seconds : ℚ} {n : Nat}
    (hn : Nearest (seconds * 10 ^ 9) n) :
    duration.Rounds seconds ↔ duration = ⟨n / Nat.pow 10 9, n % Nat.pow 10 9⟩ := by
  obtain ⟨whole, part⟩ := duration
  have hsplit : part < 10 ^ 9 ∧ whole * 10 ^ 9 + part = n ↔
      whole = n / 10 ^ 9 ∧ part = n % 10 ^ 9 := by omega
  rw [Duration.mk.injEq]
  refine Iff.trans ?_ hsplit
  constructor
  · rintro ⟨hpart, htotal⟩
    exact ⟨hpart, htotal.unique hn⟩
  · rintro ⟨hpart, rfl⟩
    exact ⟨hpart, hn⟩

/-! ## Numbers of seconds -/

section Values

variable {number : Binary}

/-- The value of a number that is not below zero is its magnitude. -/
theorem value_eq_magnitude (hvalue : 0 ≤ number.value) :
    number.value = number.significand * 2 ^ number.exponent := by
  have hsign := mt number.value_lt_zero_iff.2 (not_lt.2 hvalue)
  cases hnegative : number.negative with
  | false => simp [Binary.value, hnegative]
  | true =>
    have hzero : number.significand = 0 := by simpa [hnegative] using hsign
    simp [Binary.value, hzero]

theorem value_of_nonneg (hvalue : 0 ≤ number.value) (hexponent : 0 ≤ number.exponent) :
    number.value = number.whole := by
  rw [value_eq_magnitude hvalue, Binary.whole, if_pos hexponent]
  lift number.exponent to Nat using hexponent with exponent
  simp

theorem value_of_neg (hvalue : 0 ≤ number.value) (hexponent : ¬0 ≤ number.exponent) :
    number.value = number.significand / (Nat.pow 2 (-number.exponent).toNat : Nat) := by
  have hpower : (2 : ℚ) ^ number.exponent = (2 ^ (-number.exponent).toNat)⁻¹ := by
    rw [← zpow_natCast, ← zpow_neg]
    congr 1
    omega
  rw [value_eq_magnitude hvalue, hpower, ← div_eq_mul_inv, Nat.pow_eq, Nat.cast_pow,
    Nat.cast_ofNat]

theorem whole_lt_iff (hvalue : 0 ≤ number.value) (bound : Nat) :
    number.whole < bound ↔ number.value < bound := by
  by_cases hexponent : 0 ≤ number.exponent
  · rw [value_of_nonneg hvalue hexponent, Nat.cast_lt]
  · have hpos : 0 < Nat.pow 2 (-number.exponent).toNat := Nat.pow_pos (by decide)
    rw [value_of_neg hvalue hexponent, Binary.whole, if_neg hexponent, Nat.div_lt_iff_lt_mul hpos,
      div_lt_iff₀ (by exact_mod_cast hpos)]
    exact_mod_cast Iff.rfl

/-- The nanoseconds that are computed are the nearest ones. -/
theorem nearest_nanoseconds (hvalue : 0 ≤ number.value) :
    Nearest (number.value * 10 ^ 9)
      (if 0 ≤ number.exponent then number.whole * Nat.pow 10 9
      else roundDiv (number.significand * Nat.pow 10 9) (Nat.pow 2 (-number.exponent).toNat)) := by
  split
  · next hexponent =>
    refine .inl ?_
    have hexact : (number.whole * Nat.pow 10 9 : Nat) = number.value * 10 ^ 9 := by
      rw [value_of_nonneg hvalue hexponent]
      push_cast
      norm_num
    rw [hexact, sub_self, abs_zero]
    norm_num
  · next hexponent =>
    rw [value_of_neg hvalue hexponent, div_mul_eq_mul_div]
    exact_mod_cast nearest_roundDiv _ (Nat.pow_pos (by decide))

end Values

/-- Seconds make a duration exactly if they are in range, and it is the nearest one. -/
theorem ofSeconds?_eq_some_iff {seconds : Float} {duration : Duration} :
    ofSeconds? seconds = some duration ↔ ∃ number, binary? seconds = some number ∧
      0 ≤ number.value ∧ number.value < 2 ^ 64 ∧ duration.Rounds number.value := by
  unfold ofSeconds?
  cases hnumber : binary? seconds with
  | none => simp
  | some number =>
    dsimp only
    simp only [Option.some.injEq, exists_eq_left']
    split
    · next hnegative =>
      have hvalue : number.value < 0 := number.value_lt_zero_iff.2 (by simpa using hnegative)
      simp [hvalue]
    next hnegative =>
    have hvalue : 0 ≤ number.value := not_lt.1 fun hlt =>
      hnegative (by simpa using number.value_lt_zero_iff.1 hlt)
    have hbound := whole_lt_iff hvalue (Nat.pow 2 64)
    split
    · next hlarge =>
      have hnot : ¬number.value < 2 ^ 64 := fun hlt =>
        hlarge.not_gt (hbound.2 (by exact_mod_cast hlt))
      simp [hnot]
    · next hsmall =>
      have hlt : number.value < 2 ^ 64 := by exact_mod_cast hbound.1 (Nat.lt_of_not_le hsmall)
      rw [rounds_iff (nearest_nanoseconds hvalue), Option.some.injEq, eq_comm]
      exact ⟨fun hduration => ⟨hvalue, hlt, hduration⟩, fun h => h.2.2⟩

end MetricScript.Duration
