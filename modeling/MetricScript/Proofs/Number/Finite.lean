import Mathlib
import MetricScript.Json.Read

/-!
# Finite numbers

The numbers that are not finite are those whose exponent has no zero bit, and those are the ones
that are no binary fractions.  Whether the result of an operation is finite is told by bounds
for exponents: rounding moves the leading digit of a number by one place at most, so a quotient
by two or more cannot overflow.  It follows that every number that a JSON text stands for is
finite: what is read is a number of 64 bits, scaled by powers of ten, and a product that
overflows is refused.
-/

namespace MetricScript.Number

open Float.Model

/-! ## The exponent of a number -/

def exponentBits (x : Float) : BitVec 11 :=
  @UnpackedFloat.unpackExponent Format.binary64 x.toModel.toBits.toBitVec

theorem toNat_exponentBits (x : Float) :
    (exponentBits x).toNat = x.toBits.toNat / Nat.pow 2 52 % Nat.pow 2 11 := by
  unfold exponentBits UnpackedFloat.unpackExponent
  rw [BitVec.toNat_cast, BitVec.extractLsb_toNat, Nat.shiftRight_eq_div_pow]
  rfl

theorem exponentBits_eq_ones_iff (x : Float) :
    exponentBits x = -1#11 ↔ (exponentBits x).toNat = 2047 := by
  rw [← BitVec.toNat_inj]
  rfl

theorem bias_binary64 : ((Format.binary64.exponentBias : Nat) : Int) +
    (Format.binary64.mantissaBitsWithoutImplicit : Nat) = 1075 := by decide

/-- A zero, or a number with an exponent of at most `top`. -/
def Tops (top : Int) : UnpackedFloat → Prop
  | .zero _ => True
  | .finite _ _ exponent _ => exponent ≤ top
  | .infinity _ | .notANumber => False

/-- A zero, or a number with 53 bits and an exponent of at most `top`. -/
def Within (top : Int) : UnpackedFloat → Prop
  | .zero _ => True
  | .finite _ mantissa exponent _ => mantissa < 2 ^ 53 ∧ exponent ≤ top
  | .infinity _ | .notANumber => False

/-- The parts of a number that is finite. -/
theorem within_unpack {x : Float} (hx : exponentBits x ≠ -1#11) :
    Within (max ((exponentBits x).toNat : Int) 1 - 1075) x.toModel.unpack := by
  unfold Float.Model.unpack UnpackedFloat.unpack
  change Within _ (if exponentBits x = -1#11 then _ else if exponentBits x = 0#11 then _ else _)
  have hbias := bias_binary64
  rw [if_neg hx]
  split
  · next hzero =>
    split
    · exact trivial
    · refine ⟨lt_trans (BitVec.isLt _) (by decide), ?_⟩
      have hnat : (exponentBits x).toNat = 0 := by rw [hzero]; rfl
      change ((exponentBits x).toNat : Int) - (_ + _) + 1 ≤ _
      omega
  · refine ⟨BitVec.isLt _, ?_⟩
    change ((exponentBits x).toNat : Int) - (_ + _) ≤ _
    omega

/-- A number is finite exactly if its exponent field is not all ones. -/
theorem isFinite_iff (x : Float) : x.isFinite = true ↔ (exponentBits x).toNat < 2047 := by
  have hbound : (exponentBits x).toNat < 2048 := BitVec.isLt _
  by_cases hx : exponentBits x = -1#11
  · have hfinite : x.isFinite = false := by
      unfold Float.isFinite Float.Model.isFinite Float.Model.unpack UnpackedFloat.unpack
      change (if exponentBits x = -1#11 then _ else _ : UnpackedFloat).isFinite = false
      rw [if_pos hx]
      split <;> rfl
    rw [hfinite, (exponentBits_eq_ones_iff x).1 hx]
    decide
  · have hwithin := within_unpack hx
    have hfinite : x.isFinite = true := by
      change x.toModel.unpack.isFinite = true
      cases hunpack : x.toModel.unpack with
      | zero | finite => rfl
      | infinity | notANumber => rw [hunpack] at hwithin; exact hwithin.elim
    have hne := mt (exponentBits_eq_ones_iff x).2 hx
    exact ⟨fun _ => by omega, fun _ => hfinite⟩

theorem biased_exponent (exponent : Int) :
    exponent + ((Format.binary64.exponentBias : Nat) : Int) + (52 : Nat) = exponent + 1075 := by
  have hvalue : Format.binary64.exponentBias = 1023 := by decide
  omega

/-- The numbers that are no binary fractions are those that are not finite. -/
theorem binary?_eq_none_iff (x : Float) : binary? x = none ↔ x.isFinite = false := by
  have hbound : (exponentBits x).toNat < 2048 := BitVec.isLt _
  rw [← Bool.not_eq_true, isFinite_iff]
  unfold binary?
  dsimp only
  rw [← toNat_exponentBits]
  have hones : Nat.pow 2 11 - 1 = 2047 := by decide
  split
  · next hfield => simp [hfield]
  · next hfield => split <;> simp <;> omega

/-- Packing leaves the exponent of a number that is not too large. -/
theorem exponentBits_pack {top : Int} (hleast : -1074 ≤ top) (hgreatest : top ≤ 971)
    {parts : UnpackedFloat} (hparts : Tops top parts) :
    (exponentBits (.ofModel (Float.Model.pack parts))).toNat ≤ (top + 1075).toNat := by
  change (@UnpackedFloat.unpackExponent Format.binary64
    (UnpackedFloat.pack Format.binary64 parts)).toNat ≤ _
  cases parts with
  | zero sign =>
    rw [UnpackedFloat.pack, UnpackedFloat.packedZero, UnpackedFloat.unpackExponent_packComponents]
    exact Nat.zero_le _
  | infinity | notANumber => exact hparts.elim
  | finite sign mantissa exponent hpos =>
    have hexponent : exponent ≤ top := hparts
    rw [UnpackedFloat.pack]
    simp only [biased_exponent]
    have hrange : ¬2 ^ 11 ≤ (exponent + 1075).toNat + 1 := by omega
    rw [if_neg hrange]
    split
    · rw [UnpackedFloat.unpackExponent_packComponents, BitVec.toNat_ofNat]
      exact le_trans (Nat.mod_le _ _) (by omega)
    · rw [UnpackedFloat.unpackExponent_packComponents]
      exact Nat.zero_le _

theorem isFinite_pack {top : Int} (hleast : -1074 ≤ top) (hgreatest : top ≤ 971)
    {parts : UnpackedFloat} (hparts : Tops top parts) :
    (Float.ofModel (Float.Model.pack parts)).isFinite = true := by
  have hbits := exponentBits_pack hleast hgreatest hparts
  exact (isFinite_iff _).2 (by omega)

/-! ## Rounding -/

section Rounding

open UnpackedFloat

theorem mantissa_shiftRight (extended : ExtendedMantissa) (count : Nat) :
    (extended >>> count).mantissa = extended.mantissa / 2 ^ count := by
  change (count.repeat ExtendedMantissa.shiftRightOne extended).mantissa = _
  induction count with
  | zero => exact (Nat.div_one _).symm
  | succ count ih =>
    change (count.repeat ExtendedMantissa.shiftRightOne extended).mantissa / 2 = _
    rw [ih, Nat.div_div_eq_div_mul, Nat.pow_succ]

theorem le_roundedMantissa (extended : ExtendedMantissa) :
    extended.mantissa ≤ extended.roundedMantissa := by
  obtain ⟨mantissa, round, sticky⟩ := extended
  unfold ExtendedMantissa.roundedMantissa
  cases round <;> cases sticky <;>
    simp only [ExtendedMantissa.accuracy, Accuracy.roundToNearestEven] <;> omega

theorem roundedMantissa_le (extended : ExtendedMantissa) :
    extended.roundedMantissa ≤ extended.mantissa + 1 := by
  obtain ⟨mantissa, round, sticky⟩ := extended
  unfold ExtendedMantissa.roundedMantissa
  cases round <;> cases sticky <;>
    simp only [ExtendedMantissa.accuracy, Accuracy.roundToNearestEven] <;> omega

theorem log2_div_two_pow (m count : Nat) : (m / 2 ^ count).log2 = m.log2 - count := by
  rw [Nat.log2_eq_log_two, Nat.log2_eq_log_two, Nat.log_div_base_pow]

theorem log2_le_of_le_succ {m n : Nat} (hle : m ≤ n + 1) : m.log2 ≤ n.log2 + 1 := by
  rcases Nat.eq_zero_or_pos m with rfl | hm
  · simp
  · apply Nat.lt_succ_iff.1
    apply (Nat.log2_lt (by omega)).2
    have hn : n < 2 ^ (n.log2 + 1) := Nat.lt_log2_self
    rw [Nat.pow_succ]
    omega

theorem targetExponent_binary64 (total : Int) :
    Format.binary64.targetExponent total = max (total - 53) (-1074) := rfl

/-- The places by which a mantissa is shifted before it is rounded. -/
def shiftCount (mantissa : Nat) (exponent : Int) : Nat :=
  (max ((mantissa.log2 : Int) + 1 + exponent - 53) (-1074) - exponent).toNat

/-- A number is rounded by shifting its mantissa twice; in between it may be raised by one. -/
theorem roundWithAccuracy_cases (sign : Sign) (mantissa : Nat) (exponent : Int)
    (accuracy : Accuracy) :
    ∃ rounded, mantissa / 2 ^ shiftCount mantissa exponent ≤ rounded ∧
      rounded ≤ mantissa / 2 ^ shiftCount mantissa exponent + 1 ∧
      let middle := exponent + shiftCount mantissa exponent
      let final := rounded / 2 ^ shiftCount rounded middle
      (final = 0 ∧ roundWithAccuracy .binary64 sign mantissa exponent accuracy = .zero sign) ∨
        ∃ hpos, roundWithAccuracy .binary64 sign mantissa exponent accuracy =
          .finite sign final (middle + shiftCount rounded middle) hpos := by
  have hmantissa : (ExtendedMantissa.ofMantissaAndAccuracy mantissa accuracy >>>
      shiftCount mantissa exponent).mantissa = mantissa / 2 ^ shiftCount mantissa exponent := by
    rw [mantissa_shiftRight]
    cases accuracy with
    | exact => rfl
    | inexact order => cases order <;> rfl
  refine ⟨(ExtendedMantissa.ofMantissaAndAccuracy mantissa accuracy >>>
    shiftCount mantissa exponent).roundedMantissa, hmantissa ▸ le_roundedMantissa _,
    hmantissa ▸ roundedMantissa_le _, ?_⟩
  generalize hrounded : (ExtendedMantissa.ofMantissaAndAccuracy mantissa accuracy >>>
    shiftCount mantissa exponent).roundedMantissa = rounded
  have hresult : roundWithAccuracy .binary64 sign mantissa exponent accuracy =
      if hzero : (ExtendedMantissa.ofMantissaAndAccuracy rounded .exact >>>
          shiftCount rounded (exponent + shiftCount mantissa exponent)).mantissa = 0 then
        .zero sign
      else .finite sign _ (exponent + shiftCount mantissa exponent +
        shiftCount rounded (exponent + shiftCount mantissa exponent))
          (Nat.pos_of_ne_zero hzero) := by
    rw [← hrounded]
    rfl
  have hfinal := mantissa_shiftRight (ExtendedMantissa.ofMantissaAndAccuracy rounded .exact)
    (shiftCount rounded (exponent + shiftCount mantissa exponent))
  split at hresult
  · next hzero => exact .inl ⟨hfinal.symm.trans hzero, hresult⟩
  · next hzero =>
    refine .inr ⟨Nat.pos_of_ne_zero fun hnone => hzero (hfinal.trans hnone), hresult.trans ?_⟩
    rw [UnpackedFloat.finite.injEq]
    exact ⟨rfl, hfinal, rfl⟩

/-- The exponent of a rounded number, as far as there is room for its bits. -/
theorem tops_roundWithAccuracy {top exponent : Int} {mantissa : Nat} (hleast : -1074 ≤ top)
    (hexponent : exponent ≤ top) (htotal : totalExponent mantissa exponent ≤ top + 52)
    (sign : Sign) (accuracy : Accuracy) :
    Tops top (roundWithAccuracy .binary64 sign mantissa exponent accuracy) := by
  obtain ⟨rounded, _, hrounded, hround⟩ :=
    roundWithAccuracy_cases sign mantissa exponent accuracy
  rcases hround with ⟨_, hround⟩ | ⟨_, hround⟩
  · rw [hround]
    exact trivial
  · have hlog := log2_le_of_le_succ hrounded
    rw [log2_div_two_pow] at hlog
    rw [hround]
    unfold totalExponent at htotal
    unfold Tops
    unfold shiftCount at *
    omega

/-- A number with 53 bits whose leading digit is at `total` or one further. -/
def Normal (total : Int) : UnpackedFloat → Prop
  | .finite _ mantissa exponent _ =>
      mantissa.log2 = 52 ∧ total - 53 ≤ exponent ∧ exponent ≤ total - 52
  | .zero _ | .infinity _ | .notANumber => False

/-- A number of 53 bits or more that is not too small is rounded to 53 bits. -/
theorem normal_roundWithAccuracy {mantissa : Nat} {exponent : Int} (hroom : 52 ≤ mantissa.log2)
    (hleast : -1021 ≤ totalExponent mantissa exponent) (sign : Sign) (accuracy : Accuracy) :
    Normal (totalExponent mantissa exponent)
      (roundWithAccuracy .binary64 sign mantissa exponent accuracy) := by
  obtain ⟨rounded, hfloor, hrounded, hround⟩ :=
    roundWithAccuracy_cases sign mantissa exponent accuracy
  have hcount : (shiftCount mantissa exponent : Int) = mantissa.log2 - 52 := by
    unfold totalExponent at hleast
    unfold shiftCount
    omega
  have hfirst : (mantissa / 2 ^ shiftCount mantissa exponent).log2 = 52 := by
    rw [log2_div_two_pow]
    omega
  have hne : mantissa / 2 ^ shiftCount mantissa exponent ≠ 0 := by
    intro hzero
    rw [hzero] at hfirst
    exact absurd hfirst (by decide)
  have hrange := (Nat.log2_eq_iff hne).1 hfirst
  -- Raised by one, the mantissa may have one bit too many, and then the others are zeros.
  have hsecond : rounded.log2 = 52 ∨ rounded = 2 ^ 53 := by
    by_cases hlast : rounded = 2 ^ 53
    · exact .inr hlast
    · exact .inl ((Nat.log2_eq_iff (by omega)).2 (by omega))
  have hmiddle : exponent + shiftCount mantissa exponent = totalExponent mantissa exponent - 53 := by
    unfold totalExponent
    omega
  rw [hmiddle] at hround
  have hfinal : (rounded / 2 ^ shiftCount rounded (totalExponent mantissa exponent - 53)).log2 =
      52 ∧ shiftCount rounded (totalExponent mantissa exponent - 53) ≤ 1 := by
    have hlog : rounded.log2 = 52 ∨ rounded.log2 = 53 := by
      rcases hsecond with hlog | rfl
      · exact .inl hlog
      · exact .inr Nat.log2_two_pow
    have hshift : (shiftCount rounded (totalExponent mantissa exponent - 53) : Int) =
        rounded.log2 - 52 := by
      unfold shiftCount
      omega
    rw [log2_div_two_pow]
    omega
  rcases hround with ⟨hzero, _⟩ | ⟨_, hround⟩
  · rw [hzero] at hfinal
    exact absurd hfinal.1 (by decide)
  · rw [hround]
    exact ⟨hfinal.1, by omega, by omega⟩

end Rounding

/-! ## Arithmetic -/

section Arithmetic

open UnpackedFloat

theorem log2_mul_two_pow_le (m count : Nat) : (m * 2 ^ count).log2 ≤ m.log2 + count := by
  rcases Nat.eq_zero_or_pos m with rfl | hm
  · simp
  · apply Nat.lt_succ_iff.1
    apply (Nat.log2_lt (by positivity)).2
    have hlt : m < 2 ^ (m.log2 + 1) := Nat.lt_log2_self
    calc m * 2 ^ count < 2 ^ (m.log2 + 1) * 2 ^ count := by gcongr
      _ = 2 ^ (m.log2 + count).succ := by rw [← Nat.pow_add]; congr 1; omega

theorem log2_div_le (m : Nat) {n : Nat} (hn : 0 < n) : (m / n).log2 ≤ m.log2 - n.log2 := by
  have hle : m / n ≤ m / 2 ^ n.log2 :=
    Nat.div_le_div_left (Nat.log2_self_le hn.ne') (by positivity)
  rw [Nat.log2_eq_log_two, Nat.log2_eq_log_two, ← Nat.log_div_base_pow]
  exact Nat.log_mono_right hle

theorem log2_mul_le (m n : Nat) : (m * n).log2 ≤ m.log2 + n.log2 + 1 := by
  have hn : n ≤ 2 ^ (n.log2 + 1) := Nat.lt_log2_self.le
  calc (m * n).log2 ≤ (m * 2 ^ (n.log2 + 1)).log2 := by
        rw [Nat.log2_eq_log_two, Nat.log2_eq_log_two]
        exact Nat.log_mono_right (by gcongr)
    _ ≤ m.log2 + n.log2 + 1 := log2_mul_two_pow_le m _

/-- Rounding keeps the exponent at most `top` if the leading digit is no further than 52 places
above. -/
theorem tops_round {top exponent : Int} {mantissa : Nat} (hleast : -1074 ≤ top)
    (hexponent : exponent ≤ top) (htotal : totalExponent mantissa exponent ≤ top + 52)
    (sign : Sign) : Tops top (UnpackedFloat.round .binary64 sign mantissa exponent) := by
  unfold UnpackedFloat.round decreaseExponent
  dsimp only
  generalize (exponent - Format.binary64.targetExponent (totalExponent mantissa exponent)).toNat =
    count
  apply tops_roundWithAccuracy hleast (by omega)
  have hlog := log2_mul_two_pow_le mantissa count
  unfold totalExponent at *
  rw [Nat.shiftLeft_eq]
  omega

/-- The numbers of 64 bits have small exponents. -/
theorem tops_ofNat {n : Nat} (hn : n < 2 ^ 64) : Tops 12 (UnpackedFloat.ofNat .binary64 n) := by
  have hlog : n.log2 < 64 := by
    rcases Nat.eq_zero_or_pos n with rfl | hpos
    · decide
    · exact (Nat.log2_lt (by omega)).2 hn
  unfold UnpackedFloat.ofNat UnpackedFloat.ofInt UnpackedFloat.normalize
  split
  · next hcompare => 
    have := compare_lt_iff_lt.1 hcompare
    omega
  · exact trivial
  · apply tops_round (by decide) (by decide)
    unfold totalExponent
    rw [Int.toNat_natCast]
    omega

/-- The exponent of a product is at most that of both factors and 54 more. -/
theorem tops_mul {left right : UnpackedFloat} {a b : Int} (hleft : Within a left)
    (hright : Within b right) (hleast : -1128 ≤ a + b) :
    Tops (a + b + 54) (UnpackedFloat.mul .binary64 left right) := by
  cases left with
  | infinity | notANumber => exact hleft.elim
  | zero sign =>
    cases right with
    | infinity | notANumber => exact hright.elim
    | zero | finite => exact trivial
  | finite sign mantissa exponent hpos =>
    cases right with
    | infinity | notANumber => exact hright.elim
    | zero => exact trivial
    | finite otherSign otherMantissa otherExponent hotherPos =>
      obtain ⟨hmantissa, hexponent⟩ := hleft
      obtain ⟨hother, hotherExponent⟩ := hright
      apply tops_roundWithAccuracy (by omega) (by omega)
      have hlog := log2_mul_le mantissa otherMantissa
      have hfirst := (Nat.log2_lt hpos.ne').2 hmantissa
      have hsecond := (Nat.log2_lt hotherPos.ne').2 hother
      unfold totalExponent
      omega

/-- An integer below `2 ^ 64` has an exponent of at most 12. -/
theorem tops_ofScientific {n : Nat} (hn : n < 2 ^ 64) :
    Tops 12 (UnpackedFloat.ofScientific .binary64 n 0) := by
  unfold UnpackedFloat.ofScientific
  split
  · exact trivial
  next hzero =>
  have hhuge : ¬(0 : Int) > 2 ^ Format.binary64.exponentBits := by decide
  have htiny : ¬(0 : Int) < -((2 ^ Format.binary64.exponentBits : Int) + n.log2) := by
    have hpow : (2 ^ Format.binary64.exponentBits : Int) = 2048 := by decide
    omega
  rw [if_neg hhuge, if_neg htiny, if_pos (le_refl 0), UnpackedFloat.mul]
  have hlog := log2_mul_two_pow_le n 53
  have hlt := (Nat.log2_lt hzero).2 hn
  refine tops_roundWithAccuracy (by decide) (by decide) ?_ _ _
  have hten : (10 : Nat) ^ (0 : Int).toNat = 1 := rfl
  rw [hten, Nat.mul_one, Nat.shiftLeft_eq]
  have hbits : Format.binary64.mantissaBits = 53 := rfl
  rw [hbits]
  unfold totalExponent
  omega

/-- A finite number as its parts are. -/
theorem within_of_exponentBits_le {x : Float} {top : Int} (hleast : -1074 ≤ top)
    (hgreatest : top ≤ 971) (hbits : (exponentBits x).toNat ≤ (top + 1075).toNat) :
    Within top x.toModel.unpack := by
  have hones : exponentBits x ≠ -1#11 := by
    intro hones
    have := (exponentBits_eq_ones_iff x).1 hones
    omega
  have hwithin := within_unpack hones
  cases hunpack : x.toModel.unpack with
  | zero => exact trivial
  | infinity | notANumber => rw [hunpack] at hwithin; exact hwithin.elim
  | finite sign mantissa exponent hpos =>
    rw [hunpack] at hwithin
    refine ⟨hwithin.1, ?_⟩
    have := hwithin.2
    omega

/-- An integer below `2 ^ 64` is a finite double. -/
theorem isFinite_ofNat {n : Nat} (hn : n < 2 ^ 64) : (Float.ofNat n).isFinite = true := by
  change (Float.ofScientific n false 0).isFinite = true
  unfold Float.ofScientific
  split
  · change (Float.ofModel (Float.Model.pack (UnpackedFloat.mul .binary64
      n.toUInt64.toFloat.toModel.unpack
      Float.exactlyRepresentablePowersOfTen[0].toModel.unpack))).isFinite = true
    have hleft : Within 12 n.toUInt64.toFloat.toModel.unpack :=
      within_of_exponentBits_le (by decide) (by decide)
        (exponentBits_pack (by decide) (by decide) (tops_ofNat n.toUInt64.toNat_lt))
    have hright : Within (-52)
        Float.exactlyRepresentablePowersOfTen[0].toModel.unpack := by
      apply within_of_exponentBits_le (by decide) (by decide)
      decide +kernel
    exact isFinite_pack (by decide) (by decide) (tops_mul hleft hright (by decide))
  · exact isFinite_pack (by decide) (by decide) (tops_ofScientific hn)

theorem isFinite_neg {x : Float} (hx : x.isFinite = true) : (-x).isFinite = true := by
  have hbits := (isFinite_iff x).1 hx
  have hwithin : Within 971 x.toModel.unpack :=
    within_of_exponentBits_le (by decide) (by decide) (by omega)
  have htops : Tops 971 x.toModel.unpack.neg := by
    cases hunpack : x.toModel.unpack with
    | zero => exact trivial
    | infinity | notANumber => rw [hunpack] at hwithin; exact hwithin.elim
    | finite sign mantissa exponent hpos => rw [hunpack] at hwithin; exact hwithin.2
  exact isFinite_pack (by decide) (by decide) htops

/-- Packing overflows to an infinite number at most. -/
theorem isFinite_pack_of_not_isInf {top : Int} {parts : UnpackedFloat} (hparts : Tops top parts)
    (hinf : (Float.ofModel (Float.Model.pack parts)).isInf = false) :
    (Float.ofModel (Float.Model.pack parts)).isFinite = true := by
  cases parts with
  | infinity | notANumber => exact hparts.elim
  | zero sign => exact @isFinite_pack 971 (by decide) (by decide) _ trivial
  | finite sign mantissa exponent hpos =>
    by_cases hexponent : exponent ≤ 971
    · exact @isFinite_pack 971 (by decide) (by decide) _ hexponent
    · have hpacked : UnpackedFloat.pack .binary64 (.finite sign mantissa exponent hpos) =
          packedInfinity .binary64 sign := by
        rw [UnpackedFloat.pack]
        simp only [biased_exponent]
        exact if_pos (by omega)
      have hinfinite : (UnpackedFloat.unpack .binary64 (packedInfinity .binary64 sign)).isInf =
          true := by
        cases sign <;> decide +kernel
      change (UnpackedFloat.unpack .binary64
        (UnpackedFloat.pack .binary64 (.finite sign mantissa exponent hpos))).isInf = false at hinf
      rw [hpacked, hinfinite] at hinf
      exact nomatch hinf

/-- A product of finite numbers is finite or infinite. -/
theorem isFinite_mul {x y : Float} (hx : x.isFinite = true) (hy : y.isFinite = true)
    (hinf : (x * y).isInf = false) : (x * y).isFinite = true := by
  have hfactor : ∀ {z : Float}, z.isFinite = true → Within 971 z.toModel.unpack := by
    intro z hz
    have hbits := (isFinite_iff z).1 hz
    exact within_of_exponentBits_le (by decide) (by decide) (by omega)
  exact isFinite_pack_of_not_isInf (tops_mul (hfactor hx) (hfactor hy) (by decide)) hinf

/-- A number other than zero with a leading digit at `total`. -/
def Leads (total : Int) : UnpackedFloat → Prop
  | .finite _ mantissa exponent _ => totalExponent mantissa exponent = total
  | .zero _ | .infinity _ | .notANumber => False

theorem toNat_one_append (fraction : BitVec 52) :
    (1#1 ++ fraction).toNat = 2 ^ 52 + fraction.toNat := by
  rw [BitVec.toNat_append, ← Nat.shiftLeft_add_eq_or_of_lt fraction.isLt]
  rfl

theorem log2_one_append (fraction : BitVec 52) : (1#1 ++ fraction).toNat.log2 = 52 := by
  have hfraction : fraction.toNat < 2 ^ 52 := fraction.isLt
  rw [toNat_one_append, Nat.log2_eq_iff (by omega)]
  omega

/-- The exponent of a normal number tells its leading digit. -/
theorem leads_unpack {x : Float} (hleast : 0 < (exponentBits x).toNat)
    (hgreatest : (exponentBits x).toNat < 2047) :
    Leads ((exponentBits x).toNat - 1022) x.toModel.unpack := by
  have hones : exponentBits x ≠ -1#11 := by
    intro hones
    have hbits := (exponentBits_eq_ones_iff x).1 hones
    omega
  have hzero : exponentBits x ≠ 0#11 := by
    intro hzero
    rw [hzero] at hleast
    exact absurd hleast (by decide)
  have hbias := bias_binary64
  unfold Float.Model.unpack UnpackedFloat.unpack
  change Leads _ (if exponentBits x = -1#11 then _ else if exponentBits x = 0#11 then _ else _)
  rw [if_neg hones, if_neg hzero]
  have hlog := log2_one_append (@unpackMantissa Format.binary64 x.toModel.toBits.toBitVec)
  change ((1#1 ++ @unpackMantissa Format.binary64 x.toModel.toBits.toBitVec).toNat.log2 : Int) +
    1 + (((exponentBits x).toNat : Int) - (_ + _)) = _
  rw [hlog]
  omega

/-- A finite number stays finite when it is divided by one whose leading digit is at 2 or above. -/
theorem tops_div {left right : UnpackedFloat} {total : Int} (hleft : Within 971 left)
    (hright : Leads total right) (htotal : 2 ≤ total) :
    Tops 971 (UnpackedFloat.div .binary64 left right) := by
  cases right with
  | zero | infinity | notANumber => exact hright.elim
  | finite sign mantissa exponent hpos =>
    cases left with
    | infinity | notANumber => exact hleft.elim
    | zero => exact trivial
    | finite otherSign dividend power hdividend =>
      obtain ⟨hdividendBits, hpower⟩ := hleft
      have hlog : dividend.log2 < 53 := (Nat.log2_lt hdividend.ne').2 hdividendBits
      unfold Leads totalExponent at hright
      rw [UnpackedFloat.div, divCore]
      simp only [targetExponent_binary64]
      unfold totalExponent
      generalize htop : min (power - exponent) (max (dividend.log2 + 1 + power -
        (mantissa.log2 + 1 + exponent) - 53) (-1074)) = top
      generalize hcount : (power - exponent - top).toNat = count
      apply tops_roundWithAccuracy (by decide) (by omega)
      have hquotient := log2_div_le (dividend * 2 ^ count) hpos
      have hshifted := log2_mul_two_pow_le dividend count
      rw [Nat.shiftLeft_eq]
      unfold totalExponent
      omega

theorem isFinite_div {x y : Float} (hx : x.isFinite = true) (hy : y.isFinite = true)
    (hleast : 1024 ≤ (exponentBits y).toNat) : (x / y).isFinite = true := by
  have hbits := (isFinite_iff x).1 hx
  have hwithin : Within 971 x.toModel.unpack :=
    within_of_exponentBits_le (by decide) (by decide) (by omega)
  have hleads := leads_unpack (by omega) ((isFinite_iff y).1 hy)
  suffices htops : Tops 971 (UnpackedFloat.div .binary64 x.toModel.unpack y.toModel.unpack) from
    isFinite_pack (by decide) (by decide) htops
  generalize y.toModel.unpack = divisor at hleads
  generalize x.toModel.unpack = dividend at hwithin
  exact tops_div hwithin hleads (by omega)

/-- Packing a normal number keeps its exponent. -/
theorem exponentBits_pack_of_normal {total : Int} (hleast : -1021 ≤ total) (hgreatest : total < 1023)
    {parts : UnpackedFloat} (hparts : Normal total parts) :
    (total + 1022).toNat ≤ (exponentBits (.ofModel (Float.Model.pack parts))).toNat ∧
      (exponentBits (.ofModel (Float.Model.pack parts))).toNat ≤ (total + 1023).toNat := by
  change _ ≤ (@unpackExponent Format.binary64 (UnpackedFloat.pack .binary64 parts)).toNat ∧
    (@unpackExponent Format.binary64 (UnpackedFloat.pack .binary64 parts)).toNat ≤ _
  cases parts with
  | zero | infinity | notANumber => exact hparts.elim
  | finite sign mantissa exponent hpos =>
    obtain ⟨hlog, hlow, hhigh⟩ := hparts
    have hbits : mantissa.log2 + 1 = Format.binary64.mantissaBits := by
      rw [hlog]
      rfl
    rw [UnpackedFloat.pack]
    simp only [biased_exponent]
    rw [if_neg (by omega), if_pos hbits, unpackExponent_packComponents, BitVec.toNat_ofNat,
      Nat.mod_eq_of_lt (by omega)]
    omega

open Json (powerOfTen)

/-- A power of ten is made from a whole number, with room to spare below the greatest exponent. -/
theorem normal_ofScientific_one {exponent : Nat} (hleast : 0 < exponent) (hmost : exponent < 308) :
    Normal ((10 ^ exponent).log2 + 1) (UnpackedFloat.ofScientific .binary64 1 exponent) ∧
      3 ≤ (10 ^ exponent).log2 ∧ (10 ^ exponent).log2 < 1020 := by
  have hpositive : 0 < 10 ^ exponent := by positivity
  have hlow : 3 ≤ (10 ^ exponent).log2 := by
    rw [Nat.le_log2 hpositive.ne']
    calc 2 ^ 3 ≤ 10 ^ 1 := by decide
      _ ≤ 10 ^ exponent := Nat.pow_le_pow_right (by decide) (by omega)
  have hhigh : (10 ^ exponent).log2 < 1020 := by
    rw [Nat.log2_lt hpositive.ne']
    calc 10 ^ exponent ≤ 10 ^ 307 := Nat.pow_le_pow_right (by decide) (by omega)
      _ < 2 ^ 1020 := by decide +kernel
  have hshift : (1 <<< 53 * 10 ^ exponent).log2 = (10 ^ exponent).log2 + 53 := by
    have hback := log2_div_two_pow (10 ^ exponent * 2 ^ 53) 53
    rw [Nat.mul_div_cancel _ (by decide)] at hback
    rw [Nat.shiftLeft_eq, Nat.one_mul, Nat.mul_comm]
    omega
  have htotal : totalExponent (1 <<< 53 * 10 ^ exponent) (-(53 : Nat) + 0) =
      (10 ^ exponent).log2 + 1 := by
    unfold totalExponent
    omega
  have hnormal := @normal_roundWithAccuracy (1 <<< 53 * 10 ^ exponent) (-(53 : Nat) + 0)
    (by omega) (by omega) (.positive * .positive) .exact
  rw [htotal] at hnormal
  have hrange : (2 ^ Format.binary64.exponentBits : Int) = 2048 := by decide
  have hbits : Format.binary64.mantissaBits = 53 := rfl
  refine ⟨?_, hlow, hhigh⟩
  unfold UnpackedFloat.ofScientific
  rwa [dif_neg (by decide), if_neg (by omega), if_neg (by omega), if_pos (by omega),
    UnpackedFloat.mul, Int.toNat_natCast, hbits]

/-- The exponent of a power of ten that a numeral is scaled by. -/
theorem exponentBits_powerOfTen {exponent : Nat} (hexponent : exponent ≤ 308) :
    (0 < exponent → 1024 ≤ (exponentBits (powerOfTen exponent)).toNat) ∧
      (exponentBits (powerOfTen exponent)).toNat < 2047 := by
  by_cases hsmall : exponent ≤ 22
  · have hall : ∀ exponent < 23, (0 < exponent → 1024 ≤ (exponentBits (powerOfTen exponent)).toNat) ∧
        (exponentBits (powerOfTen exponent)).toNat < 2047 := by decide +kernel
    exact hall exponent (by omega)
  by_cases hlast : exponent = 308
  · rw [hlast]
    decide +kernel
  obtain ⟨hnormal, hlow, hhigh⟩ :=
    @normal_ofScientific_one exponent (by omega) (by omega)
  have hvalue : powerOfTen exponent =
      .ofModel (Float.Model.pack (UnpackedFloat.ofScientific .binary64 1 exponent)) := by
    unfold powerOfTen Float.ofScientific
    rw [dif_neg (by omega)]
    rfl
  rw [hvalue]
  obtain ⟨hleast, hgreatest⟩ := exponentBits_pack_of_normal (by omega) (by omega) hnormal
  exact ⟨fun _ => by omega, by omega⟩

end Arithmetic

end MetricScript.Number

/-! ## Numerals -/

namespace MetricScript.Json

open MetricScript.Number

/-- What is scaled by powers of ten stays finite or is refused. -/
theorem isFinite_scale? {value scaled : Float} (hvalue : value.isFinite = true) {exponent : Int}
    {steps : Nat} (hscale : scale? value exponent steps = some scaled) :
    scaled.isFinite = true := by
  induction steps generalizing value exponent with
  | zero =>
    obtain rfl := Option.some.inj hscale
    exact hvalue
  | succ steps ih =>
    unfold scale? at hscale
    split at hscale
    · next hsmall =>
      have hpower := exponentBits_powerOfTen hsmall
      split at hscale
      · dsimp only at hscale
        split at hscale
        · exact nomatch hscale
        · next hinf =>
          obtain rfl := Option.some.inj hscale
          exact isFinite_mul hvalue ((isFinite_iff _).2 hpower.2) (by simpa using hinf)
      · next hneg =>
        obtain rfl := Option.some.inj hscale
        exact isFinite_div hvalue ((isFinite_iff _).2 hpower.2) (hpower.1 (by omega))
    split at hscale
    · obtain rfl := Option.some.inj hscale
      exact hvalue
    split at hscale
    · exact nomatch hscale
    · have hpower := @exponentBits_powerOfTen 308 (by decide)
      exact ih (isFinite_div hvalue ((isFinite_iff _).2 hpower.2) (hpower.1 (by decide))) hscale

theorem takeDigits_le {significand : Nat} (hsignificand : significand ≤ maxInteger)
    (digits : List Char) : (takeDigits significand digits).1 ≤ maxInteger := by
  induction digits generalizing significand with
  | nil => exact hsignificand
  | cons digit rest ih =>
    unfold takeDigits
    dsimp only
    split
    · next hnext => exact ih hnext
    · exact hsignificand

/-- The number of a numeral is finite. -/
theorem isFinite_number? {numeral : Numeral} {value : Float}
    (hvalue : numeral.number? = some value) : value.isFinite = true := by
  unfold Numeral.number? at hvalue
  obtain ⟨scaled, hscaled, rfl⟩ := Option.map_eq_some_iff.1 hvalue
  have hleading := takeDigits_le (Nat.zero_le maxInteger) numeral.whole
  have hsignificand := takeDigits_le hleading numeral.fraction
  have hscaled := isFinite_scale? (isFinite_ofNat (Nat.lt_of_le_of_lt hsignificand (by decide)))
    hscaled
  split
  · exact isFinite_neg hscaled
  · exact hscaled

end MetricScript.Json
