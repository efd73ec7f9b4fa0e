import Mathlib
import MetricScript.Number.Binary
import MetricScript.Number.Decimal
import MetricScript.Proofs.Number.Finite

/-!
# Values and signs of numbers

The value of a binary fraction is a rational number.  Its sign is the sign bit of the number, so
a number that compares below zero has a value below zero.  Sums of numbers without a sign bit,
their products with finite numbers, and the numbers nearest to a decimal have no sign bit
either: what is added up from decimals is at least zero, wherever it is finite.
-/

namespace MetricScript.Number

open Float.Model
open UnpackedFloat (packComponents packedInfinity packedZero unpackSign unpackExponent
  unpackMantissa roundWithAccuracy)

/-! ## Values -/

/-- The rational number that a binary fraction stands for. -/
def Binary.value (number : Binary) : ℚ :=
  (if number.negative then -1 else 1) * (number.significand * 2 ^ number.exponent)

/-- A number is below zero exactly if it is negative and not a zero. -/
theorem Binary.value_lt_zero_iff (number : Binary) :
    number.value < 0 ↔ number.negative = true ∧ number.significand ≠ 0 := by
  have hpow : (0 : ℚ) < 2 ^ number.exponent := by positivity
  have hmagnitude : (0 : ℚ) ≤ number.significand * 2 ^ number.exponent := by positivity
  cases hnegative : number.negative with
  | false => simp [Binary.value, hnegative, hmagnitude]
  | true =>
    simp only [Binary.value, hnegative, if_true, neg_one_mul, neg_lt_zero,
      mul_pos_iff_of_pos_right hpow, Nat.cast_pos, Nat.pos_iff_ne_zero, true_and]

def signOf (x : Float) : UnpackedFloat.Sign :=
  .ofBitVec (@unpackSign Format.binary64 x.toModel.toBits.toBitVec)

/-- The sign bit is the sign of the unpacked number. -/
theorem isNegative_eq (x : Float) : isNegative x = (signOf x == .negative) := by
  have hbit : (@unpackSign Format.binary64 x.toModel.toBits.toBitVec).toNat =
      x.toBits.toNat / Nat.pow 2 63 := by
    unfold unpackSign
    rw [BitVec.toNat_cast, BitVec.extractLsb_toNat, Nat.shiftRight_eq_div_pow]
    have hbound : x.toBits.toNat < 2 ^ 64 := x.toBits.toNat_lt
    change x.toBits.toNat / 2 ^ 63 % 2 ^ 1 = x.toBits.toNat / 2 ^ 63
    omega
  unfold isNegative signOf
  rw [← hbit]
  generalize @unpackSign Format.binary64 x.toModel.toBits.toBitVec = bit
  revert bit
  decide

/-- The parts of a number are the parts of its binary fraction. -/
def Binary.Unpacks (number : Binary) : UnpackedFloat → Prop
  | .zero _ => number.significand = 0
  | .finite sign mantissa exponent _ => number.negative = (sign == .negative) ∧
      number.significand = mantissa ∧ number.exponent = exponent
  | .infinity _ | .notANumber => False

/-- The parts of a finite number are those it unpacks to. -/
theorem unpacks_of_binary? {x : Float} {number : Binary} (hnumber : binary? x = some number) :
    number.Unpacks x.toModel.unpack := by
  have hbits : x.toBits.toNat % Nat.pow 2 52 =
      (@unpackMantissa Format.binary64 x.toModel.toBits.toBitVec).toNat := by
    unfold unpackMantissa
    rw [BitVec.toNat_cast, BitVec.extractLsb_toNat]
    rfl
  have hbias := bias_binary64
  have hones : exponentBits x = -1#11 ↔ (exponentBits x).toNat = Nat.pow 2 11 - 1 :=
    exponentBits_eq_ones_iff x
  have hzero : exponentBits x = 0#11 ↔ (exponentBits x).toNat = 0 := by
    rw [← BitVec.toNat_inj]
    rfl
  unfold binary? at hnumber
  dsimp only at hnumber
  rw [← toNat_exponentBits, hbits, isNegative_eq] at hnumber
  unfold Float.Model.unpack UnpackedFloat.unpack
  change number.Unpacks (if exponentBits x = -1#11 then _ else if exponentBits x = 0#11 then _
    else _)
  split at hnumber
  · exact nomatch hnumber
  next hfield =>
  rw [if_neg (mt hones.1 hfield)]
  split at hnumber
  · next hsmall =>
    obtain rfl := Option.some.inj hnumber
    rw [if_pos (hzero.2 hsmall)]
    split
    · next hnone => exact congrArg BitVec.toNat hnone
    · refine ⟨rfl, rfl, ?_⟩
      change (-1074 : Int) = ((exponentBits x).toNat : Int) - (_ + _) + 1
      omega
  · next hlarge =>
    obtain rfl := Option.some.inj hnumber
    rw [if_neg (mt hzero.1 hlarge)]
    refine ⟨rfl, (Nat.add_comm _ _).trans (toNat_one_append _).symm, ?_⟩
    change ((exponentBits x).toNat : Int) - 1075 = ((exponentBits x).toNat : Int) - (_ + _)
    omega

theorem Binary.Unpacks.lt_zero_iff {number : Binary} {parts : UnpackedFloat}
    (hparts : number.Unpacks parts) : parts.lt (.zero .positive) = true ↔ number.value < 0 := by
  rw [number.value_lt_zero_iff]
  cases parts with
  | infinity | notANumber => exact hparts.elim
  | zero => exact iff_of_false nofun fun hlt => hlt.2 hparts
  | finite sign mantissa exponent hpos =>
    obtain ⟨hnegative, hsignificand, -⟩ := hparts
    cases sign with
    | positive => exact iff_of_false nofun fun hlt => nomatch hnegative.symm.trans hlt.1
    | negative => exact iff_of_true rfl ⟨hnegative, hsignificand ▸ hpos.ne'⟩

/-- A finite number compares below zero if its value is below zero. -/
theorem lt_zero_iff {x : Float} {number : Binary} (hnumber : binary? x = some number) :
    x < 0.0 ↔ number.value < 0 := by
  have hcompare : x < 0.0 ↔ x.toModel.unpack.lt (0.0 : Float).toModel.unpack = true :=
    decide_eq_true_iff
  have hzero : (0.0 : Float).toModel.unpack = .zero .positive := rfl
  rw [hcompare, hzero, (unpacks_of_binary? hnumber).lt_zero_iff]

/-! ## Numbers without a sign bit -/

/-- Not undefined, and without a sign bit. -/
def Unsigned : UnpackedFloat → Prop
  | .zero sign | .finite sign _ _ _ | .infinity sign => sign = .positive
  | .notANumber => False

/-- A number without a sign bit that is neither zero nor infinite. -/
def isProper : UnpackedFloat → Bool
  | .finite .positive _ _ _ => true
  | _ => false

/-- A number without a sign is not below zero. -/
theorem value_nonneg_of_unsigned {x : Float} {number : Binary} (hnumber : binary? x = some number)
    (hx : Unsigned x.toModel.unpack) : 0 ≤ number.value := by
  rw [← not_lt, ← (unpacks_of_binary? hnumber).lt_zero_iff]
  cases hparts : x.toModel.unpack with
  | notANumber => rw [hparts] at hx; exact hx.elim
  | zero sign | infinity sign | finite sign =>
    rw [hparts] at hx
    obtain rfl : sign = .positive := hx
    exact nofun

theorem unpackSign_packComponents {spec : Format} (sign : UnpackedFloat.Sign)
    (exponent : BitVec spec.exponentBits) (mantissa : BitVec spec.mantissaBitsWithoutImplicit) :
    unpackSign (packComponents spec sign exponent mantissa) = sign.toBitVec := by
  ext i hi
  obtain rfl : i = 0 := by omega
  simp [unpackSign, packComponents, BitVec.getLsbD_append, BitVec.getElem_append]

/-- Packing under a plus sign gives a number without a sign. -/
theorem unsigned_packComponents {exponent : BitVec 11} {mantissa : BitVec 52}
    (hvalid : exponent ≠ -1#11 ∨ mantissa = 0#52) :
    Unsigned (UnpackedFloat.unpack .binary64
      (packComponents .binary64 .positive exponent mantissa)) := by
  unfold UnpackedFloat.unpack
  simp only [unpackSign_packComponents, UnpackedFloat.unpackExponent_packComponents,
    UnpackedFloat.unpackMantissa_packComponents]
  split
  · next hones =>
    rw [if_pos (hvalid.resolve_left (not_not.2 hones))]
    rfl
  · split
    · split <;> rfl
    · rfl

/-- A number without a sign is still without one when it is packed and unpacked. -/
theorem unsigned_pack {parts : UnpackedFloat} (hparts : Unsigned parts) :
    Unsigned (Float.ofModel (Float.Model.pack parts)).toModel.unpack := by
  change Unsigned (UnpackedFloat.unpack .binary64 (UnpackedFloat.pack .binary64 parts))
  cases parts with
  | notANumber => exact hparts.elim
  | zero sign =>
    obtain rfl : sign = .positive := hparts
    exact unsigned_packComponents (.inr rfl)
  | infinity sign =>
    obtain rfl : sign = .positive := hparts
    exact unsigned_packComponents (.inr rfl)
  | finite sign mantissa exponent hpos =>
    obtain rfl : sign = .positive := hparts
    rw [UnpackedFloat.pack]
    simp only [biased_exponent]
    split
    · exact unsigned_packComponents (.inr rfl)
    next hrange =>
    split
    · refine unsigned_packComponents (.inl fun hones => ?_)
      have hnat : (exponent + 1075).toNat % 2 ^ 11 = 2047 := congrArg BitVec.toNat hones
      change ¬2 ^ 11 ≤ (exponent + 1075).toNat + 1 at hrange
      omega
    · exact unsigned_packComponents (.inl (by decide))

theorem unsigned_roundWithAccuracy (mantissa : Nat) (exponent : Int)
    (accuracy : UnpackedFloat.Accuracy) :
    Unsigned (roundWithAccuracy .binary64 .positive mantissa exponent accuracy) := by
  obtain ⟨_, _, _, ⟨_, hround⟩ | ⟨_, hround⟩⟩ :=
    roundWithAccuracy_cases .positive mantissa exponent accuracy <;>
  · rw [hround]
    rfl

theorem unsigned_normalize {mantissa : Int} (hmantissa : 0 ≤ mantissa) (exponent : Int) :
    Unsigned (UnpackedFloat.normalize .binary64 mantissa exponent .positive) := by
  unfold UnpackedFloat.normalize
  split
  · next hcompare => exact absurd (compare_lt_iff_lt.1 hcompare) (not_lt.2 hmantissa)
  · rfl
  · exact unsigned_roundWithAccuracy _ _ _

variable {left right : UnpackedFloat}

/-- Neither a product nor a quotient of such numbers gains a sign. -/
theorem unsigned_mul_div (hleft : Unsigned left) (hright : isProper right = true) :
    Unsigned (UnpackedFloat.mul .binary64 left right) ∧
      Unsigned (UnpackedFloat.div .binary64 left right) := by
  cases right with
  | zero | infinity | notANumber => exact nomatch hright
  | finite sign =>
    cases sign with
    | negative => exact nomatch hright
    | positive =>
      cases left with
      | notANumber => exact hleft.elim
      | zero sign | infinity sign =>
        obtain rfl : sign = .positive := hleft
        exact ⟨rfl, rfl⟩
      | finite sign =>
        obtain rfl : sign = .positive := hleft
        exact ⟨unsigned_roundWithAccuracy _ _ _, unsigned_roundWithAccuracy _ _ _⟩

/-- Nor does a sum. -/
theorem unsigned_add (hleft : Unsigned left) (hright : Unsigned right) :
    Unsigned (UnpackedFloat.add .binary64 left right) := by
  cases left with
  | notANumber => exact hleft.elim
  | zero sign | infinity sign =>
    obtain rfl : sign = .positive := hleft
    cases right with
    | notANumber => exact hright.elim
    | zero sign | infinity sign | finite sign =>
      obtain rfl : sign = .positive := hright
      rfl
  | finite sign =>
    obtain rfl : sign = .positive := hleft
    cases right with
    | notANumber => exact hright.elim
    | zero sign | infinity sign =>
      obtain rfl : sign = .positive := hright
      rfl
    | finite sign =>
      obtain rfl : sign = .positive := hright
      exact unsigned_normalize (Int.add_nonneg (Int.natCast_nonneg _) (Int.natCast_nonneg _)) _

/-! ## Decimals -/

theorem unsigned_scientific (mantissa : Nat) (exponent : Int) :
    Unsigned (UnpackedFloat.ofScientific .binary64 mantissa exponent) := by
  unfold UnpackedFloat.ofScientific
  split
  · rfl
  split
  · rfl
  split
  · rfl
  split
  · refine (unsigned_mul_div ?_ ?_).1 <;> rfl
  · refine (unsigned_mul_div ?_ ?_).2 <;> rfl

theorem isProper_powersOfTen :
    Float.exactlyRepresentablePowersOfTen.all (isProper ·.toModel.unpack) = true := by
  decide +kernel

theorem unsigned_ofScientific (mantissa : Nat) (negative : Bool) (exponent : Nat) :
    Unsigned (Float.ofScientific mantissa negative exponent).toModel.unpack := by
  unfold Float.ofScientific
  split
  · next hsmall =>
    have hpower := Array.all_eq_true.1 isProper_powersOfTen exponent
    have hmantissa : Unsigned mantissa.toUInt64.toFloat.toModel.unpack :=
      unsigned_pack (unsigned_normalize (Int.natCast_nonneg _) _)
    split
    · exact unsigned_pack (unsigned_mul_div hmantissa (hpower _)).2
    · exact unsigned_pack (unsigned_mul_div hmantissa (hpower _)).1
  · exact unsigned_pack (unsigned_scientific _ _)

/-- The number nearest to a decimal has no sign bit. -/
theorem unsigned_value (decimal : Decimal) : Unsigned decimal.value.toModel.unpack := by
  unfold Decimal.value
  dsimp only
  split <;> exact unsigned_ofScientific _ _ _

end MetricScript.Number
