import Mathlib
import Scan.Duration

/-!
# Lengths of time as floating-point numbers

A length of time is turned into a floating-point number by a quotient and a sum, each of which is
rounded. Neither is ever rounded to zero, as the numbers have their full precision all the way: so a
length of time that is not nothing is a positive number of seconds.
-/

namespace Scan

open Float.Model Float.Model.UnpackedFloat

/-! ## Rounding with full precision -/

/-- A positive floating-point number that has its full precision and an exponent from some number
on, or is too large to be finite. -/
inductive ReachesExponent (least : Int) : UnpackedFloat → Prop where
  | infinite : ReachesExponent least (.infinity .positive)
  | finite {mantissa : Nat} {exponent : Int} {positive : 0 < mantissa}
      (full : 2 ^ 52 ≤ mantissa) (short : mantissa < 2 ^ 53) (high : least ≤ exponent) :
      ReachesExponent least (.finite .positive mantissa exponent positive)

theorem ReachesExponent.mono {least lower : Int} {value : UnpackedFloat}
    (reaches : ReachesExponent least value) (below : lower ≤ least) :
    ReachesExponent lower value := by
  cases reaches with
  | infinite => exact .infinite
  | finite full short high => exact .finite full short (Int.le_trans below high)

theorem log2_mul_two_pow {mantissa : Nat} (positive : 0 < mantissa) (shift : Nat) :
    (mantissa * 2 ^ shift).log2 = mantissa.log2 + shift := by
  have moved : mantissa * 2 ^ shift ≠ 0 :=
    Nat.mul_ne_zero (Nat.ne_of_gt positive) (Nat.ne_of_gt (Nat.two_pow_pos shift))
  apply Nat.le_antisymm
  · refine Nat.lt_succ_iff.mp ((Nat.log2_lt moved).mpr ?_)
    calc mantissa * 2 ^ shift < 2 ^ (mantissa.log2 + 1) * 2 ^ shift :=
          Nat.mul_lt_mul_of_pos_right Nat.lt_log2_self (Nat.two_pow_pos shift)
      _ = 2 ^ (mantissa.log2 + shift).succ := by rw [← Nat.pow_add]; congr 1; omega
  · refine (Nat.le_log2 moved).mpr ?_
    rw [Nat.pow_add]
    exact Nat.mul_le_mul_right _ (Nat.log2_self_le (Nat.ne_of_gt positive))

/-- A number with more digits than its full precision has just that many once the others are cut.
-/
theorem cut_mem_Ico {mantissa : Nat} (long : 52 ≤ mantissa.log2) :
    2 ^ 52 ≤ mantissa / 2 ^ (mantissa.log2 - 52) ∧
      mantissa / 2 ^ (mantissa.log2 - 52) < 2 ^ 53 := by
  have positive : mantissa ≠ 0 := by
    rintro rfl
    simp at long
  constructor
  · rw [Nat.le_div_iff_mul_le (Nat.two_pow_pos _), ← Nat.pow_add, Nat.add_sub_cancel' long]
    exact Nat.log2_self_le positive
  · rw [Nat.div_lt_iff_lt_mul (Nat.two_pow_pos _), ← Nat.pow_add]
    have digits : 53 + (mantissa.log2 - 52) = mantissa.log2 + 1 := by omega
    exact digits ▸ Nat.lt_log2_self

theorem mantissa_shiftRight (number : ExtendedMantissa) (shift : Nat) :
    (number >>> shift).mantissa = number.mantissa / 2 ^ shift := by
  change (Nat.repeat ExtendedMantissa.shiftRightOne shift number).mantissa = _
  induction shift with
  | zero => simp [Nat.repeat]
  | succ shift ih =>
      rw [Nat.repeat, ExtendedMantissa.shiftRightOne, ih, Nat.div_div_eq_div_mul, ← Nat.pow_succ]

/-- A number that has its full precision is cut to it. -/
theorem shiftToTargetExponent_of_long {mantissa : Nat} {exponent : Int} (accuracy : Accuracy)
    (long : 52 ≤ mantissa.log2) (high : -1074 ≤ mantissa.log2 - 52 + exponent) :
    (shiftToTargetExponent .binary64 mantissa exponent accuracy).1.mantissa =
        mantissa / 2 ^ (mantissa.log2 - 52) ∧
      (shiftToTargetExponent .binary64 mantissa exponent accuracy).2 =
        mantissa.log2 - 52 + exponent := by
  have target : Format.binary64.targetExponent (totalExponent mantissa exponent) =
      mantissa.log2 - 52 + exponent := by
    have lowest : Format.binary64.minExponent = -1074 := rfl
    have digits : (Format.binary64.mantissaBits : Int) = 53 := rfl
    rw [Format.targetExponent, totalExponent, lowest, digits]
    omega
  have shift : (mantissa.log2 - 52 + exponent - exponent).toNat = mantissa.log2 - 52 := by omega
  rw [shiftToTargetExponent, target, shiftToExponent, shift]
  refine ⟨?_, by simp only; omega⟩
  rw [mantissa_shiftRight]
  cases accuracy with
  | exact => rfl
  | inexact order => cases order <;> rfl

/-- What is rounded with full precision keeps it. -/
theorem ReachesExponent.of_roundWithAccuracy {mantissa : Nat} {exponent : Int}
    (accuracy : Accuracy) (long : 52 ≤ mantissa.log2)
    (high : -1074 ≤ mantissa.log2 - 52 + exponent) :
    ReachesExponent (mantissa.log2 - 52 + exponent)
      (roundWithAccuracy .binary64 .positive mantissa exponent accuracy) := by
  obtain ⟨cut, cutExponent⟩ := shiftToTargetExponent_of_long accuracy long high
  obtain ⟨full, short⟩ := cut_mem_Ico long
  rw [roundWithAccuracy]
  generalize shiftToTargetExponent .binary64 mantissa exponent accuracy = first at *
  obtain ⟨first, firstExponent⟩ := first
  simp only at cut cutExponent ⊢
  -- rounding gives the number that was cut off or the next one
  have rounded : first.mantissa ≤ first.roundedMantissa ∧
      first.roundedMantissa ≤ first.mantissa + 1 := by
    rw [ExtendedMantissa.roundedMantissa]
    cases first.accuracy with
    | exact => simp [Accuracy.roundToNearestEven]
    | inexact order => cases order <;> simp only [Accuracy.roundToNearestEven] <;> omega
  generalize first.roundedMantissa = second at *
  have nonzero : second ≠ 0 := by omega
  have long' : 52 ≤ second.log2 := (Nat.le_log2 nonzero).mpr (by omega)
  have high' : -1074 ≤ second.log2 - 52 + firstExponent := by omega
  obtain ⟨cut', cutExponent'⟩ := shiftToTargetExponent_of_long .exact long' high'
  obtain ⟨full', short'⟩ := cut_mem_Ico long'
  generalize shiftToTargetExponent .binary64 second firstExponent .exact = last at *
  obtain ⟨last, lastExponent⟩ := last
  simp only at cut' cutExponent' ⊢
  rw [dif_neg (by omega)]
  exact .finite (by omega) (by omega) (by omega)

theorem ReachesExponent.of_round {mantissa : Nat} {exponent : Int} (positive : 0 < mantissa)
    (high : -1074 ≤ mantissa.log2 - 52 + exponent) :
    ReachesExponent (mantissa.log2 - 52 + exponent)
      (UnpackedFloat.round .binary64 .positive mantissa exponent) := by
  have target : Format.binary64.targetExponent (totalExponent mantissa exponent) =
      mantissa.log2 - 52 + exponent := by
    have lowest : Format.binary64.minExponent = -1074 := rfl
    have digits : (Format.binary64.mantissaBits : Int) = 53 := rfl
    rw [Format.targetExponent, totalExponent, lowest, digits]
    omega
  rw [UnpackedFloat.round, target, decreaseExponent]
  generalize moved : (exponent - (mantissa.log2 - 52 + exponent)).toNat = shift
  have digits := log2_mul_two_pow positive shift
  rw [Nat.shiftLeft_eq]
  refine (ReachesExponent.of_roundWithAccuracy .exact ?_ ?_).mono ?_ <;> omega

/-! ## Numbers that are stored -/

/-- A number that has its full precision is read as it was stored. -/
theorem unpack_pack_of_full {mantissa : Nat} {exponent : Int} (positive : 0 < mantissa)
    (full : 2 ^ 52 ≤ mantissa) (short : mantissa < 2 ^ 53) (least : -1074 ≤ exponent)
    (most : exponent ≤ 971) :
    UnpackedFloat.unpack .binary64
        (UnpackedFloat.pack .binary64 (.finite .positive mantissa exponent positive)) =
      .finite .positive mantissa exponent positive := by
  have digits : mantissa.log2 + 1 = Format.binary64.mantissaBits := by
    have low : 52 ≤ mantissa.log2 := (Nat.le_log2 (Nat.ne_of_gt positive)).mpr full
    have high : mantissa.log2 < 53 := (Nat.log2_lt (Nat.ne_of_gt positive)).mpr short
    have all : Format.binary64.mantissaBits = 53 := rfl
    omega
  have biased : (exponent + Format.binary64.exponentBias +
      Format.binary64.mantissaBitsWithoutImplicit).toNat = (exponent + 1075).toNat := by
    have bias : (Format.binary64.exponentBias : Int) = 1023 := rfl
    simp only [bias]
    omega
  have stored : (BitVec.ofNat 11 (exponent + 1075).toNat).toNat = (exponent + 1075).toNat := by
    rw [BitVec.toNat_ofNat]
    omega
  rw [UnpackedFloat.pack]
  simp only [biased]
  rw [if_neg (by omega), if_pos digits, UnpackedFloat.unpack]
  simp only [unpackMantissa_packComponents, unpackExponent_packComponents]
  rw [if_neg, if_neg]
  · have sign : Sign.ofBitVec (unpackSign (packComponents .binary64 .positive
        (BitVec.ofNat 11 (exponent + 1075).toNat) (BitVec.ofNat 52 mantissa))) = .positive := by
      simp only [unpackSign, packComponents, BitVec.extractLsb]
      rw [BitVec.extractLsb'_append_eq_of_le (by omega),
        BitVec.extractLsb'_append_eq_of_le (by omega)]
      rfl
    have whole : (1#1 ++ BitVec.ofNat 52 mantissa).toNat = mantissa := by
      rw [BitVec.toNat_append, ← Nat.shiftLeft_add_eq_or_of_lt (BitVec.ofNat 52 mantissa).isLt,
        BitVec.toNat_ofNat, Nat.shiftLeft_eq]
      simp only [BitVec.toNat_ofNat]
      omega
    have bias : (Format.binary64.exponentBias : Int) = 1023 := rfl
    simp only [sign, whole, stored, bias, UnpackedFloat.finite.injEq, true_and]
    omega
  all_goals
    intro same
    have value := congrArg BitVec.toNat same
    rw [stored] at value
    simp at value
    omega

/-- A positive number with its full precision stays one when it is stored. -/
theorem ReachesExponent.stored {least : Int} {value : UnpackedFloat}
    (reaches : ReachesExponent least value) (low : -1074 ≤ least) :
    ReachesExponent least (Float.Model.pack value).unpack := by
  change ReachesExponent least
    (UnpackedFloat.unpack .binary64 (UnpackedFloat.pack .binary64 value))
  cases reaches with
  | infinite => exact .infinite
  | @finite mantissa exponent positive full short high =>
      by_cases most : exponent ≤ 971
      · rw [unpack_pack_of_full positive full short (Int.le_trans low high) most]
        exact .finite full short high
      · have large : 2 ^ Format.binary64.exponentBits ≤ (exponent + Format.binary64.exponentBias +
            Format.binary64.mantissaBitsWithoutImplicit).toNat + 1 := by
          have bias : (Format.binary64.exponentBias : Int) = 1023 := rfl
          simp only [bias]
          omega
        rw [UnpackedFloat.pack]
        simp only [if_pos large]
        exact .infinite

/-! ## Whole seconds and fractions -/

theorem ReachesExponent.of_normalize {mantissa exponent : Int} (positive : 0 < mantissa)
    (high : -1074 ≤ (mantissa.toNat.log2 : Int) - 52 + exponent) (zero : Sign) :
    ReachesExponent (mantissa.toNat.log2 - 52 + exponent)
      (UnpackedFloat.normalize .binary64 mantissa exponent zero) := by
  have above : compare mantissa 0 = .gt := by
    simp only [compare, compareOfLessAndEq]
    rw [if_neg (by omega), if_neg (by omega)]
  simp only [UnpackedFloat.normalize, above]
  exact .of_round (by omega) high

/-- A natural number that is not zero is one as a floating-point number. -/
theorem reaches_ofNat {number : Nat} (positive : 0 < number) (small : number < 2 ^ 64) :
    ReachesExponent (-52) (Scalar.ofNat number : Float).toModel.unpack := by
  have word : (UInt64.ofNat number).toNat = number := UInt64.toNat_ofNat_of_lt' small
  change ReachesExponent (-52) (Float.Model.pack
    (UnpackedFloat.normalize .binary64 (UInt64.ofNat number).toNat 0 .positive)).unpack
  rw [word]
  have high : -1074 ≤ ((number : Int).toNat.log2 : Int) - 52 + 0 := by omega
  have reaches := ReachesExponent.of_normalize (Int.natCast_pos.mpr positive) high .positive
  exact (reaches.mono (by omega)).stored (by omega)

/-- The sum of two positive numbers is not below the smaller one. -/
theorem ReachesExponent.add {least : Int} {first second : Float} (low : -1074 ≤ least)
    (one : ReachesExponent least first.toModel.unpack)
    (other : ReachesExponent least second.toModel.unpack) :
    ReachesExponent least (first + second).toModel.unpack := by
  change ReachesExponent least (Float.Model.pack
    (UnpackedFloat.add .binary64 first.toModel.unpack second.toModel.unpack)).unpack
  refine ReachesExponent.stored ?_ low
  generalize first.toModel.unpack = first at *
  generalize second.toModel.unpack = second at *
  cases one with
  | infinite => cases other <;> exact .infinite
  | @finite mantissa exponent positive full short high =>
      cases other with
      | infinite => exact .infinite
      | @finite mantissa' exponent' positive' full' short' high' =>
          simp only [UnpackedFloat.add, decreaseExponent, Sign.apply, Nat.shiftLeft_eq]
          generalize total :
            ((mantissa * 2 ^ (exponent - min exponent exponent').toNat : Nat) : Int) +
              (mantissa' * 2 ^ (exponent' - min exponent exponent').toNat : Nat) = sum
          have large : mantissa ≤ mantissa * 2 ^ (exponent - min exponent exponent').toNat :=
            Nat.le_mul_of_pos_right _ (Nat.two_pow_pos _)
          have long : 52 ≤ sum.toNat.log2 := (Nat.le_log2 (by omega)).mpr (by omega)
          exact (ReachesExponent.of_normalize (by omega) (by omega) _).mono (by omega)

/-- Adding zero in front of a positive number changes nothing that matters. -/
theorem ReachesExponent.zero_add {least : Int} {zero number : Float} {sign : Sign}
    (nothing : zero.toModel.unpack = .zero sign)
    (reaches : ReachesExponent least number.toModel.unpack) (low : -1074 ≤ least) :
    ReachesExponent least (zero + number).toModel.unpack := by
  change ReachesExponent least (Float.Model.pack
    (UnpackedFloat.add .binary64 zero.toModel.unpack number.toModel.unpack)).unpack
  refine ReachesExponent.stored ?_ low
  rw [nothing]
  generalize number.toModel.unpack = number at *
  cases reaches with
  | infinite => exact .infinite
  | finite full short high => exact .finite full short high

/-- Adding zero behind a positive number changes nothing that matters. -/
theorem ReachesExponent.add_zero {least : Int} {zero number : Float} {sign : Sign}
    (nothing : zero.toModel.unpack = .zero sign)
    (reaches : ReachesExponent least number.toModel.unpack) (low : -1074 ≤ least) :
    ReachesExponent least (number + zero).toModel.unpack := by
  change ReachesExponent least (Float.Model.pack
    (UnpackedFloat.add .binary64 number.toModel.unpack zero.toModel.unpack)).unpack
  refine ReachesExponent.stored ?_ low
  rw [nothing]
  generalize number.toModel.unpack = number at *
  cases reaches with
  | infinite => exact .infinite
  | finite full short high => exact .finite full short high

/-- A positive number of billionths is not rounded to zero. -/
theorem ReachesExponent.div_second {number : Float}
    (reaches : ReachesExponent (-52) number.toModel.unpack) :
    ReachesExponent (-200) (number / (Scalar.ofNat Duration.second : Float)).toModel.unpack := by
  have second : (Scalar.ofNat Duration.second : Float).toModel.unpack =
      .finite .positive 8388608000000000 (-23) (by decide) := rfl
  change ReachesExponent (-200) (Float.Model.pack (UnpackedFloat.div .binary64 number.toModel.unpack
    (Scalar.ofNat Duration.second : Float).toModel.unpack)).unpack
  refine ReachesExponent.stored ?_ (by omega)
  rw [second]
  generalize number.toModel.unpack = number at *
  cases reaches with
  | infinite => exact .infinite
  | @finite mantissa exponent positive full short high =>
      have digits : mantissa.log2 = 52 := by
        have low : 52 ≤ mantissa.log2 := (Nat.le_log2 (by omega)).mpr full
        have most : mantissa.log2 < 53 := (Nat.log2_lt (by omega)).mpr short
        omega
      have target : min (exponent - -23) (Format.binary64.targetExponent
          (totalExponent mantissa exponent - totalExponent 8388608000000000 (-23))) =
          exponent - 30 := by
        have lowest : Format.binary64.minExponent = -1074 := rfl
        have all : (Format.binary64.mantissaBits : Int) = 53 := rfl
        have own : (8388608000000000 : Nat).log2 = 52 := by decide +kernel
        rw [Format.targetExponent, totalExponent, totalExponent, lowest, all, own, digits]
        omega
      have shift : (exponent - -23 - (exponent - 30)).toNat = 53 := by omega
      simp only [UnpackedFloat.div, divCore, target, shift, Nat.shiftLeft_eq]
      have long : 52 ≤ (mantissa * 2 ^ 53 / 8388608000000000).log2 :=
        (Nat.le_log2 (by omega)).mpr (by omega)
      exact (ReachesExponent.of_roundWithAccuracy _ long (by omega)).mono (by omega)

theorem le_zero_of_reaches {least : Int} {number : Float}
    (reaches : ReachesExponent least number.toModel.unpack) :
    Scalar.le number Scalar.zero = false := by
  have zero : (Scalar.zero : Float).toModel.unpack = .zero .positive := rfl
  change decide (number ≤ Scalar.zero) = false
  rw [decide_eq_false_iff_not]
  change ¬ decide (number.toModel.unpack.le (Scalar.zero : Float).toModel.unpack = true) = true
  rw [zero]
  generalize number.toModel.unpack = number at *
  cases reaches <;> exact Bool.false_ne_true

/-- A length of time that is not nothing is a positive number of seconds. -/
theorem Duration.le_zero_seconds {duration : Duration} (positive : 0 < duration.nanoseconds)
    (bounded : duration.nanoseconds / second ≤ maxSeconds) :
    Scalar.le (duration.seconds : Float) Scalar.zero = false := by
  have nothing : (Scalar.ofNat 0 : Float).toModel.unpack = .zero .positive := rfl
  have noFraction : (Scalar.ofNat 0 / Scalar.ofNat second : Float).toModel.unpack =
      .zero .positive := rfl
  have most : maxSeconds < 2 ^ 64 := by decide
  have fractional : duration.nanoseconds % second < 2 ^ 64 :=
    Nat.lt_trans (Nat.mod_lt _ (by decide)) (by decide : second < 2 ^ 64)
  rw [seconds]
  rcases Nat.eq_zero_or_pos (duration.nanoseconds / second) with whole | whole
  · have parts := Nat.div_add_mod duration.nanoseconds second
    rw [whole, Nat.mul_zero, Nat.zero_add] at parts
    have rest := (reaches_ofNat (parts.symm ▸ positive) fractional).div_second
    rw [whole]
    exact le_zero_of_reaches (rest.zero_add nothing (by omega))
  · have seconds := reaches_ofNat whole (by omega)
    rcases Nat.eq_zero_or_pos (duration.nanoseconds % second) with fraction | fraction
    · rw [fraction]
      exact le_zero_of_reaches (seconds.add_zero noFraction (by omega))
    · have fractions := (reaches_ofNat fraction fractional).div_second
      exact le_zero_of_reaches ((seconds.mono (by omega)).add (by omega) fractions)

end Scan
