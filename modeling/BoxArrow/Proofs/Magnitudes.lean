import BoxArrow.Geometry
import Mathlib

/-!
# How large floating point numbers become

Sums and products of numbers of moderate size are of moderate size, and so they are finite. The size
of a number is told by the exponent in its bits. What is lost in rounding is of no account here: of
the result of an operation it only matters that its mantissa has 53 bits, and by how much its
exponent may exceed those of the operands.

## Main definitions

* `BoxArrow.exponentField` — the exponent in the bits of a number.
* `BoxArrow.IsBelow` — a bound for the exponent of a number with a mantissa of 53 bits.

## Main results

* `BoxArrow.isBelow_roundWithAccuracy` — rounding adds one to the exponent at most.
* `BoxArrow.exponentField_mul`, `BoxArrow.exponentField_add`, `BoxArrow.exponentField_ofNat`.
* `BoxArrow.exponentField_gridSlot` — the places on the grid.
-/

namespace BoxArrow

open Float.Model Float.Model.UnpackedFloat

/-- The exponent of a number as it stands in its bits. It is 2047 for NaN and the infinities. -/
def exponentField (x : Float) : Nat :=
  (x.toBits >>> 52 &&& 0x7ff).toNat

/-- The number is finite, with a mantissa of 53 bits and an exponent that does not exceed the given
one. -/
inductive IsBelow (bound : Int) : UnpackedFloat → Prop where
  | zero (s : Sign) : IsBelow bound (.zero s)
  | finite (s : Sign) {m : Nat} {e : Int} (hpos : 0 < m) (hm : m < 2 ^ 53) (he : e ≤ bound) :
    IsBelow bound (.finite s m e hpos)

variable {m t : Nat} {e bound : Int}

/-! ### Rounding -/

theorem mantissa_shiftRight (em : ExtendedMantissa) (k : Nat) :
    (em >>> k).mantissa = em.mantissa / 2 ^ k := by
  change (k.repeat ExtendedMantissa.shiftRightOne em).mantissa = em.mantissa / 2 ^ k
  induction k with
  | zero => rw [Nat.pow_zero, Nat.div_one]; rfl
  | succ k ih =>
    have hstep : ((k + 1).repeat ExtendedMantissa.shiftRightOne em).mantissa =
        (k.repeat ExtendedMantissa.shiftRightOne em).mantissa / 2 := rfl
    rw [hstep, ih, Nat.div_div_eq_div_mul, Nat.pow_succ]

theorem roundedMantissa_le (em : ExtendedMantissa) : em.roundedMantissa ≤ em.mantissa + 1 := by
  obtain ⟨m, roundBit, stickyBit⟩ := em
  cases roundBit <;> cases stickyBit <;>
    simp only [ExtendedMantissa.roundedMantissa, ExtendedMantissa.accuracy,
      Accuracy.roundToNearestEven] <;> omega

/-- After the shift to its target exponent, a mantissa has 53 bits. -/
theorem shiftToTargetExponent_bounds (hm : m < 2 ^ (53 + t)) (he : e + t ≤ bound)
    (hmin : -1074 ≤ bound) (accuracy : Accuracy) :
    (shiftToTargetExponent .binary64 m e accuracy).1.mantissa < 2 ^ 53 ∧
      (shiftToTargetExponent .binary64 m e accuracy).2 ≤ bound := by
  have htarget : Format.binary64.targetExponent (totalExponent m e) =
      max (m.log2 + 1 + e - 53) (-1074) := rfl
  have hlog : m.log2 < 53 + t := by
    by_cases hzero : m = 0
    · subst hzero
      simp
    · exact (Nat.log2_lt hzero).mpr hm
  rw [shiftToTargetExponent, htarget, shiftToExponent]
  generalize hk : (max (m.log2 + 1 + e - 53) (-1074) - e).toNat = k
  have hmantissa : (ExtendedMantissa.ofMantissaAndAccuracy m accuracy).mantissa = m := by
    rcases accuracy with _ | (_ | _ | _) <;> rfl
  dsimp only
  rw [mantissa_shiftRight, hmantissa]
  refine ⟨?_, by omega⟩
  have hpow : 2 ^ (m.log2 + 1) ≤ 2 ^ (53 + k) := Nat.pow_le_pow_right (by decide) (by omega)
  have hlt := Nat.lt_log2_self (n := m)
  rw [Nat.div_lt_iff_lt_mul (Nat.two_pow_pos k), ← Nat.pow_add]
  omega

/-- Rounding may carry into one more bit, which adds one to the exponent. -/
theorem isBelow_roundWithAccuracy (hm : m < 2 ^ (53 + t)) (he : e + t ≤ bound)
    (hmin : -1074 ≤ bound) (s : Sign) (accuracy : Accuracy) :
    IsBelow (bound + 1) (roundWithAccuracy .binary64 s m e accuracy) := by
  obtain ⟨hfirst, hexponent⟩ := shiftToTargetExponent_bounds hm he hmin accuracy
  have hrounded := roundedMantissa_le (shiftToTargetExponent .binary64 m e accuracy).1
  have hcarry :
      (shiftToTargetExponent .binary64 m e accuracy).1.roundedMantissa < 2 ^ (53 + 1) := by omega
  have hnext : (shiftToTargetExponent .binary64 m e accuracy).2 + (1 : Nat) ≤ bound + 1 := by omega
  obtain ⟨hmantissa, hlast⟩ := shiftToTargetExponent_bounds hcarry hnext (by omega) .exact
  rw [roundWithAccuracy]
  dsimp only
  split_ifs
  · exact .zero s
  · exact .finite s _ hmantissa hlast

/-- The mantissa of a number whose exponent is decreased grows by as many bits. -/
theorem decreaseExponent_bounds (hm : m < 2 ^ (53 + t)) (target : Int) :
    (decreaseExponent m e target).1 < 2 ^ (53 + (t + (e - target).toNat)) ∧
      (decreaseExponent m e target).2 = e - (e - target).toNat := by
  refine ⟨?_, rfl⟩
  rw [decreaseExponent, Nat.shiftLeft_eq, ← Nat.add_assoc, Nat.pow_add]
  exact Nat.mul_lt_mul_of_pos_right hm (Nat.two_pow_pos _)

theorem isBelow_round (hm : m < 2 ^ (53 + t)) (he : e + t ≤ bound) (hmin : -1074 ≤ bound)
    (s : Sign) : IsBelow (bound + 1) (UnpackedFloat.round .binary64 s m e) := by
  obtain ⟨hmantissa, hexponent⟩ := decreaseExponent_bounds (e := e) hm
    (Format.binary64.targetExponent (totalExponent m e))
  exact isBelow_roundWithAccuracy hmantissa (by omega) hmin s .exact

theorem isBelow_normalize {n : Int} (hn : n.natAbs < 2 ^ (53 + t)) (he : e + t ≤ bound)
    (hmin : -1074 ≤ bound) (s : Sign) :
    IsBelow (bound + 1) (normalize .binary64 n e s) := by
  rw [UnpackedFloat.normalize]
  split
  · exact isBelow_round (by omega) he hmin _
  · exact .zero s
  · exact isBelow_round (by omega) he hmin _

/-! ### Operations -/

theorem isBelow_ofNat {n : Nat} (hn : n < 2 ^ (53 + t)) :
    IsBelow (t + 1) (UnpackedFloat.ofNat .binary64 n) :=
  isBelow_normalize (n := n) (e := 0) hn (by omega) (by omega) .positive

variable {a b : Int} {u v : UnpackedFloat}

theorem IsBelow.mono (h : IsBelow a u) (hab : a ≤ b) : IsBelow b u := by
  cases h with
  | zero s => exact .zero s
  | finite s hpos hm he => exact .finite s hpos hm (he.trans hab)

theorem isBelow_mul (hu : IsBelow a u) (hv : IsBelow b v) (hmin : -1127 ≤ a + b) :
    IsBelow (a + b + 54) (UnpackedFloat.mul .binary64 u v) := by
  cases hu with
  | zero s => cases hv <;> exact .zero _
  | @finite s m e hpos hm he =>
    cases hv with
    | zero s' => exact .zero _
    | @finite s' m' e' hpos' hm' he' =>
      have hproduct := Nat.mul_lt_mul'' hm hm'
      rw [← Nat.pow_add] at hproduct
      have hexponent : e + e' + (53 : Nat) ≤ a + b + 53 := by omega
      have hbelow := isBelow_roundWithAccuracy hproduct hexponent (by omega) (s * s') .exact
      rwa [add_assoc (a + b)] at hbelow

theorem isBelow_add (hu : IsBelow a u) (hv : IsBelow a v) (hmin : -1075 ≤ a) :
    IsBelow (a + 2) (UnpackedFloat.add .binary64 u v) := by
  have hwider : a ≤ a + 2 := by omega
  cases hu with
  | zero s =>
    cases hv with
    | zero s' => cases s <;> cases s' <;> exact .zero _
    | finite s' hpos' hm' he' => exact .finite s' hpos' hm' (he'.trans hwider)
  | @finite s m e hpos hm he =>
    cases hv with
    | zero s' => exact .finite s hpos hm (he.trans hwider)
    | @finite s' m' e' hpos' hm' he' =>
      -- Both are brought to the smaller exponent, where the one with the larger exponent is the
      -- longer one; the sum has one bit more.
      obtain ⟨hfirst, -⟩ := decreaseExponent_bounds (t := 0) (e := e) hm (min e e')
      obtain ⟨hsecond, -⟩ := decreaseExponent_bounds (t := 0) (e := e') hm' (min e e')
      generalize hk : (max e e' - min e e').toNat = k
      have hpow : 2 ^ (53 + (0 + (e - min e e').toNat)) ≤ 2 ^ (53 + k) :=
        Nat.pow_le_pow_right (by decide) (by omega)
      have hpow' : 2 ^ (53 + (0 + (e' - min e e').toNat)) ≤ 2 ^ (53 + k) :=
        Nat.pow_le_pow_right (by decide) (by omega)
      have hsum : (s.apply (decreaseExponent m e (min e e')).1 +
          s'.apply (decreaseExponent m' e' (min e e')).1).natAbs < 2 ^ (53 + (k + 1)) := by
        rw [← Nat.add_assoc, Nat.pow_succ]
        cases s <;> cases s' <;> simp only [Sign.apply] <;> omega
      have hexponent : min e e' + (k + 1 : Nat) ≤ a + 1 := by omega
      have hbelow := isBelow_normalize hsum hexponent (by omega) .positive
      rwa [add_assoc a] at hbelow

/-! ### The exponent in the bits -/

variable {x y : Float} {n : Nat}

theorem exponentField_eq (x : Float) :
    exponentField x =
      (@unpackExponent .binary64 x.toModel.toBits.toBitVec).toNat := by
  have hmask : (0x7ff : Nat) = 2 ^ 11 - 1 := rfl
  rw [exponentField, UInt64.toNat_and, UInt64.toNat_shiftRight]
  simp only [UInt64.reduceToNat, hmask, Nat.and_two_pow_sub_one_eq_mod]
  simp [unpackExponent, Float.toBits]

theorem mantissaField_eq (x : Float) :
    (x.toBits &&& 0xfffffffffffff).toNat =
      (@unpackMantissa .binary64 x.toModel.toBits.toBitVec).toNat := by
  have hmask : (0xfffffffffffff : Nat) = 2 ^ 52 - 1 := rfl
  rw [UInt64.toNat_and]
  simp only [UInt64.reduceToNat, hmask, Nat.and_two_pow_sub_one_eq_mod]
  simp [unpackMantissa, Float.toBits]

/-- The numbers whose exponent and mantissa are zero are the two zeros. -/
theorem exists_unpack_eq_zero (hexponent : exponentField x = 0)
    (hmantissa : (x.toBits &&& 0xfffffffffffff).toNat = 0) :
    ∃ s, x.toModel.unpack = .zero s := by
  have hexponent' : @unpackExponent .binary64 x.toModel.toBits.toBitVec = 0#_ :=
    BitVec.eq_of_toNat_eq ((exponentField_eq x).symm.trans hexponent)
  have hmantissa' : @unpackMantissa .binary64 x.toModel.toBits.toBitVec = 0#_ :=
    BitVec.eq_of_toNat_eq ((mantissaField_eq x).symm.trans hmantissa)
  rw [Float.Model.unpack, UnpackedFloat.unpack]
  dsimp only
  rw [hexponent', if_neg (by decide), if_pos rfl, dif_pos hmantissa']
  exact ⟨_, rfl⟩

theorem beq_zero_of_bits (hexponent : exponentField x = 0)
    (hmantissa : (x.toBits &&& 0xfffffffffffff).toNat = 0) : (x == 0) = true := by
  obtain ⟨s, hs⟩ := exists_unpack_eq_zero hexponent hmantissa
  obtain ⟨s', hs'⟩ := exists_unpack_eq_zero (x := 0) (by decide +kernel) (by decide +kernel)
  change UnpackedFloat.beq x.toModel.unpack (0 : Float).toModel.unpack = true
  rw [hs, hs']
  rfl

/-- A number is below the bound that its bits show. -/
theorem isBelow_unpack (hx : exponentField x ≤ n) (hpos : 1 ≤ n) (hn : n < 2047) :
    IsBelow (n - 1075) x.toModel.unpack := by
  rw [exponentField_eq] at hx
  rw [Float.Model.unpack, UnpackedFloat.unpack]
  generalize @unpackExponent .binary64 x.toModel.toBits.toBitVec = exponent at hx ⊢
  have hmantissa : (@unpackMantissa .binary64 x.toModel.toBits.toBitVec).toNat < 2 ^ 52 :=
    BitVec.isLt _
  have hbias : (Format.binary64.exponentBias : Int) +
      Format.binary64.mantissaBitsWithoutImplicit = 1075 := rfl
  have hfinite : exponent ≠ -1#_ := by
    rintro rfl
    exact absurd hx (by change ¬ 2047 ≤ n; omega)
  dsimp only
  rw [hbias, if_neg hfinite]
  split_ifs with hexponent
  · exact .zero _
  · have hzero : exponent.toNat = 0 := hexponent ▸ rfl
    exact .finite _ _ (by omega) (by omega)
  · exact .finite _ _ (BitVec.isLt (1#1 ++ unpackMantissa _)) (by omega)

/-- What is below a bound shows it in its bits. -/
theorem exponentField_pack (hu : IsBelow (n - 1075) u) (hn : n < 2047) :
    exponentField (.ofModel (.pack u)) ≤ n := by
  rw [exponentField_eq]
  change (unpackExponent (UnpackedFloat.pack .binary64 u)).toNat ≤ n
  cases hu with
  | zero s =>
    rw [UnpackedFloat.pack, packedZero, unpackExponent_packComponents]
    exact Nat.zero_le n
  | @finite s m e hpos hm he =>
    have hbias : (e + Format.binary64.exponentBias + Format.binary64.mantissaBitsWithoutImplicit) =
        e + 1075 := by
      rw [add_assoc]
      rfl
    have hcapacity : 2 ^ Format.binary64.exponentBits = 2048 := rfl
    rw [UnpackedFloat.pack]
    dsimp only
    rw [hbias, hcapacity, if_neg (by omega)]
    split_ifs
    · rw [unpackExponent_packComponents, BitVec.toNat_ofNat]
      exact (Nat.mod_le _ _).trans (by omega)
    · rw [unpackExponent_packComponents]
      exact Nat.zero_le n

theorem isFinite_of_exponentField (hx : exponentField x ≤ n) (hn : n < 2047) :
    x.isFinite = true := by
  have hbelow := isBelow_unpack (n := max n 1) (hx.trans (le_max_left n 1)) (le_max_right n 1)
    (by omega)
  change x.toModel.unpack.isFinite = true
  generalize x.toModel.unpack = u at hbelow ⊢
  cases hbelow <;> rfl

variable {i j : Nat}

theorem exponentField_mul (hx : exponentField x ≤ i) (hy : exponentField y ≤ j)
    (hi : 1023 ≤ i ∧ i ≤ 1500) (hj : 1023 ≤ j ∧ j ≤ 1500) :
    exponentField (x * y) ≤ i + j - 1021 := by
  have hproduct := isBelow_mul (isBelow_unpack hx (by omega) (by omega))
    (isBelow_unpack hy (by omega) (by omega)) (by omega)
  exact exponentField_pack (hproduct.mono (by omega)) (by omega)

theorem exponentField_add (hx : exponentField x ≤ n) (hy : exponentField y ≤ n) (hpos : 1 ≤ n)
    (hn : n < 2045) : exponentField (x + y) ≤ n + 2 := by
  have hsum := isBelow_add (isBelow_unpack hx hpos (by omega)) (isBelow_unpack hy hpos (by omega))
    (by omega)
  exact exponentField_pack (hsum.mono (by omega)) (by omega)

/-- A number of 53 bits is converted by itself. -/
theorem exponentField_toFloat {k : Nat} (hk : k < 2 ^ 53) :
    exponentField k.toUInt64.toFloat ≤ 1076 := by
  have hvalue : k.toUInt64.toNat < 2 ^ (53 + 0) := by
    rw [Nat.toUInt64, UInt64.toNat_ofNat']
    exact (Nat.mod_le _ _).trans_lt hk
  exact exponentField_pack ((isBelow_ofNat hvalue).mono (by decide)) (by decide)

/-- Every other number, and every number that is scaled by a power of ten, is made longer by 53 bits
and rounded. -/
theorem ofScientific_eq {k : Nat} (hpos : k ≠ 0) {i : Nat} (hi : i ≤ 2048) :
    Float.Model.ofScientific k i =
      .pack (roundWithAccuracy .binary64 .positive (k <<< 53 * 10 ^ i) (-53) .exact) := by
  have hlog := Int.natCast_nonneg k.log2
  have hcapacity : (2 : Int) ^ Format.binary64.exponentBits = 2048 := rfl
  rw [Float.Model.ofScientific, UnpackedFloat.ofScientific, dif_neg hpos, if_neg (by omega),
    if_neg (by omega), if_pos (by omega), UnpackedFloat.mul]
  rfl

theorem exponentField_ofScientific {k : Nat} (hpos : k ≠ 0) (hk : k < 2 ^ 64) :
    exponentField (.ofModel (.ofScientific k 0)) ≤ 1087 := by
  have hshifted : k <<< 53 * 10 ^ 0 < 2 ^ (53 + 64) := by
    rw [Nat.shiftLeft_eq, Nat.pow_zero, Nat.mul_one]
    omega
  have hexponent : (-53 : Int) + (64 : Nat) ≤ 11 := by decide
  have hround := isBelow_roundWithAccuracy hshifted hexponent (by decide) .positive .exact
  have hscaled := ofScientific_eq hpos (Nat.zero_le 2048)
  rw [Nat.cast_zero] at hscaled
  rw [hscaled]
  exact exponentField_pack (hround.mono (by decide)) (by decide)

theorem exponentField_ofNat {k : Nat} (hk : k < 2 ^ 64) :
    exponentField (Float.ofNat k) ≤ 1087 := by
  change exponentField (Float.ofScientific k false 0) ≤ 1087
  rw [Float.ofScientific]
  by_cases hfast : k < 2 ^ 53 ∧ 0 ≤ 22
  · have hone : exponentField Float.exactlyRepresentablePowersOfTen[0] ≤ 1023 := by decide +kernel
    have hproduct := exponentField_mul (exponentField_toFloat hfast.1) hone (by decide) (by decide)
    rw [dif_pos hfast]
    exact le_trans hproduct (by decide)
  · rw [dif_neg hfast]
    exact exponentField_ofScientific (by omega) hk

/-! ### Places on the grid -/

/-- Where a list has an index, its place on the grid is not far away. -/
theorem exponentField_gridSlot {index : Nat} (h : index < 3 * 2 ^ 64) :
    exponentField (Position.gridSlot index).y ≤ 1098 := by
  have hrow : exponentField (Float.ofNat (index / 3)) ≤ 1087 := exponentField_ofNat (by omega)
  have hheight : exponentField 150 ≤ 1030 := by decide +kernel
  have htop : exponentField 100 ≤ 1096 := by decide +kernel
  have hproduct := exponentField_mul hheight hrow (by decide) (by decide)
  exact exponentField_add htop hproduct (by decide) (by decide)

end BoxArrow
