import BoxArrow.Decimal.Notation
import BoxArrow.Proofs.NearestNumbers

/-!
# The values of floating point numbers

A floating point number is 64 bits, and an operation takes its operands apart and packs the result
again. Packing loses nothing, as long as the number is not too large: so the bits of a finite number
and its sign and magnitude tell the same. This carries the results about rounding over to the
operations on floating point numbers.

## Main definitions

* `BoxArrow.HasValue` — the sign and the magnitude of a finite number.
* `BoxArrow.mantissaOf`, `BoxArrow.exponentOf`, `BoxArrow.signOf` — the parts in the bits.
* `BoxArrow.roundingEnd` — from where on numbers are rounded to infinity.

## Main results

* `BoxArrow.unpack_pack`, `BoxArrow.pack_unpack` — packing loses nothing.
* `BoxArrow.HasValue.unique`, `BoxArrow.hasValue_parts` — a finite number and its value.
* `BoxArrow.exists_hasValue_mul`, `BoxArrow.exists_hasValue_div`, `BoxArrow.exists_hasValue_ofNat`.
-/

namespace BoxArrow

open Float.Model Float.Model.UnpackedFloat

variable {u : UnpackedFloat} {s s' : Sign} {v v' q : ℚ} {x y : Float} {k : ℕ}

/-! ### Bits -/

theorem ofBitVec_toBitVec (s : Sign) : Sign.ofBitVec s.toBitVec = s := by
  cases s <;> rfl

theorem unpackSign_packComponents (s : Sign) (e : BitVec 11) (m : BitVec 52) :
    @unpackSign .binary64 (packComponents .binary64 s e m) = s.toBitVec := by
  refine BitVec.eq_of_getLsbD_eq fun i hi => ?_
  obtain rfl : i = 0 := by omega
  simp only [unpackSign, packComponents, BitVec.getLsbD_cast, BitVec.getLsbD_extractLsb]
  rw [BitVec.getLsbD_append, BitVec.getLsbD_append]
  simp

/-- The bits of a number are those of its three parts. -/
theorem packComponents_unpack (b : BitVec 64) :
    packComponents .binary64 (.ofBitVec (@unpackSign .binary64 b)) (@unpackExponent .binary64 b)
      (@unpackMantissa .binary64 b) = b := by
  have hsign (b : BitVec 1) : (Sign.ofBitVec b).toBitVec = b := by
    revert b
    decide
  rw [packComponents, hsign]
  refine BitVec.eq_of_getLsbD_eq fun i hi => ?_
  change i < 64 at hi
  rw [BitVec.getLsbD_append, BitVec.getLsbD_append]
  simp only [unpackSign, unpackExponent, unpackMantissa, BitVec.getLsbD_cast,
    BitVec.getLsbD_extractLsb]
  split_ifs with hmantissa hexponent
  · simp only [Nat.zero_add, Bool.and_eq_right_iff_imp, decide_eq_true_eq]
    omega
  · have hplace : 52 + (i - 52) = i := by omega
    simp [hplace, hexponent]
  · have hlast : i - 52 - 11 = 0 := by omega
    have hplace : 63 = i := by omega
    simp [hlast, hplace]

theorem toNat_one_append (m : BitVec 52) : (1#1 ++ m).toNat = 2 ^ 52 + m.toNat := by
  rw [BitVec.toNat_append, ← Nat.shiftLeft_add_eq_or_of_lt m.isLt]
  rfl

theorem unpack_packComponents (s : Sign) (e : BitVec Format.binary64.exponentBits)
    (m : BitVec Format.binary64.mantissaBitsWithoutImplicit) (he : e ≠ -1#_) :
    UnpackedFloat.unpack .binary64 (packComponents .binary64 s e m) =
      if e = 0#_ then
        if h : m = 0#_ then .zero s
        else .finite s m.toNat (-1074) (by simpa [BitVec.toNat_pos, BitVec.pos_iff_ne_zero])
      else .finite s (2 ^ 52 + m.toNat) (e.toNat - 1075) (by omega) := by
  rw [UnpackedFloat.unpack]
  simp only [unpackMantissa_packComponents, unpackExponent_packComponents,
    unpackSign_packComponents, ofBitVec_toBitVec, if_neg he]
  have hbias : (Format.binary64.exponentBias : Int) +
      Format.binary64.mantissaBitsWithoutImplicit = 1075 := rfl
  rw [hbias]
  split_ifs with h h'
  · rfl
  · rw [h]
    rfl
  · congr 1
    exact toNat_one_append m

/-- Packing what was unpacked gives the bits that there were, unless the exponent is that of NaN and
the infinities. -/
theorem pack_unpack {b : BitVec 64} (hb : @unpackExponent .binary64 b ≠ -1#_) :
    UnpackedFloat.pack .binary64 (UnpackedFloat.unpack .binary64 b) = b := by
  rw [← packComponents_unpack b]
  generalize Sign.ofBitVec (@unpackSign .binary64 b) = s
  generalize @unpackExponent .binary64 b = e at hb ⊢
  generalize @unpackMantissa .binary64 b = m
  have hlt : m.toNat < 2 ^ 52 := m.isLt
  have hcapacity : 2 ^ Format.binary64.exponentBits = 2048 := rfl
  have hbits : Format.binary64.mantissaBits = 53 := rfl
  rw [unpack_packComponents s e m hb]
  split_ifs with hexponent hmantissa
  · rw [hexponent, hmantissa]
    rfl
  · have hpos : 0 < m.toNat := by simpa [BitVec.toNat_pos, BitVec.pos_iff_ne_zero]
    have hlog := (Nat.log2_lt hpos.ne').mpr hlt
    rw [UnpackedFloat.pack]
    dsimp only
    rw [hcapacity, hbits, if_neg (by decide), if_neg (by omega), BitVec.ofNat_toNat,
      BitVec.setWidth_eq, hexponent]
  · have hlog : (2 ^ 52 + m.toNat).log2 = 52 := by
      rw [Nat.log2_eq_iff (by omega)]
      omega
    have hlast : e.toNat ≠ 2047 := fun h => hb (BitVec.eq_of_toNat_eq h)
    have hbound : e.toNat < 2048 := e.isLt
    have hbias : ((e.toNat : Int) - 1075 + Format.binary64.exponentBias +
        Format.binary64.mantissaBitsWithoutImplicit).toNat = e.toNat := by
      change ((e.toNat : Int) - 1075 + 1023 + 52).toNat = e.toNat
      omega
    have hsame : BitVec.ofNat Format.binary64.mantissaBitsWithoutImplicit (2 ^ 52 + m.toNat) = m :=
      BitVec.eq_of_toNat_eq (by
        rw [BitVec.toNat_ofNat]
        change (2 ^ 52 + m.toNat) % 2 ^ 52 = m.toNat
        omega)
    rw [UnpackedFloat.pack]
    dsimp only
    rw [hcapacity, hbits, hbias, hlog, if_neg (by omega), if_pos rfl, hsame, BitVec.ofNat_toNat,
      BitVec.setWidth_eq]

/-- The least power of two that is too large for a floating point number. -/
def rangeEnd : ℚ := 2 ^ 53 * 2 ^ (971 : ℤ)

/-- The least number that is rounded to one that is too large. -/
def roundingEnd : ℚ := (2 ^ 53 - 1 / 2) * 2 ^ (971 : ℤ)

/-- The number is unpacked from some bits that are not those of infinity or of no number. -/
def IsUnpacked (u : UnpackedFloat) : Prop :=
  ∃ b : BitVec 64, @unpackExponent .binary64 b ≠ -1#_ ∧ UnpackedFloat.unpack .binary64 b = u

variable {m : ℕ} {e : ℤ}

theorem IsCanonical.exponent_le (h : IsCanonical m e) (hv : (m * 2 ^ e : ℚ) < rangeEnd) :
    e ≤ 971 := by
  by_contra! hlarge
  have hm : (2 : ℚ) ^ 52 ≤ m := by
    rcases h.ge with he | hge
    · omega
    · exact_mod_cast hge
  have hreach := (pow_mul_two_zpow_le hlarge).trans
    (mul_le_mul_of_nonneg_right hm (two_zpow_pos e).le)
  exact absurd hv hreach.not_gt

/-- With 53 bits, the exponent is stored and the first bit is not. -/
theorem isUnpacked_of_le (h : IsCanonical m e) (hnormal : 2 ^ 52 ≤ m) (hmost : e ≤ 971)
    (hpos : 0 < m) (s : Sign) : IsUnpacked (.finite s m e hpos) := by
  have hleast := h.least
  have hlt := h.lt
  have hexponent : (BitVec.ofNat 11 (e + 1075).toNat).toNat = (e + 1075).toNat := by
    rw [BitVec.toNat_ofNat]
    omega
  have hmantissa : 2 ^ 52 + (BitVec.ofNat 52 m).toNat = m := by
    rw [BitVec.toNat_ofNat]
    omega
  have hlast : BitVec.ofNat 11 (e + 1075).toNat ≠ -1#_ := by
    intro heq
    rw [heq] at hexponent
    change 2047 = _ at hexponent
    omega
  have hfirst : BitVec.ofNat 11 (e + 1075).toNat ≠ 0#_ := by
    intro heq
    rw [heq] at hexponent
    change 0 = _ at hexponent
    omega
  refine ⟨packComponents .binary64 s (.ofNat 11 (e + 1075).toNat) (.ofNat 52 m), ?_, ?_⟩
  · rwa [unpackExponent_packComponents]
  · rw [unpack_packComponents s _ _ hlast, if_neg hfirst]
    congr 1
    omega

/-- With fewer bits, the exponent is the least one. -/
theorem isUnpacked_of_lt (h : IsCanonical m e) (hsubnormal : m < 2 ^ 52) (hpos : 0 < m)
    (s : Sign) : IsUnpacked (.finite s m e hpos) := by
  have hmantissa : (BitVec.ofNat 52 m).toNat = m := by
    rw [BitVec.toNat_ofNat]
    omega
  have hne : BitVec.ofNat 52 m ≠ 0#52 := by
    intro hzero
    rw [hzero] at hmantissa
    exact hpos.ne hmantissa
  have hlow : e = -1074 := h.ge.resolve_right hsubnormal.not_ge
  refine ⟨packComponents .binary64 s 0#_ (.ofNat 52 m), ?_, ?_⟩
  · rw [unpackExponent_packComponents]
    decide
  · rw [unpack_packComponents s _ _ (by decide), if_pos rfl, dif_neg hne]
    congr 1
    exact hlow.symm

/-- Every number that is not too large is unpacked from some bits. -/
theorem isUnpacked_of_isValue (h : IsValue s v u) (hv : v < rangeEnd) : IsUnpacked u := by
  cases h with
  | zero =>
    refine ⟨packComponents .binary64 s 0#_ 0#_, ?_, ?_⟩
    · rw [unpackExponent_packComponents]
      decide
    · rw [unpack_packComponents s _ _ (by decide)]
      rfl
  | @finite m e hpos h =>
    rcases le_or_gt (2 ^ 52) m with hnormal | hsubnormal
    · exact isUnpacked_of_le h hnormal (h.exponent_le hv) hpos s
    · exact isUnpacked_of_lt h hsubnormal hpos s

/-- Numbers that are not too large are unpacked as what was packed. -/
theorem unpack_pack (h : IsValue s v u) (hv : v < rangeEnd) :
    UnpackedFloat.unpack .binary64 (UnpackedFloat.pack .binary64 u) = u := by
  obtain ⟨b, hb, rfl⟩ := isUnpacked_of_isValue h hv
  rw [pack_unpack hb]

/-! ### Values -/

/-- The number is finite, with the given sign and magnitude. -/
def HasValue (x : Float) (s : Sign) (v : ℚ) : Prop :=
  IsValue s v x.toModel.unpack

theorem hasValue_pack (h : IsValue s v u) (hv : v < rangeEnd) :
    HasValue (.ofModel (.pack u)) s v := by
  rw [HasValue]
  change IsValue s v (UnpackedFloat.unpack .binary64 (UnpackedFloat.pack .binary64 u))
  rwa [unpack_pack h hv]

theorem HasValue.nonneg (h : HasValue x s v) : 0 ≤ v := by
  rw [HasValue] at h
  generalize x.toModel.unpack = u at h
  cases h <;> positivity

theorem HasValue.value_eq (h : HasValue x s v) (h' : HasValue x s' v') : v = v' := by
  rw [HasValue] at h h'
  generalize x.toModel.unpack = u at h h'
  cases h <;> cases h' <;> rfl

theorem exponentField_lt (hx : x.isFinite = true) : exponentField x < 2047 := by
  by_contra! hle
  have hbound : (@unpackExponent .binary64 x.toModel.toBits.toBitVec).toNat < 2048 := BitVec.isLt _
  rw [exponentField_eq] at hle
  have hlast : @unpackExponent .binary64 x.toModel.toBits.toBitVec = -1#_ :=
    BitVec.eq_of_toNat_eq (by change _ = 2047; omega)
  have hinfinite : x.toModel.unpack.isFinite = false := by
    rw [Float.Model.unpack, UnpackedFloat.unpack]
    dsimp only
    rw [if_pos hlast]
    split_ifs <;> rfl
  exact absurd hx (by change ¬x.toModel.unpack.isFinite = true; simp [hinfinite])

theorem HasValue.isFinite (h : HasValue x s v) : x.isFinite = true := by
  change x.toModel.unpack.isFinite = true
  rw [HasValue] at h
  generalize x.toModel.unpack = u at h ⊢
  cases h <;> rfl

theorem HasValue.unique (hx : HasValue x s v) (hy : HasValue y s v) : x = y := by
  have hpack {x : Float} (hx : x.isFinite = true) :
      UnpackedFloat.pack .binary64 x.toModel.unpack = x.toModel.toBits.toBitVec := by
    refine pack_unpack fun hlast => ?_
    have := exponentField_lt hx
    rw [exponentField_eq, hlast] at this
    exact absurd this (by decide)
  have hbits : x.toModel.toBits.toBitVec = y.toModel.toBits.toBitVec := by
    rw [← hpack hx.isFinite, ← hpack hy.isFinite, IsValue.unique hx hy]
  obtain ⟨⟨⟨bits⟩, hvalid⟩⟩ := x
  obtain ⟨⟨⟨bits'⟩, hvalid'⟩⟩ := y
  obtain rfl : bits = bits' := hbits
  rfl

/-! ### The parts of a number -/

/-- The sign of a number. -/
def signOf (x : Float) : Sign :=
  if isNegative x then .negative else .positive

/-- The mantissa of a finite number as a whole number. -/
def mantissaOf (x : Float) : ℕ :=
  if exponentField x = 0 then (x.toBits &&& 0xfffffffffffff).toNat
  else 2 ^ 52 + (x.toBits &&& 0xfffffffffffff).toNat

/-- The exponent that goes with the mantissa. -/
def exponentOf (x : Float) : ℤ :=
  if exponentField x = 0 then -1074 else exponentField x - 1075

theorem isCanonical_parts (x : Float) : IsCanonical (mantissaOf x) (exponentOf x) := by
  have hmantissa : (x.toBits &&& 0xfffffffffffff).toNat < 2 ^ 52 := by
    rw [UInt64.toNat_and]
    exact Nat.and_lt_two_pow _ (by decide)
  rw [mantissaOf, exponentOf]
  split_ifs with hzero
  · exact ⟨le_rfl, by omega, .inl rfl⟩
  · exact ⟨by omega, by omega, .inr (by omega)⟩

theorem exponentOf_le (hx : x.isFinite = true) : exponentOf x ≤ 971 := by
  have := exponentField_lt hx
  rw [exponentOf]
  split_ifs <;> omega

theorem signOf_eq (x : Float) :
    signOf x = .ofBitVec (@unpackSign .binary64 x.toModel.toBits.toBitVec) := by
  have hbit : (@unpackSign .binary64 x.toModel.toBits.toBitVec).toNat =
      (x.toBits >>> 63).toNat := by
    have hlt := x.toModel.toBits.toNat_lt
    rw [UInt64.toNat_shiftRight, unpackSign, BitVec.toNat_cast, BitVec.extractLsb_toNat]
    change x.toModel.toBits.toNat >>> 63 % 2 = x.toModel.toBits.toNat >>> 63
    rw [Nat.shiftRight_eq_div_pow]
    omega
  rw [signOf, isNegative, Sign.ofBitVec]
  generalize @unpackSign .binary64 x.toModel.toBits.toBitVec = b at hbit ⊢
  rcases BitVec.eq_zero_or_eq_one b with rfl | rfl
  · have hzero : x.toBits >>> 63 = 0 := UInt64.toNat_inj.mp hbit.symm
    rw [hzero]
    rfl
  · have hone : x.toBits >>> 63 = 1 := UInt64.toNat_inj.mp hbit.symm
    rw [hone]
    rfl

/-- A finite number has the value that its parts tell. -/
theorem hasValue_parts (hx : x.isFinite = true) :
    HasValue x (signOf x) (mantissaOf x * 2 ^ exponentOf x) := by
  have hlast : @unpackExponent .binary64 x.toModel.toBits.toBitVec ≠ -1#_ := by
    intro hlast
    have := exponentField_lt hx
    rw [exponentField_eq, hlast] at this
    exact absurd this (by decide)
  have hunpack := unpack_packComponents (signOf x) _
    (@unpackMantissa .binary64 x.toModel.toBits.toBitVec) hlast
  rw [signOf_eq, packComponents_unpack] at hunpack
  have hcanonical := isCanonical_parts x
  rw [HasValue, Float.Model.unpack, hunpack, ← signOf_eq]
  rw [mantissaOf, exponentOf, exponentField_eq, mantissaField_eq] at hcanonical ⊢
  generalize @unpackExponent .binary64 x.toModel.toBits.toBitVec = e at hcanonical ⊢
  generalize @unpackMantissa .binary64 x.toModel.toBits.toBitVec = m at hcanonical ⊢
  have hiff : e = 0#_ ↔ e.toNat = 0 := ⟨fun h => h ▸ rfl, fun h => BitVec.eq_of_toNat_eq h⟩
  simp only [hiff]
  split_ifs at hcanonical ⊢ with hexponent hmantissa
  · rw [hmantissa]
    simpa using IsValue.zero
  · exact .finite _ hcanonical
  · exact .finite _ hcanonical

/-! ### Operations -/

theorem roundingEnd_eq : roundingEnd = ((2 ^ 54 - 1) * 2 ^ 970 : ℕ) := by
  have hpow : (2 : ℚ) ^ (971 : ℤ) = 2 * 2 ^ 970 := by
    rw [← zpow_natCast, ← zpow_one_add₀ two_ne_zero]
    rfl
  rw [roundingEnd, hpow, Nat.cast_mul, Nat.cast_pow, ← mul_assoc]
  norm_num

/-- Below this bound numbers are rounded to ones in range. -/
theorem IsNearest.lt_rangeEnd (h : IsNearest q v) (hq : q < roundingEnd) :
    v < rangeEnd := by
  obtain ⟨t, n, hgrid, hn, rfl⟩ := h
  have hbound := hgrid.le_of_isNearestNat hn
  have hcast : (n : ℚ) ≤ 2 ^ 53 := by exact_mod_cast hbound
  rcases lt_trichotomy t 971 with hlt | rfl | hgt
  · calc (n : ℚ) * 2 ^ t ≤ 2 ^ 53 * 2 ^ t := mul_le_mul_of_nonneg_right hcast (two_zpow_pos t).le
      _ ≤ 2 ^ 52 * 2 ^ (971 : ℤ) := pow_mul_two_zpow_le hlt
      _ < rangeEnd := mul_lt_mul_of_pos_right (by norm_num) (two_zpow_pos _)
  · have hlow := hn.low
    have hlt := (div_lt_iff₀ (two_zpow_pos 971)).mpr hq
    exact mul_lt_mul_of_pos_right (by linarith) (two_zpow_pos _)
  · exfalso
    rcases hgrid.ge with hleast | hge
    · omega
    · have hlarge := pow_mul_two_zpow_le hgt
      have hless : roundingEnd ≤ 2 ^ 53 * 2 ^ (971 : ℤ) :=
        mul_le_mul_of_nonneg_right (by norm_num) (two_zpow_pos _).le
      exact (hq.trans_le (hless.trans (hlarge.trans hge))).false

theorem lt_roundingEnd (hq : q < 2 ^ 256) : q < roundingEnd := by
  refine hq.trans_le ?_
  calc (2 : ℚ) ^ 256 = 2 ^ 52 * 2 ^ (204 : ℤ) := by norm_num
    _ ≤ roundingEnd := mul_le_mul (by norm_num) (two_zpow_le (by decide)) (by positivity)
      (by norm_num)

theorem exists_hasValue_mul (hx : HasValue x s v) (hy : HasValue y s' v')
    (hq : v * v' < roundingEnd) :
    ∃ w, IsNearest (v * v') w ∧ HasValue (x * y) (s * s') w := by
  obtain ⟨w, hnearest, hw⟩ := exists_mul hx hy
  exact ⟨w, hnearest, hasValue_pack hw (hnearest.lt_rangeEnd hq)⟩

theorem exists_hasValue_div (hx : HasValue x s v) (hy : HasValue y s' v') (hne : v' ≠ 0)
    (hq : v / v' < roundingEnd) :
    ∃ w, IsNearest (v / v') w ∧ HasValue (x / y) (s / s') w := by
  obtain ⟨w, hnearest, hw⟩ := exists_div hx hy hne
  exact ⟨w, hnearest, hasValue_pack hw (hnearest.lt_rangeEnd hq)⟩

theorem HasValue.lt_rangeEnd (h : HasValue x s v) : v < rangeEnd := by
  rw [h.value_eq (hasValue_parts h.isFinite)]
  calc (mantissaOf x : ℚ) * 2 ^ exponentOf x
      < 2 ^ 53 * 2 ^ exponentOf x :=
        mul_lt_mul_of_pos_right (by exact_mod_cast (isCanonical_parts x).lt) (two_zpow_pos _)
    _ ≤ 2 ^ 53 * 2 ^ (971 : ℤ) := mul_le_mul_of_nonneg_left (two_zpow_le (exponentOf_le h.isFinite))
      (by positivity)

theorem HasValue.neg (h : HasValue x s v) : HasValue (-x) (-s) v := by
  refine hasValue_pack (u := x.toModel.unpack.neg) ?_ h.lt_rangeEnd
  rw [HasValue] at h
  generalize x.toModel.unpack = u at h ⊢
  cases h with
  | zero => exact .zero
  | finite hpos h => exact .finite hpos h

theorem exists_hasValue_toFloat (hk : k < 2 ^ 64) :
    ∃ v, IsNearest k v ∧ HasValue k.toUInt64.toFloat .positive v := by
  have hvalue : k.toUInt64.toNat = k := by
    rw [Nat.toUInt64, UInt64.toNat_ofNat']
    exact Nat.mod_eq_of_lt hk
  have hround : ∃ v, IsNearest k v ∧
      IsValue .positive v (UnpackedFloat.ofNat .binary64 k.toUInt64.toNat) := by
    rw [hvalue, UnpackedFloat.ofNat, UnpackedFloat.ofInt, UnpackedFloat.normalize]
    rcases Nat.eq_zero_or_pos k with rfl | hpos
    · exact ⟨0, by simpa using isNearest_zero, .zero⟩
    · obtain ⟨v, hnearest, hv⟩ := exists_round hpos 0 .positive
      rw [zpow_zero, mul_one] at hnearest
      have hcompare : compare (k : ℤ) 0 = .gt := Int.compare_eq_gt.mpr (by omega)
      rw [hcompare]
      exact ⟨v, hnearest, hv⟩
  obtain ⟨v, hnearest, hv⟩ := hround
  refine ⟨v, hnearest, hasValue_pack hv (hnearest.lt_rangeEnd ?_)⟩
  have hcast : (k : ℚ) < 2 ^ 64 := by exact_mod_cast hk
  exact lt_roundingEnd (hcast.trans (by norm_num))

theorem hasValue_one : HasValue Float.exactlyRepresentablePowersOfTen[0] .positive 1 := by
  have hbits : Float.exactlyRepresentablePowersOfTen[0].toModel.unpack =
      .finite .positive (2 ^ 52) (-52) (by decide) := by
    rfl
  have hone : ((2 ^ 52 : ℕ) : ℚ) * 2 ^ (-52 : ℤ) = 1 := by norm_num
  rw [HasValue, hbits, ← hone]
  exact .finite _ ⟨by decide, by decide, .inr (by decide)⟩

/-- A product of a whole number and a power of ten is converted to the nearest number. -/
theorem exists_hasValue_ofScientific (hpos : k ≠ 0) {i : ℕ} (hi : i ≤ 2048)
    (hq : (k * 10 ^ i : ℚ) < roundingEnd) :
    ∃ v, IsNearest (k * 10 ^ i) v ∧ HasValue (.ofModel (.ofScientific k i)) .positive v := by
  have hvalue : (k * 10 ^ i : ℚ) / 2 ^ (-53 : ℤ) = (k <<< 53 * 10 ^ i : ℕ) := by
    rw [zpow_neg, div_inv_eq_mul, Nat.shiftLeft_eq]
    push_cast
    norm_cast
    ring
  have hlong : 2 ^ 53 ≤ k <<< 53 * 10 ^ i := by
    rw [Nat.shiftLeft_eq]
    calc 2 ^ 53 = 1 * 2 ^ 53 * 1 := rfl
      _ ≤ k * 2 ^ 53 * 10 ^ i := Nat.mul_le_mul (Nat.mul_le_mul_right _ (Nat.pos_of_ne_zero hpos))
        (Nat.pow_pos (by decide))
  have hlog := (Nat.le_log2 ((Nat.two_pow_pos 53).trans_le hlong).ne').mpr hlong
  obtain ⟨v, hnearest, hv⟩ :=
    exists_roundWithAccuracy (hvalue ▸ isCutOff_exact _) (by omega) .positive
  rw [ofScientific_eq hpos hi]
  exact ⟨v, hnearest, hasValue_pack hv (hnearest.lt_rangeEnd hq)⟩

/-- A whole number is converted to the nearest number. -/
theorem exists_hasValue_ofNat (hk : k < 2 ^ 64) :
    ∃ v, IsNearest k v ∧ HasValue (.ofNat k) .positive v := by
  have hcast : (k : ℚ) < 2 ^ 64 := by exact_mod_cast hk
  change ∃ v, IsNearest k v ∧ HasValue (.ofScientific k false 0) .positive v
  by_cases hfast : k < 2 ^ 53 ∧ 0 ≤ 22
  · rw [Float.ofScientific, dif_pos hfast]
    obtain ⟨v, hnearest, hv⟩ := exists_hasValue_toFloat hk
    have hnearest' := hv.isNearest
    obtain ⟨w, hw, hproduct⟩ := exists_mul hv hasValue_one
    rw [mul_one] at hw
    obtain rfl : v = w := IsNearest.unique hnearest' hw
    exact ⟨v, hnearest, hasValue_pack hproduct hv.lt_rangeEnd⟩
  · have hpos : k ≠ 0 := by
      rintro rfl
      exact hfast (by decide)
    have hscaled := exists_hasValue_ofScientific hpos (Nat.zero_le 2048)
      (lt_roundingEnd (by rw [pow_zero, mul_one]; exact hcast.trans (by norm_num)))
    rw [pow_zero, mul_one] at hscaled
    rw [Float.ofScientific, dif_neg hfast]
    exact hscaled

end BoxArrow
