import BoxArrow.Proofs.NumberText

/-!
# Numbers that are written and read again

The reader makes an integer of the digits of a numeral and scales it by a power of ten. Each of the
two is rounded, and their product or quotient once more. So a number that is written need not come
back as itself; but some number always does, since no rounding can lead out of range: this is close
only for the greatest number and for those whose text has the power `10 ^ 292`.

The powers of ten up to `10 ^ 22` are floating point numbers themselves, and with these there are
only the two roundings of the integer and of the result. When the integer has at most 53 bits, only
the result is rounded. It is the number nearest to what was written, which is the number itself.

## Main definitions

* `BoxArrow.reread` — the number as which the text of a finite number is read.
* `BoxArrow.SurvivesRounding` — numbers to which the two roundings lead back.
* `BoxArrow.HasShortText` — numbers of which the text is read with a single rounding.
* `BoxArrow.greatestSignificand`, `BoxArrow.roundedUp` — bounds for what is multiplied.

## Main results

* `BoxArrow.scale_writtenMagnitude_isSome` — what is written is read in range.
* `BoxArrow.readsBackAs_reread` — the text of every finite number is read.
* `BoxArrow.reread_eq_self_iff`, `BoxArrow.reread_eq_self` — numbers that come back as themselves.
-/

namespace BoxArrow

open Float.Model Float.Model.UnpackedFloat Numeral

variable {x y : Float} {k n : ℕ} {d : Decimal}

/-! ### Powers of ten -/

/-- A positive number as a multiple of `2 ^ -52`, if it is one. -/
def unitsOf (x : Float) : ℕ :=
  match x.toModel.unpack with
  | .finite .positive m e _ => if -52 ≤ e then m * 2 ^ (e + 52).toNat else 0
  | _ => 0

theorem hasValue_of_unitsOf (h : unitsOf x ≠ 0) : HasValue x .positive (unitsOf x / 2 ^ 52) := by
  have hfinite : x.isFinite = true := by
    change x.toModel.unpack.isFinite = true
    rw [unitsOf] at h
    generalize x.toModel.unpack = u at h ⊢
    cases u <;> first | rfl | exact absurd rfl h
  have hparts := hasValue_parts hfinite
  rw [HasValue] at hparts ⊢
  rw [unitsOf] at h ⊢
  generalize (mantissaOf x * 2 ^ exponentOf x : ℚ) = v at hparts
  generalize signOf x = s at hparts
  generalize x.toModel.unpack = u at h hparts ⊢
  cases hparts with
  | zero => exact absurd rfl h
  | @finite m e hpos hcanonical =>
    cases s with
    | negative => exact absurd rfl h
    | positive =>
      dsimp only at h ⊢
      split_ifs at h ⊢ with he
      · have hvalue : ((m * 2 ^ (e + 52).toNat : ℕ) : ℚ) / 2 ^ 52 = m * 2 ^ e := by
          have hexponent : e = ((e + 52).toNat : ℤ) - (52 : ℕ) := by omega
          nth_rewrite 2 [hexponent]
          rw [zpow_sub₀ two_ne_zero, zpow_natCast, zpow_natCast]
          push_cast
          ring
        rw [hvalue]
        exact .finite hpos hcanonical
      · exact absurd rfl h

theorem unitsOf_tenPow : ∀ k < 23, unitsOf (tenPow k) = 10 ^ k * 2 ^ 52 := by
  decide +kernel

/-- The powers of ten that are floating point numbers. -/
theorem hasValue_tenPow (hk : k ≤ 22) : HasValue (tenPow k) .positive (10 ^ k) := by
  have hunits := unitsOf_tenPow k (by omega)
  have hvalue := hasValue_of_unitsOf (x := tenPow k) (by rw [hunits]; positivity)
  rwa [hunits, Nat.cast_mul, Nat.cast_pow, Nat.cast_pow, Nat.cast_ofNat, Nat.cast_ofNat,
    mul_div_cancel_right₀ _ (by positivity)] at hvalue

/-- The powers of ten that are in range. -/
theorem ten_pow_lt_iff (k : ℕ) : 10 ^ k < (2 ^ 54 - 1) * 2 ^ 970 ↔ k ≤ 308 := by
  have hlast : 10 ^ 308 < (2 ^ 54 - 1) * 2 ^ 970 := by decide +kernel
  have hnext : (2 ^ 54 - 1) * 2 ^ 970 ≤ 10 ^ 309 := by decide +kernel
  constructor
  · intro h
    by_contra hlarge
    have hpast : 309 ≤ k := by omega
    have hpow : 10 ^ 309 ≤ 10 ^ k := pow_le_pow_right₀ (by decide) hpast
    generalize (2 ^ 54 - 1) * 2 ^ 970 = limit at h hnext
    omega
  · intro hk
    have hpow : 10 ^ k ≤ 10 ^ 308 := pow_le_pow_right₀ (by decide) hk
    exact hpow.trans_lt hlast

/-- The other powers of ten are nearest ones. -/
theorem exists_hasValue_tenPow (hk : k ≤ 308) :
    ∃ p, IsNearest (10 ^ k) p ∧ HasValue (tenPow k) .positive p := by
  rcases le_or_gt k 22 with hsmall | hlarge
  · have h := hasValue_tenPow hsmall
    exact ⟨_, h.isNearest, h⟩
  · have hnat : 1 * 10 ^ k < (2 ^ 54 - 1) * 2 ^ 970 := by
      rwa [one_mul, ten_pow_lt_iff]
    have hq : ((1 : ℕ) * 10 ^ k : ℚ) < roundingEnd := by
      rw [roundingEnd_eq]
      exact_mod_cast hnat
    obtain ⟨p, hnearest, hp⟩ := exists_hasValue_ofScientific one_ne_zero (by omega) hq
    rw [Nat.cast_one, one_mul] at hnearest
    refine ⟨p, hnearest, ?_⟩
    rw [tenPow, Float.ofScientific, dif_neg (by omega)]
    exact hp

/-! ### Numbers in range -/

/-- The greatest integer of which the product with a power of ten is not above the interval of any
number but the greatest one. -/
def greatestSignificand (k : ℕ) : ℕ :=
  min (10 ^ 17) ((2 ^ 54 - 3) * 2 ^ 970 / 10 ^ k)

/-- How many bits there are too many for a floating point number. -/
def excess (n : ℕ) : ℕ :=
  n.log2 - 52

/-- A floating point number above `n`. -/
def roundedUp (n : ℕ) : ℕ :=
  (n / 2 ^ excess n + 1) * 2 ^ excess n

theorem lt_roundedUp (n : ℕ) : n < roundedUp n := by
  rw [roundedUp, Nat.succ_mul]
  exact Nat.lt_div_mul_add (Nat.two_pow_pos _)

/-- The greatest integers are floating point numbers themselves, and their products stay in range
when the power of ten is rounded up. -/
theorem greatestSignificand_spec : ∀ k < 309,
    greatestSignificand k / 2 ^ excess (greatestSignificand k) < 2 ^ 53 ∧
      greatestSignificand k / 2 ^ excess (greatestSignificand k) *
        2 ^ excess (greatestSignificand k) = greatestSignificand k ∧
      10 ^ k / 2 ^ excess (10 ^ k) + 1 < 2 ^ 53 ∧
      greatestSignificand k * roundedUp (10 ^ k) < (2 ^ 54 - 1) * 2 ^ 970 := by
  decide +kernel

theorem scaleUp_isSome (hk : k ≤ 308) (hn : n ≤ greatestSignificand k) : (scaleUp n k).isSome := by
  obtain ⟨hbits, hwhole, hbits', hproduct⟩ := greatestSignificand_spec k (by omega)
  have hsmall : n < 2 ^ 64 :=
    (hn.trans (Nat.min_le_left _ _)).trans_lt (by decide)
  obtain ⟨v, hv, hx⟩ := exists_hasValue_ofNat hsmall
  obtain ⟨p, hp, hy⟩ := exists_hasValue_tenPow hk
  have hvle : v ≤ greatestSignificand k := by
    have hexact := isNearest_natCast hbits (excess (greatestSignificand k))
    rw [hwhole] at hexact
    exact hv.mono hexact (by exact_mod_cast hn)
  have hple : p ≤ roundedUp (10 ^ k) :=
    hp.mono (isNearest_natCast hbits' (excess (10 ^ k))) (by
      exact_mod_cast (lt_roundedUp (10 ^ k)).le)
  have hq : v * p < roundingEnd := by
    rw [roundingEnd_eq]
    calc v * p ≤ greatestSignificand k * roundedUp (10 ^ k) :=
          mul_le_mul hvle hple hy.nonneg (Nat.cast_nonneg _)
      _ < ((2 ^ 54 - 1) * 2 ^ 970 : ℕ) := by exact_mod_cast hproduct
  obtain ⟨w, -, hw⟩ := exists_hasValue_mul hx hy hq
  rw [scaleUp]
  dsimp only
  split_ifs with hzero hfinite
  · rfl
  · rfl
  · exact absurd hw.isFinite hfinite

theorem scale_isSome (hdigits : d.digits ≤ 10 ^ 17)
    (hvalue : d.value ≤ ((2 ^ 54 - 3) * 2 ^ 970 : ℕ)) : (scale d.digits d.exponent).isSome := by
  rw [scale]
  split_ifs with hnegative
  · rfl
  · generalize hk : d.exponent.natAbs = k
    rcases Nat.eq_zero_or_pos d.digits with hzero | hpos
    · rw [scaleUp, if_pos hzero]
      rfl
    · have hexponent : d.exponent = k := by omega
      rw [Decimal.value, hexponent, zpow_natCast] at hvalue
      have hnat : d.digits * 10 ^ k ≤ (2 ^ 54 - 3) * 2 ^ 970 := by exact_mod_cast hvalue
      refine scaleUp_isSome ?_ (Nat.le_min.mpr ⟨hdigits, ?_⟩)
      · rw [← ten_pow_lt_iff]
        calc 10 ^ k ≤ d.digits * 10 ^ k := Nat.le_mul_of_pos_left _ hpos
          _ ≤ (2 ^ 54 - 3) * 2 ^ 970 := hnat
          _ < (2 ^ 54 - 1) * 2 ^ 970 := by gcongr <;> decide
      · exact (Nat.le_div_iff_mul_le (Nat.pow_pos (by decide))).mpr hnat

/-! ### What is read -/

/-- What an integer that is scaled by one of the powers of ten that are floating point numbers is
read as: the integer is rounded, and the result once more. -/
theorem exists_scale_eq (hdigits : d.digits ≤ 10 ^ 17) (hexponent : d.exponent.natAbs ≤ 22) :
    ∃ y v w, scale d.digits d.exponent = some y ∧ IsNearest d.digits v ∧
      IsNearest (v * 10 ^ d.exponent) w ∧ HasValue y .positive w := by
  have hsmall : d.digits < 2 ^ 64 := hdigits.trans_lt (by decide)
  obtain ⟨v, hv, hx⟩ := exists_hasValue_ofNat hsmall
  have hbound : v ≤ 2 ^ 57 := by
    have hpower := isNearest_natCast (n := 1) (by decide) 57
    have hle : (d.digits : ℚ) ≤ (1 * 2 ^ 57 : ℕ) := by exact_mod_cast hdigits.trans (by decide)
    exact (hv.mono hpower hle).trans (by norm_num)
  have hy := hasValue_tenPow hexponent
  generalize hk : d.exponent.natAbs = k at hexponent hy
  rw [scale, hk]
  split_ifs with hnegative
  · have he : d.exponent = -(k : ℤ) := by omega
    have hq : v / 10 ^ k < roundingEnd :=
      lt_roundingEnd ((div_le_self hx.nonneg (one_le_pow₀ (by norm_num))).trans_lt
        (hbound.trans_lt (by norm_num)))
    obtain ⟨w, hnearest, hw⟩ := exists_hasValue_div hx hy (by positivity) hq
    have hscaled : IsNearest (v * 10 ^ d.exponent) w := by
      rwa [he, zpow_neg, zpow_natCast, ← div_eq_mul_inv]
    rw [scaleDown, if_pos (by omega)]
    exact ⟨_, v, w, rfl, hv, hscaled, hw⟩
  · have he : d.exponent = (k : ℤ) := by omega
    have hten : (10 : ℚ) ^ k ≤ 10 ^ 22 := pow_le_pow_right₀ (by norm_num) hexponent
    have hq : v * 10 ^ k < roundingEnd :=
      lt_roundingEnd ((mul_le_mul hbound hten (by positivity) (by norm_num)).trans_lt
        (by norm_num))
    obtain ⟨w, hnearest, hw⟩ := exists_hasValue_mul hx hy hq
    have hscaled : IsNearest (v * 10 ^ d.exponent) w := by
      rwa [he, zpow_natCast]
    rw [scaleUp]
    dsimp only
    split_ifs with hzero hlarge hfinite
    · have hnull := hv
      rw [hzero, Nat.cast_zero] at hnull
      rw [hzero] at hx
      obtain rfl := isNearest_zero.unique hnull
      rw [zero_mul] at hscaled
      obtain rfl := isNearest_zero.unique hscaled
      exact ⟨_, 0, 0, rfl, hv, by rwa [zero_mul], hx⟩
    · exact ⟨_, v, w, rfl, hv, hscaled, hw⟩
    · exact absurd hw.isFinite hfinite
    · omega

/-! ### Numbers that are written and read -/

theorem Decimal.value_written (d : Decimal) : d.written.value = d.value := by
  rw [written]
  split_ifs with hwhole
  · have he : d.exponent = (d.exponent.toNat : ℤ) := by omega
    rw [value, value, he, zpow_natCast, zpow_neg_one, pow_succ]
    push_cast
    rw [Int.toNat_natCast]
    ring
  · rfl

theorem Decimal.digits_written_le (h : d.digits ≤ 10 ^ 17) : d.written.digits ≤ 10 ^ 17 := by
  rw [written]
  split_ifs with hwhole
  · have hlength : d.leading = d.digitChars.length - 1 + d.exponent := rfl
    have hpos : 0 < d.digitChars.length := Nat.length_toDigits_pos
    have hlt : d.digits < 10 ^ d.digitChars.length :=
      (Nat.length_toDigits_le_iff (by decide) hpos).mp le_rfl
    calc d.digits * 10 ^ (d.exponent.toNat + 1)
        ≤ 10 ^ d.digitChars.length * 10 ^ (d.exponent.toNat + 1) :=
          Nat.mul_le_mul_right _ hlt.le
      _ = 10 ^ (d.digitChars.length + (d.exponent.toNat + 1)) := (Nat.pow_add ..).symm
      _ ≤ 10 ^ 17 := Nat.pow_le_pow_right (by decide) (by omega)
  · exact h

theorem digits_writtenMagnitude_le (x : Float) : (writtenMagnitude x).digits ≤ 10 ^ 17 := by
  rw [writtenMagnitude]
  cases hzero : x == 0 with
  | true => exact Nat.zero_le _
  | false => exact Decimal.digits_written_le (digits_shortest_le hzero)

theorem mantissaOf_eq_zero (hzero : (x == 0) = true) : mantissaOf x = 0 := by
  have hvalue : ∃ s, HasValue x s 0 := by
    change UnpackedFloat.beq x.toModel.unpack (0 : Float).toModel.unpack = true at hzero
    have hright : (0 : Float).toModel.unpack = .zero .positive := rfl
    rw [hright] at hzero
    simp only [HasValue]
    generalize x.toModel.unpack = u at hzero ⊢
    rcases u with (_ | _) | _ | s | ⟨_ | _, m, e, hpos⟩ <;>
      first
      | exact ⟨s, .zero⟩
      | exact absurd hzero Bool.false_ne_true
  obtain ⟨s, hvalue⟩ := hvalue
  have hproduct := hvalue.value_eq (hasValue_parts hvalue.isFinite)
  exact_mod_cast (mul_eq_zero.mp hproduct.symm).resolve_right (two_zpow_pos _).ne'

/-- What is read of the text of a finite number is in range. -/
theorem scale_writtenMagnitude_isSome (hx : x.isFinite = true) :
    (scale (writtenMagnitude x).digits (writtenMagnitude x).exponent).isSome := by
  by_cases hgreatest : mantissaOf x = 2 ^ 53 - 1 ∧ exponentOf x = 971
  · have hzero : ¬(x == 0) = true := by
      intro hzero
      have := mantissaOf_eq_zero hzero
      omega
    have hwritten : writtenMagnitude x = ⟨17976931348623157, 292⟩ := by
      rw [writtenMagnitude, if_neg hzero, shortest_greatest hgreatest.1 hgreatest.2]
      decide +kernel
    rw [hwritten]
    decide +kernel
  · refine scale_isSome (digits_writtenMagnitude_le x) ?_
    rw [writtenMagnitude]
    cases hzero : x == 0 with
    | true => exact le_of_eq_of_le (by simp [Decimal.value]) (Nat.cast_nonneg _)
    | false => exact (Decimal.value_written _).trans_le (shortest_le hzero hx hgreatest)

/-- The number as which the text of a finite number is read. -/
def reread (x : Float) : Float :=
  let y := (scale (writtenMagnitude x).digits (writtenMagnitude x).exponent).getD 0
  if isNegative x then -y else y

/-- The text of every finite number is read as some number. -/
theorem readsBackAs_reread (hx : x.isFinite = true) : Json.ReadsBackAs x (reread x) := by
  obtain ⟨y, hy⟩ := Option.isSome_iff_exists.mp (scale_writtenMagnitude_isSome hx)
  have hfits : (writtenMagnitude x).digits < 2 ^ 64 :=
    (digits_writtenMagnitude_le x).trans_lt (by decide)
  rw [reread, hy]
  exact Json.readsBackAs_of_scale hx hfits hy

theorem isNearest_writtenMagnitude (x : Float) :
    IsNearest (writtenMagnitude x).value (mantissaOf x * 2 ^ exponentOf x) := by
  rw [writtenMagnitude]
  cases hzero : x == 0 with
  | true =>
    rw [mantissaOf_eq_zero hzero]
    simpa [Decimal.value] using isNearest_zero
  | false =>
    change IsNearest (Decimal.written _).value _
    rw [Decimal.value_written]
    exact isNearest_shortest hzero

/-- What is read of a finite number has its sign. -/
theorem hasValue_reread {v : ℚ}
    (h : scale (writtenMagnitude x).digits (writtenMagnitude x).exponent = some y)
    (hy : HasValue y .positive v) : HasValue (reread x) (signOf x) v := by
  rw [reread, h, signOf]
  cases isNegative x with
  | true => exact hy.neg
  | false => exact hy

/-- The power of ten that the digits of the text are scaled by is a floating point number. -/
def HasPlainExponent (x : Float) : Prop :=
  (writtenMagnitude x).exponent.natAbs ≤ 22

/-- The two roundings lead back to the number: that of the integer of the digits, and that of the
result of scaling it. -/
def SurvivesRounding (x : Float) : Prop :=
  ∃ v, IsNearest (writtenMagnitude x).digits v ∧
    IsNearest (v * 10 ^ (writtenMagnitude x).exponent) (mantissaOf x * 2 ^ exponentOf x)

/-- A number comes back as itself exactly when the two roundings lead back to it. -/
theorem reread_eq_self_iff (hx : x.isFinite = true) (hplain : HasPlainExponent x) :
    reread x = x ↔ SurvivesRounding x := by
  obtain ⟨y, v, w, hscale, hv, hw, hy⟩ := exists_scale_eq (digits_writtenMagnitude_le x) hplain
  have hread := hasValue_reread hscale hy
  constructor
  · intro hself
    rw [hself] at hread
    obtain rfl := hread.value_eq (hasValue_parts hx)
    exact ⟨v, hv, hw⟩
  · rintro ⟨v', hv', hw'⟩
    obtain rfl := hv.unique hv'
    obtain rfl := hw.unique hw'
    exact hread.unique (hasValue_parts hx)

/-- The digits of the text make an integer of 53 bits, and the power of ten that it is scaled by is
a floating point number. -/
def HasShortText (x : Float) : Prop :=
  (writtenMagnitude x).digits < 2 ^ 53 ∧ HasPlainExponent x

instance (x : Float) : Decidable (HasShortText x) :=
  inferInstanceAs (Decidable (_ ∧ _ ≤ _))

/-- A number with a short text comes back as itself, because only the result is rounded. -/
theorem reread_eq_self (hx : x.isFinite = true) (hshort : HasShortText x) : reread x = x := by
  have hexact : IsNearest (writtenMagnitude x).digits (writtenMagnitude x).digits := by
    simpa using isNearest_natCast hshort.1 0
  exact (reread_eq_self_iff hx hshort.2).mpr ⟨_, hexact, isNearest_writtenMagnitude x⟩

end BoxArrow
