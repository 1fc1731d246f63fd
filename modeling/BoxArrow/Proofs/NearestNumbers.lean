import BoxArrow.Proofs.Magnitudes

/-!
# Operations give the nearest numbers

A product or a quotient of floating point numbers is rounded once: the result is the floating point
number nearest to the exact one. On the way the exact number is cut off after so many bits, and two
more bits tell how large the part is that is lost. Shifting moves this information along without
loss, so that the only rounding is that of a rational number to a whole one on the grid of the
result.

The relation to the nearest number is monotone, also from one grid to the next one, because the
power of two between them belongs to both. So there is one nearest number, and a bound for an exact
number that is itself a floating point number is a bound for the result.

## Main definitions

* `BoxArrow.IsNearestNat` — rounding to whole numbers.
* `BoxArrow.IsCutOff` — what is known of a number that was cut off.
* `BoxArrow.IsNearest` — rounding to floating point numbers.
* `BoxArrow.IsValue` — the magnitude of a floating point number.

## Main results

* `BoxArrow.IsNearest.mono`, `BoxArrow.IsNearest.unique`, `BoxArrow.IsCanonical.isNearest`.
* `BoxArrow.exists_roundWithAccuracy` — rounding gives the nearest number.
* `BoxArrow.exists_mul`, `BoxArrow.exists_div`, `BoxArrow.exists_round` — so do the operations.
-/

namespace BoxArrow

open Float.Model Float.Model.UnpackedFloat

variable {u u' q q' v v' : ℚ} {n n' m k : ℕ} {t t' e : ℤ} {s : Sign}

/-! ### Nearest whole numbers -/

/-- The whole number `n` is nearest to `u`, and even if it is one of two. -/
structure IsNearestNat (u : ℚ) (n : ℕ) : Prop where
  low : n ≤ u + 1 / 2
  high : u ≤ n + 1 / 2
  even : n = u + 1 / 2 ∨ u = n + 1 / 2 → n % 2 = 0

theorem IsNearestNat.mono (h : IsNearestNat u n) (h' : IsNearestNat u' n') (hle : u ≤ u') :
    n ≤ n' := by
  by_contra! hlt
  have hsucc : (n' : ℚ) + 1 ≤ n := by exact_mod_cast hlt
  have hlow := h.low
  have hhigh := h'.high
  have hn : n % 2 = 0 := h.even (.inl (by linarith))
  have hn' : n' % 2 = 0 := h'.even (.inr (by linarith))
  have heq : (n : ℚ) = (n' + 1 : ℕ) := by push_cast; linarith
  have := Nat.cast_injective heq
  omega

theorem isNearestNat_self (n : ℕ) : IsNearestNat n n where
  low := by linarith
  high := by linarith
  even := by rintro (h | h) <;> linarith

theorem IsNearestNat.le (h : IsNearestNat u n) (hle : u ≤ n') : n ≤ n' :=
  h.mono (isNearestNat_self n') hle

theorem IsNearestNat.ge (h : IsNearestNat u n) (hle : n' ≤ u) : n' ≤ n :=
  (isNearestNat_self n').mono h hle

/-! ### Mantissas that are cut off -/

/-- The mantissa is `u` without its fraction, and the two bits tell how the fraction compares with
zero and with one half. -/
def IsCutOff : ExtendedMantissa → ℚ → Prop
  | ⟨m, false, false⟩, u => u = m
  | ⟨m, false, true⟩, u => m < u ∧ u < m + 1 / 2
  | ⟨m, true, false⟩, u => u = m + 1 / 2
  | ⟨m, true, true⟩, u => m + 1 / 2 < u ∧ u < m + 1

variable {em : ExtendedMantissa}

theorem IsCutOff.bounds (h : IsCutOff em u) : em.mantissa ≤ u ∧ u < em.mantissa + 1 := by
  obtain ⟨m, _ | _, _ | _⟩ := em <;> dsimp only [IsCutOff] at h ⊢ <;> constructor <;> linarith

/-- The bit that is shifted out becomes the first of the two bits, and both of them the second. -/
theorem IsCutOff.shiftRightOne (h : IsCutOff em u) : IsCutOff em.shiftRightOne (u / 2) := by
  obtain ⟨m, roundBit, stickyBit⟩ := em
  have hsplit : (m : ℚ) = 2 * (m / 2 : ℕ) + (m % 2 : ℕ) := by
    exact_mod_cast (Nat.div_add_mod m 2).symm
  rcases Nat.mod_two_eq_zero_or_one m with hbit | hbit <;> rw [hbit] at hsplit <;>
    cases roundBit <;> cases stickyBit <;>
    simp only [ExtendedMantissa.shiftRightOne, hbit, Nat.reduceBNe, Bool.or_self, Bool.or_false,
      Bool.or_true, IsCutOff] at h ⊢ <;>
    push_cast at hsplit <;>
    first
    | linarith
    | constructor <;> linarith

theorem IsCutOff.shiftRight (h : IsCutOff em u) (k : ℕ) : IsCutOff (em >>> k) (u / 2 ^ k) := by
  change IsCutOff (k.repeat ExtendedMantissa.shiftRightOne em) (u / 2 ^ k)
  induction k with
  | zero => simpa [Nat.repeat] using h
  | succ k ih =>
    rw [pow_succ, ← div_div]
    exact ih.shiftRightOne

theorem isCutOff_exact (m : ℕ) : IsCutOff (.ofMantissaAndAccuracy m .exact) m :=
  rfl

/-- What is left of a quotient tells how it is cut off. -/
theorem isCutOff_quotient (hm : 0 < m) (n : ℕ) :
    IsCutOff (.ofMantissaAndAccuracy (n / m) (accuracyOfFraction (n % m) m)) (n / m) := by
  have hpos : (0 : ℚ) < m := by exact_mod_cast hm
  have hlt : ((n % m : ℕ) : ℚ) < m := by exact_mod_cast Nat.mod_lt n hm
  have hsum : (n : ℚ) / m = (n / m : ℕ) + (n % m : ℕ) / m := by
    rw [eq_comm, add_comm, div_add' _ _ _ hpos.ne', div_left_inj' hpos.ne']
    exact_mod_cast Nat.mod_add_div' n m
  rw [accuracyOfFraction]
  split_ifs with hzero
  · rw [hzero, Nat.cast_zero, zero_div, add_zero] at hsum
    exact hsum
  · have hrest : (0 : ℚ) < (n % m : ℕ) := by exact_mod_cast Nat.pos_of_ne_zero hzero
    have hfraction : (0 : ℚ) < (n % m : ℕ) / m := div_pos hrest hpos
    have hone : ((n % m : ℕ) : ℚ) / m < 1 := (div_lt_one hpos).mpr hlt
    rcases hcompare : compare (2 * (n % m)) m
    · have : ((2 * (n % m) : ℕ) : ℚ) < m := by exact_mod_cast Nat.compare_eq_lt.mp hcompare
      have hhalf : ((n % m : ℕ) : ℚ) / m < 1 / 2 := by
        rw [div_lt_div_iff₀ hpos two_pos]
        push_cast at this ⊢
        linarith
      exact ⟨by linarith, by linarith⟩
    · have : ((2 * (n % m) : ℕ) : ℚ) = m := by exact_mod_cast Nat.compare_eq_eq.mp hcompare
      have hhalf : ((n % m : ℕ) : ℚ) / m = 1 / 2 := by
        rw [div_eq_div_iff hpos.ne' two_ne_zero]
        push_cast at this ⊢
        linarith
      exact hsum.trans (by rw [hhalf])
    · have : (m : ℚ) < (2 * (n % m) : ℕ) := by exact_mod_cast Nat.compare_eq_gt.mp hcompare
      have hhalf : 1 / 2 < ((n % m : ℕ) : ℚ) / m := by
        rw [div_lt_div_iff₀ two_pos hpos]
        push_cast at this ⊢
        linarith
      exact ⟨by linarith, by linarith⟩

/-- The mantissa is rounded by its two bits. -/
theorem IsCutOff.isNearestNat (h : IsCutOff em u) : IsNearestNat u em.roundedMantissa := by
  obtain ⟨m, _ | _, _ | _⟩ := em <;>
    simp only [IsCutOff, ExtendedMantissa.roundedMantissa, ExtendedMantissa.accuracy,
      Accuracy.roundToNearestEven] at h ⊢
  · rw [h]
    exact isNearestNat_self m
  · exact ⟨by linarith, by linarith, by rintro (heq | heq) <;> linarith⟩
  · have hnonneg : (0 : ℚ) ≤ (m % 2 : ℕ) := Nat.cast_nonneg _
    have hone : ((m % 2 : ℕ) : ℚ) ≤ 1 := by exact_mod_cast Nat.lt_succ_iff.mp (m.mod_lt two_pos)
    exact ⟨by push_cast; linarith, by push_cast; linarith, fun _ => by omega⟩
  · refine ⟨by push_cast; linarith, by push_cast; linarith, ?_⟩
    push_cast
    rintro (heq | heq) <;> linarith

/-! ### Nearest numbers -/

/-- The exponent `t` is that of the grid to which `q` is rounded: it leaves 53 bits of `q` before
the point, or fewer at the least exponent that there is. -/
structure IsGrid (q : ℚ) (t : ℤ) : Prop where
  least : -1074 ≤ t
  lt : q < 2 ^ 53 * 2 ^ t
  ge : t = -1074 ∨ 2 ^ 52 * 2 ^ t ≤ q

/-- The number `v` is the floating point number nearest to `q`, if there were no greatest one. -/
def IsNearest (q v : ℚ) : Prop :=
  ∃ t n, IsGrid q t ∧ IsNearestNat (q / 2 ^ t) n ∧ v = n * 2 ^ t

theorem two_zpow_pos (t : ℤ) : (0 : ℚ) < 2 ^ t :=
  zpow_pos two_pos t

theorem two_zpow_add (k : ℕ) (t : ℤ) : (2 : ℚ) ^ (t + k) = 2 ^ k * 2 ^ t := by
  rw [zpow_add₀ two_ne_zero, zpow_natCast, mul_comm]

theorem two_zpow_le (h : t ≤ t') : (2 : ℚ) ^ t ≤ 2 ^ t' :=
  zpow_le_zpow_right₀ one_le_two h

/-- A finer grid ends where a coarser one begins. -/
theorem pow_mul_two_zpow_le (h : t < t') : (2 : ℚ) ^ 53 * 2 ^ t ≤ 2 ^ 52 * 2 ^ t' := by
  have hstep : (2 : ℚ) ^ 53 * 2 ^ t = 2 ^ 52 * 2 ^ (t + 1) := by
    rw [zpow_add_one₀ two_ne_zero]
    ring
  rw [hstep]
  exact mul_le_mul_of_nonneg_left (two_zpow_le h) (by positivity)

theorem IsGrid.mono (h : IsGrid q t) (h' : IsGrid q' t') (hle : q ≤ q') : t ≤ t' := by
  by_contra! hlt
  rcases h.ge with hleast | hge
  · have := h'.least
    omega
  · have := pow_mul_two_zpow_le hlt
    linarith [h'.lt]

theorem IsGrid.le_of_isNearestNat (h : IsGrid q t) (hn : IsNearestNat (q / 2 ^ t) n) :
    n ≤ 2 ^ 53 := by
  refine hn.le ((div_le_iff₀ (two_zpow_pos t)).mpr ?_)
  push_cast
  exact h.lt.le

theorem IsGrid.ge_of_isNearestNat (h : IsGrid q t) (hn : IsNearestNat (q / 2 ^ t) n) :
    t = -1074 ∨ 2 ^ 52 ≤ n := by
  refine h.ge.imp_right fun hge => hn.ge ((le_div_iff₀ (two_zpow_pos t)).mpr ?_)
  push_cast
  exact hge

theorem IsNearest.mono (h : IsNearest q v) (h' : IsNearest q' v') (hle : q ≤ q') : v ≤ v' := by
  obtain ⟨t, n, hgrid, hn, rfl⟩ := h
  obtain ⟨t', n', hgrid', hn', rfl⟩ := h'
  rcases (hgrid.mono hgrid' hle).eq_or_lt with rfl | hlt
  · have hmono : n ≤ n' := hn.mono hn' (div_le_div_of_nonneg_right hle (two_zpow_pos t).le)
    exact mul_le_mul_of_nonneg_right (by exact_mod_cast hmono) (two_zpow_pos t).le
  · -- Between the two grids there is a power of two, which belongs to both of them.
    have hn53 : (n : ℚ) ≤ 2 ^ 53 := by exact_mod_cast hgrid.le_of_isNearestNat hn
    have hn52 : (2 : ℚ) ^ 52 ≤ n' := by
      rcases hgrid'.ge_of_isNearestNat hn' with hleast | hge
      · have := hgrid.least
        omega
      · exact_mod_cast hge
    calc (n : ℚ) * 2 ^ t ≤ 2 ^ 53 * 2 ^ t := mul_le_mul_of_nonneg_right hn53 (two_zpow_pos t).le
      _ ≤ 2 ^ 52 * 2 ^ t' := pow_mul_two_zpow_le hlt
      _ ≤ n' * 2 ^ t' := mul_le_mul_of_nonneg_right hn52 (two_zpow_pos t').le

theorem IsNearest.unique (h : IsNearest q v) (h' : IsNearest q v') : v = v' :=
  le_antisymm (h.mono h' le_rfl) (h'.mono h le_rfl)

/-! ### Canonical numbers -/

/-- A mantissa and an exponent as floating point numbers have them. -/
structure IsCanonical (m : ℕ) (e : ℤ) : Prop where
  least : -1074 ≤ e
  lt : m < 2 ^ 53
  ge : e = -1074 ∨ 2 ^ 52 ≤ m

theorem IsCanonical.isGrid (h : IsCanonical m e) : IsGrid (m * 2 ^ e) e where
  least := h.least
  lt := mul_lt_mul_of_pos_right (by exact_mod_cast h.lt) (two_zpow_pos e)
  ge := h.ge.imp_right fun hge =>
    mul_le_mul_of_nonneg_right (by exact_mod_cast hge) (two_zpow_pos e).le

theorem IsCanonical.isNearest (h : IsCanonical m e) : IsNearest (m * 2 ^ e) (m * 2 ^ e) := by
  refine ⟨e, m, h.isGrid, ?_, rfl⟩
  rw [mul_div_cancel_right₀ _ (two_zpow_pos e).ne']
  exact isNearestNat_self m

/-- An unpacked number with the given sign and magnitude. -/
inductive IsValue (s : Sign) : ℚ → UnpackedFloat → Prop where
  | zero : IsValue s 0 (.zero s)
  | finite {m : ℕ} {e : ℤ} (hpos : 0 < m) (h : IsCanonical m e) :
    IsValue s (m * 2 ^ e) (.finite s m e hpos)

variable {x y : UnpackedFloat}

theorem IsValue.unique (hx : IsValue s v x) (hy : IsValue s v y) : x = y := by
  have hne {m : ℕ} (hpos : 0 < m) (e : ℤ) : (m : ℚ) * 2 ^ e ≠ 0 :=
    mul_ne_zero (by exact_mod_cast hpos.ne') (two_zpow_pos e).ne'
  generalize hw : v = w at hy
  cases hx with
  | zero =>
    cases hy with
    | zero => rfl
    | finite hpos' _ => exact absurd hw.symm (hne hpos' _)
  | @finite m e hpos h =>
    cases hy with
    | zero => exact absurd hw (hne hpos e)
    | @finite m' e' hpos' h' =>
      obtain rfl : e = e' :=
        le_antisymm (h.isGrid.mono h'.isGrid hw.le) (h'.isGrid.mono h.isGrid hw.ge)
      obtain rfl : m = m' := by
        exact_mod_cast mul_right_cancel₀ (two_zpow_pos e).ne' hw
      rfl

theorem isNearest_zero : IsNearest 0 0 := by
  simpa using (IsCanonical.mk (m := 0) le_rfl (by decide) (.inl rfl)).isNearest

/-- A floating point number is not changed by rounding. -/
theorem IsValue.isNearest (h : IsValue s v x) : IsNearest v v := by
  cases h with
  | zero => exact isNearest_zero
  | finite _ h => exact h.isNearest

/-- Whole numbers with at most 53 bits before their zeros are floating point numbers. -/
theorem isNearest_natCast (hn : n < 2 ^ 53) (k : ℕ) :
    IsNearest (n * 2 ^ k : ℕ) (n * 2 ^ k : ℕ) := by
  rcases Nat.eq_zero_or_pos n with rfl | hpos
  · simpa using isNearest_zero
  · have hlog : n.log2 < 53 := (Nat.log2_lt hpos.ne').mpr hn
    obtain ⟨c, hc⟩ : ∃ c, n.log2 + c = 52 := ⟨52 - n.log2, by omega⟩
    have hlow : 2 ^ 52 ≤ n * 2 ^ c := by
      rw [← hc, Nat.pow_add]
      exact Nat.mul_le_mul_right _ (Nat.log2_self_le hpos.ne')
    have hhigh : n * 2 ^ c < 2 ^ 53 := by
      have hlt : n < 2 ^ (n.log2 + 1) := Nat.lt_log2_self
      have h53 : 53 = n.log2 + 1 + c := by omega
      rw [h53, Nat.pow_add]
      exact Nat.mul_lt_mul_of_pos_right hlt (Nat.two_pow_pos c)
    have hvalue : ((n * 2 ^ k : ℕ) : ℚ) = (n * 2 ^ c : ℕ) * 2 ^ ((k : ℤ) - c) := by
      rw [zpow_sub₀ two_ne_zero, zpow_natCast, zpow_natCast]
      push_cast
      field_simp
    rw [hvalue]
    exact (IsCanonical.mk (by omega) hhigh (.inr hlow)).isNearest

/-! ### Rounding -/

/-- Where rounding has carried into one more bit, the mantissa is a power of two, and is shifted
back without loss. -/
theorem shiftToTargetExponent_exact (hn : n ≤ 2 ^ 53) (ht : -1074 ≤ t)
    (hge : t = -1074 ∨ 2 ^ 52 ≤ n) :
    IsCanonical (shiftToTargetExponent .binary64 n t .exact).1.mantissa
        (shiftToTargetExponent .binary64 n t .exact).2 ∧
      ((shiftToTargetExponent .binary64 n t .exact).1.mantissa : ℚ) *
        2 ^ (shiftToTargetExponent .binary64 n t .exact).2 = n * 2 ^ t := by
  have htarget : Format.binary64.targetExponent (totalExponent n t) =
      max (n.log2 + 1 + t - 53) (-1074) := rfl
  rw [shiftToTargetExponent, htarget, shiftToExponent]
  dsimp only
  rw [mantissa_shiftRight]
  change IsCanonical (n / 2 ^ _) _ ∧ ((n / 2 ^ _ : ℕ) : ℚ) * _ = _
  rcases hn.lt_or_eq with hlt | rfl
  · have hlog : n.log2 < 53 := by
      by_cases hzero : n = 0
      · subst hzero
        decide
      · exact (Nat.log2_lt hzero).mpr hlt
    have hstay : (max (n.log2 + 1 + t - 53 : ℤ) (-1074) - t).toNat = 0 := by omega
    rw [hstay, Nat.pow_zero, Nat.div_one, Nat.cast_zero, add_zero]
    exact ⟨⟨ht, hlt, hge⟩, rfl⟩
  · have hcarry : (max ((2 ^ 53 : ℕ).log2 + 1 + t - 53 : ℤ) (-1074) - t).toNat = 1 := by
      rw [Nat.log2_two_pow]
      omega
    rw [hcarry]
    refine ⟨⟨by omega, by decide, .inr (by decide)⟩, ?_⟩
    rw [two_zpow_add]
    norm_num
    ring

/-- The grid on which a number is rounded that has the bits of `m` and no more in front of the
point. -/
theorem isGrid_of_bounds {k : ℕ} (hlow : m * 2 ^ e ≤ q) (hhigh : q < (m + 1) * 2 ^ e)
    (hbits : e ≤ max (m.log2 + 1 + e - 53) (-1074))
    (hk : (max (m.log2 + 1 + e - 53 : ℤ) (-1074) - e).toNat = k) : IsGrid q (e + k) := by
  refine ⟨by omega, ?_, ?_⟩
  · have hfits : m + 1 ≤ 2 ^ (53 + k) :=
      Nat.succ_le_of_lt (Nat.lt_log2_self.trans_le (Nat.pow_le_pow_right two_pos (by omega)))
    calc q < (m + 1) * 2 ^ e := hhigh
      _ ≤ 2 ^ (53 + k) * 2 ^ e :=
        mul_le_mul_of_nonneg_right (by exact_mod_cast hfits) (two_zpow_pos e).le
      _ = 2 ^ 53 * 2 ^ (e + k) := by rw [two_zpow_add, pow_add, mul_assoc]
  · by_cases hleast : e + k = -1074
    · exact .inl hleast
    · have hzero : m ≠ 0 := by
        rintro rfl
        rw [Nat.log2_zero] at hk hbits
        omega
      have hfits : 2 ^ (52 + k) ≤ m := (Nat.le_log2 hzero).mp (by omega)
      refine .inr ?_
      calc (2 : ℚ) ^ 52 * 2 ^ (e + k) = 2 ^ (52 + k) * 2 ^ e := by
            rw [two_zpow_add, pow_add, mul_assoc]
        _ ≤ m * 2 ^ e :=
          mul_le_mul_of_nonneg_right (by exact_mod_cast hfits) (two_zpow_pos e).le
        _ ≤ q := hlow

/-- Rounding gives the nearest number when there are enough bits to begin with. -/
theorem exists_roundWithAccuracy {accuracy : Accuracy}
    (hcut : IsCutOff (.ofMantissaAndAccuracy m accuracy) (q / 2 ^ e))
    (hbits : e ≤ max (m.log2 + 1 + e - 53) (-1074)) (s : Sign) :
    ∃ v, IsNearest q v ∧ IsValue s v (roundWithAccuracy .binary64 s m e accuracy) := by
  generalize hk : (max (m.log2 + 1 + e - 53 : ℤ) (-1074) - e).toNat = k
  have hmantissa : (ExtendedMantissa.ofMantissaAndAccuracy m accuracy).mantissa = m := by
    rcases accuracy with _ | (_ | _ | _) <;> rfl
  have hshift : shiftToTargetExponent .binary64 m e accuracy =
      (ExtendedMantissa.ofMantissaAndAccuracy m accuracy >>> k, e + k) := by
    rw [← hk]
    rfl
  obtain ⟨hlow, hhigh⟩ := hcut.bounds
  rw [hmantissa] at hlow hhigh
  rw [le_div_iff₀ (two_zpow_pos e)] at hlow
  rw [div_lt_iff₀ (two_zpow_pos e)] at hhigh
  have hgrid : IsGrid q (e + k) := isGrid_of_bounds hlow hhigh hbits hk
  have hnearest : IsNearestNat (q / 2 ^ (e + k))
      (ExtendedMantissa.ofMantissaAndAccuracy m accuracy >>> k).roundedMantissa := by
    have h := (hcut.shiftRight k).isNearestNat
    rwa [div_div, mul_comm, ← two_zpow_add] at h
  obtain ⟨hcanonical, hvalue⟩ := shiftToTargetExponent_exact (hgrid.le_of_isNearestNat hnearest)
    hgrid.least (hgrid.ge_of_isNearestNat hnearest)
  refine ⟨_, ⟨_, _, hgrid, hnearest, rfl⟩, ?_⟩
  rw [← hvalue, roundWithAccuracy, hshift]
  dsimp only
  split_ifs with hzero
  · rw [hzero, Nat.cast_zero, zero_mul]
    exact .zero
  · exact .finite _ hcanonical

/-! ### Operations -/

variable {s' : Sign}

theorem pow_le_shiftLeft (hm : 0 < m) (k : ℕ) : 2 ^ (m.log2 + k) ≤ m <<< k := by
  rw [Nat.shiftLeft_eq, Nat.pow_add]
  exact Nat.mul_le_mul_right _ (Nat.log2_self_le hm.ne')

/-- Numbers of which one has 53 bits have a product with enough bits, and other products are too
small to need them. -/
theorem exists_mul (hx : IsValue s v x) (hy : IsValue s' v' y) :
    ∃ w, IsNearest (v * v') w ∧ IsValue (s * s') w (UnpackedFloat.mul .binary64 x y) := by
  cases hx with
  | zero =>
    rw [zero_mul]
    cases hy <;> exact ⟨0, isNearest_zero, .zero⟩
  | @finite m e hpos h =>
    cases hy with
    | zero =>
      rw [mul_zero]
      exact ⟨0, isNearest_zero, .zero⟩
    | @finite m' e' hpos' h' =>
      have hproduct : (m : ℚ) * 2 ^ e * (m' * 2 ^ e') / 2 ^ (e + e') = (m * m' : ℕ) := by
        rw [div_eq_iff (two_zpow_pos _).ne', zpow_add₀ two_ne_zero]
        push_cast
        ring
      refine exists_roundWithAccuracy (hproduct ▸ isCutOff_exact _) ?_ _
      by_cases hsmall : e + e' ≤ -1074
      · omega
      · have hlong : 2 ^ 52 ≤ m * m' := by
          have hleast := h.least
          have hleast' := h'.least
          rcases h.ge with he | hge
          · rcases h'.ge with he' | hge'
            · omega
            · exact hge'.trans (Nat.le_mul_of_pos_left m' hpos)
          · exact hge.trans (Nat.le_mul_of_pos_right m hpos')
        have := (Nat.le_log2 (Nat.mul_pos hpos hpos').ne').mpr hlong
        omega

theorem exists_div (hx : IsValue s v x) (hy : IsValue s' v' y) (hne : v' ≠ 0) :
    ∃ w, IsNearest (v / v') w ∧ IsValue (s / s') w (UnpackedFloat.div .binary64 x y) := by
  cases hy with
  | zero => exact absurd rfl hne
  | @finite m' e' hpos' h' =>
    cases hx with
    | zero =>
      rw [zero_div]
      exact ⟨0, isNearest_zero, .zero⟩
    | @finite m e hpos h =>
      have htarget : Format.binary64.targetExponent (totalExponent m e - totalExponent m' e') =
          max (m.log2 + 1 + e - (m'.log2 + 1 + e') - 53) (-1074) := rfl
      rw [UnpackedFloat.div, divCore, htarget]
      generalize ht :
        min (e - e') (max (m.log2 + 1 + e - (m'.log2 + 1 + e') - 53 : ℤ) (-1074)) = t
      generalize hk : (e - e' - t).toNat = k
      dsimp only
      have hquotient : (m : ℚ) * 2 ^ e / (m' * 2 ^ e') / 2 ^ t = (m <<< k : ℕ) / (m' : ℕ) := by
        have he : e = e' + t + k := by omega
        rw [he, two_zpow_add, zpow_add₀ two_ne_zero, Nat.shiftLeft_eq]
        field_simp
        push_cast
        ring
      refine exists_roundWithAccuracy (hquotient ▸ isCutOff_quotient hpos' _) ?_ _
      by_cases hsmall : t ≤ -1074
      · omega
      · have hlong : 2 ^ 52 * m' ≤ m <<< k := by
          have hm' : m' < 2 ^ (m'.log2 + 1) := Nat.lt_log2_self
          calc 2 ^ 52 * m' ≤ 2 ^ 52 * 2 ^ (m'.log2 + 1) := Nat.mul_le_mul_left _ hm'.le
            _ = 2 ^ (52 + (m'.log2 + 1)) := (Nat.pow_add ..).symm
            _ ≤ 2 ^ (m.log2 + k) := Nat.pow_le_pow_right two_pos (by omega)
            _ ≤ m <<< k := pow_le_shiftLeft hpos k
        have hquot : 2 ^ 52 ≤ m <<< k / m' := (Nat.le_div_iff_mul_le hpos').mpr hlong
        have := (Nat.le_log2 (by omega)).mpr hquot
        omega

/-- A mantissa that is too short is made longer before it is rounded. -/
theorem exists_round (hm : 0 < m) (e : ℤ) (s : Sign) :
    ∃ v, IsNearest (m * 2 ^ e) v ∧ IsValue s v (UnpackedFloat.round .binary64 s m e) := by
  have htarget : Format.binary64.targetExponent (totalExponent m e) =
      max (m.log2 + 1 + e - 53) (-1074) := rfl
  rw [UnpackedFloat.round, htarget, decreaseExponent]
  generalize hk : (e - max (m.log2 + 1 + e - 53 : ℤ) (-1074)).toNat = k
  dsimp only
  have hvalue : (m : ℚ) * 2 ^ e / 2 ^ (e - k) = (m <<< k : ℕ) := by
    rw [div_eq_iff (two_zpow_pos _).ne', Nat.shiftLeft_eq]
    have he : e = e - k + k := by omega
    nth_rewrite 1 [he]
    rw [two_zpow_add]
    push_cast
    ring
  have hlong := pow_le_shiftLeft hm k
  have hlog : m.log2 + k ≤ (m <<< k).log2 :=
    (Nat.le_log2 ((Nat.two_pow_pos _).trans_le hlong).ne').mpr hlong
  exact exists_roundWithAccuracy (hvalue ▸ isCutOff_exact _) (by omega) s

end BoxArrow
