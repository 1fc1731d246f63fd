import BoxArrow.Proofs.FloatValues

/-!
# The shortest decimal determines the number

The shortest decimal of a floating point number lies in the interval of the numbers that are rounded
to it. So the number can be told from the decimal: it is the nearest one. This takes seventeen
digits at most, because the grid with seventeen digits is finer than the intervals are wide.

## Main definitions

* `BoxArrow.Decimal.value` — the number that a decimal is.
* `BoxArrow.IsWithin` — the interval around a floating point number.

## Main results

* `BoxArrow.Rounding.Interval.contains_iff` — which decimals are in an interval.
* `BoxArrow.Rounding.Interval.magnitude_spec` — what the magnitude of a number is.
* `BoxArrow.Rounding.Interval.contains_floor_or_next` — seventeen digits are enough.
* `BoxArrow.IsWithin.isNearest` — what the numbers in an interval are rounded to.
* `BoxArrow.isNearest_shortest`, `BoxArrow.digits_shortest_le`, `BoxArrow.shortest_le`.
-/

namespace BoxArrow

open Rounding

/-! ### Values of decimals -/

namespace Decimal

variable {d : Decimal}

/-- The number that a decimal is. -/
def value (d : Decimal) : ℚ :=
  d.digits * 10 ^ d.exponent

theorem ten_zpow_eq (e : ℤ) : (10 : ℚ) ^ e = 10 ^ e.toNat / 10 ^ (-e).toNat := by
  rw [← zpow_natCast, ← zpow_natCast, ← zpow_sub₀ (by norm_num)]
  congr 1
  omega

/-- Taking off zeros at the end keeps the number. -/
theorem value_strip (d : Decimal) (rounds : ℕ) : (d.strip rounds).value = d.value := by
  induction rounds generalizing d with
  | zero => rfl
  | succ rounds ih =>
    rw [strip]
    split_ifs with hzero
    · rw [Bool.and_eq_true, beq_iff_eq] at hzero
      have hdigits : (d.digits : ℚ) = (d.digits / 10 : ℕ) * 10 := by
        exact_mod_cast (Nat.div_mul_cancel (Nat.dvd_of_mod_eq_zero hzero.2)).symm
      rw [ih, value, value, hdigits, zpow_add_one₀ (by norm_num)]
      ring
    · rfl

theorem digits_strip_le (d : Decimal) (rounds : ℕ) : (d.strip rounds).digits ≤ d.digits := by
  induction rounds generalizing d with
  | zero => exact le_rfl
  | succ rounds ih =>
    rw [strip]
    split_ifs
    · exact (ih _).trans (Nat.div_le_self _ _)
    · exact le_rfl

theorem value_next (d : Decimal) : d.next.value = d.value + 10 ^ d.exponent := by
  simp only [value, next]
  push_cast
  ring

end Decimal

namespace Rounding.Interval

variable {i : Interval} {d : Decimal} {n m : ℕ} {e : ℤ}

/-- The numerators of the interval as numbers. -/
def ratio (i : Interval) (n : ℕ) : ℚ :=
  n / 2 ^ i.scale

theorem compareTo_eq (i : Interval) (n : ℕ) (d : Decimal) :
    i.compareTo n d = compare (i.ratio n) d.value := by
  have hscale : (0 : ℚ) < 2 ^ i.scale * 10 ^ (-d.exponent).toNat := by positivity
  have hleft : ((n * Nat.pow 10 (-d.exponent).toNat : ℕ) : ℚ) =
      i.ratio n * (2 ^ i.scale * 10 ^ (-d.exponent).toNat) := by
    rw [ratio]
    push_cast [Nat.pow_eq]
    field_simp
  have hright : ((d.digits * Nat.pow 10 d.exponent.toNat * Nat.pow 2 i.scale : ℕ) : ℚ) =
      d.value * (2 ^ i.scale * 10 ^ (-d.exponent).toNat) := by
    rw [Decimal.value, Decimal.ten_zpow_eq]
    push_cast [Nat.pow_eq]
    field_simp
  rw [compareTo, ← cmp_eq_compare, ← cmp_eq_compare,
    ← (Nat.strictMono_cast : StrictMono ((↑) : ℕ → ℚ)).cmp_map_eq, hleft, hright,
    cmp_mul_pos_right hscale]

/-- A decimal is in the interval when it is between the ends, or at one of them if they belong to
the interval. -/
theorem contains_iff (hle : i.low ≤ i.high) :
    i.contains d = true ↔
      i.ratio i.low < d.value ∧ d.value < i.ratio i.high ∨
        i.closed = true ∧ (d.value = i.ratio i.low ∨ d.value = i.ratio i.high) := by
  have hends : i.ratio i.low ≤ i.ratio i.high :=
    div_le_div_of_nonneg_right (by exact_mod_cast hle) (by positivity)
  rw [contains, compareTo_eq, compareTo_eq]
  generalize i.ratio i.low = a at hends ⊢
  generalize i.ratio i.high = b at hends ⊢
  generalize d.value = q
  rcases lt_trichotomy a q with hlow | rfl | hlow
  · rw [compare_lt_iff_lt.mpr hlow]
    rcases lt_trichotomy b q with hhigh | rfl | hhigh
    · rw [compare_lt_iff_lt.mpr hhigh]
      simp [hlow.ne', hhigh.ne', hhigh.le]
    · rw [compare_eq_iff_eq.mpr rfl]
      simp
    · rw [compare_gt_iff_gt.mpr hhigh]
      simp [hlow, hhigh]
  · rw [compare_eq_iff_eq.mpr rfl]
    simp
  · rw [compare_gt_iff_gt.mpr hlow, compare_gt_iff_gt.mpr (hlow.trans_le hends)]
    simp [hlow.ne, (hlow.trans_le hends).ne, hlow.le]

theorem floor_value_le (i : Interval) (e : ℤ) : (i.floor e).value ≤ i.ratio i.value := by
  have hnat := Nat.div_mul_le_self (i.value * 10 ^ (-e).toNat) (2 ^ i.scale * 10 ^ e.toNat)
  have hrat : ((i.floor e).digits : ℚ) * (2 ^ i.scale * 10 ^ e.toNat) ≤
      i.value * 10 ^ (-e).toNat := by
    exact_mod_cast hnat
  rw [Decimal.value, ratio, le_div_iff₀ (by positivity)]
  change ((i.floor e).digits : ℚ) * 10 ^ e * 2 ^ i.scale ≤ i.value
  rw [Decimal.ten_zpow_eq, mul_div_assoc', div_mul_eq_mul_div, div_le_iff₀ (by positivity)]
  linarith

theorem lt_value_next_floor (i : Interval) (e : ℤ) : i.ratio i.value < (i.floor e).next.value := by
  have hnat := Nat.lt_div_mul_add (a := i.value * 10 ^ (-e).toNat)
    (b := 2 ^ i.scale * 10 ^ e.toNat) (by positivity)
  have hrat : (i.value : ℚ) * 10 ^ (-e).toNat <
      ((i.floor e).digits + 1) * (2 ^ i.scale * 10 ^ e.toNat) := by
    rw [add_mul, one_mul]
    exact_mod_cast hnat
  rw [Decimal.value, ratio, div_lt_iff₀ (by positivity)]
  change (i.value : ℚ) < ((i.floor e).digits + 1 : ℕ) * 10 ^ e * 2 ^ i.scale
  rw [Decimal.ten_zpow_eq, mul_div_assoc', div_mul_eq_mul_div, lt_div_iff₀ (by positivity)]
  push_cast
  linarith

theorem exists_length_toDigits {q : ℕ} (hq : 0 < q) :
    ∃ l, (Nat.toDigits 10 q).length = l + 1 ∧ 10 ^ l ≤ q ∧ q + 1 ≤ 10 ^ (l + 1) := by
  obtain ⟨l, hl⟩ : ∃ l, (Nat.toDigits 10 q).length = l + 1 :=
    Nat.exists_eq_succ_of_ne_zero Nat.length_toDigits_pos.ne'
  refine ⟨l, hl, ?_, (Nat.length_toDigits_le_iff (by decide) (Nat.succ_pos l)).mp hl.le⟩
  cases l with
  | zero => exact hq
  | succ l =>
    by_contra! hlow
    have := (Nat.length_toDigits_le_iff (n := q) (by decide) (Nat.succ_pos l)).mpr hlow
    omega

/-- The magnitude of a number tells the powers of ten between which it lies. -/
theorem magnitude_spec (hi : 0 < i.value) :
    (10 : ℚ) ^ (i.magnitude - 1) ≤ i.ratio i.value ∧ i.ratio i.value < 10 ^ i.magnitude := by
  have hscale := Nat.two_pow_pos i.scale
  rw [ratio, le_div_iff₀ (by positivity), div_lt_iff₀ (by positivity), magnitude]
  dsimp only [Nat.pow_eq]
  split_ifs with hwhole
  · -- The number is less than one, and its reciprocal tells how far away the first digit is.
    have hlt : i.value < 2 ^ i.scale :=
      (Nat.div_eq_zero_iff.mp hwhole).resolve_left hscale.ne'
    generalize hq : (2 ^ i.scale - 1) / i.value = q
    have hmul : q * i.value < 2 ^ i.scale := by
      have := Nat.div_mul_le_self (2 ^ i.scale - 1) i.value
      rw [hq] at this
      omega
    have hreach : 2 ^ i.scale ≤ (q + 1) * i.value := by
      have := Nat.lt_div_mul_add (a := 2 ^ i.scale - 1) hi
      rw [hq] at this
      rw [Nat.succ_mul]
      omega
    obtain ⟨l, hl, hlow, hhigh⟩ := exists_length_toDigits (hq ▸ Nat.div_pos (by omega) hi)
    have hmag : (1 : ℤ) - (l + 1 : ℕ) = -l := by omega
    have hmag' : -(l : ℤ) - 1 = -(l + 1 : ℕ) := by omega
    rw [hl, hmag, hmag', zpow_neg, zpow_neg, zpow_natCast, zpow_natCast,
      inv_mul_le_iff₀ (by positivity), inv_mul_eq_div, lt_div_iff₀' (by positivity)]
    exact ⟨by exact_mod_cast hreach.trans (Nat.mul_le_mul_right _ hhigh),
      by exact_mod_cast (Nat.mul_le_mul_right _ hlow).trans_lt hmul⟩
  · generalize hq : i.value / 2 ^ i.scale = q at hwhole ⊢
    have hmul : q * 2 ^ i.scale ≤ i.value := hq ▸ Nat.div_mul_le_self _ _
    have hreach : i.value < (q + 1) * 2 ^ i.scale := by
      rw [Nat.succ_mul, ← hq]
      exact Nat.lt_div_mul_add hscale
    obtain ⟨l, hl, hlow, hhigh⟩ := exists_length_toDigits (Nat.pos_of_ne_zero hwhole)
    have hmag : ((l + 1 : ℕ) : ℤ) - 1 = l := by omega
    rw [hl, hmag, zpow_natCast, zpow_natCast]
    exact ⟨by exact_mod_cast (Nat.mul_le_mul_right _ hlow).trans hmul,
      by exact_mod_cast hreach.trans_le (Nat.mul_le_mul_right _ hhigh)⟩

/-- On the grid with so many places, a number has at most so many digits. -/
theorem digits_floor_lt (hi : 0 < i.value) (places : ℕ) :
    (i.floor (i.magnitude - places)).digits < 10 ^ places := by
  have hlt := (floor_value_le i (i.magnitude - places)).trans_lt (magnitude_spec hi).2
  have hpow : (10 : ℚ) ^ i.magnitude = 10 ^ places * 10 ^ (i.magnitude - places) := by
    rw [← zpow_natCast, ← zpow_add₀ (by norm_num), add_sub_cancel]
  rw [hpow] at hlt
  exact_mod_cast lt_of_mul_lt_mul_right hlt (by positivity)

/-! ### Around a floating point number -/

variable {narrow : Bool}

theorem ratio_unit (m k : ℕ) (e : ℤ) (narrow : Bool) :
    (around m e narrow).ratio (k * Nat.pow 2 (e - 2).toNat) = k / 4 * 2 ^ e := by
  change ((k * Nat.pow 2 (e - 2).toNat : ℕ) : ℚ) / 2 ^ (2 - e).toNat = k / 4 * 2 ^ e
  have hpow : (2 : ℚ) ^ e = 4 * (2 ^ (e - 2).toNat / 2 ^ (2 - e).toNat) := by
    rw [← zpow_natCast, ← zpow_natCast, ← zpow_sub₀ two_ne_zero]
    have he : e = 2 + (((e - 2).toNat : ℤ) - (2 - e).toNat) := by omega
    nth_rewrite 1 [he]
    rw [zpow_add₀ two_ne_zero]
    norm_num
  rw [hpow]
  push_cast [Nat.pow_eq]
  ring

theorem ratio_value (m : ℕ) (e : ℤ) (narrow : Bool) :
    (around m e narrow).ratio (around m e narrow).value = m * 2 ^ e := by
  refine (ratio_unit m (4 * m) e narrow).trans ?_
  push_cast
  ring

theorem ratio_high (m : ℕ) (e : ℤ) (narrow : Bool) :
    (around m e narrow).ratio (around m e narrow).high = (m + 1 / 2) * 2 ^ e := by
  refine (ratio_unit m (4 * m + 2) e narrow).trans ?_
  push_cast
  ring

theorem ratio_low (hm : 0 < m) (e : ℤ) (narrow : Bool) :
    (around m e narrow).ratio (around m e narrow).low =
      (m - if narrow then 1 / 4 else 1 / 2) * 2 ^ e := by
  refine (ratio_unit m (4 * m - if narrow then 1 else 2) e narrow).trans ?_
  have hle : (if narrow then 1 else 2) ≤ 4 * m := by split_ifs <;> omega
  rw [Nat.cast_sub hle]
  split_ifs <;> push_cast <;> ring

theorem value_around_pos (hm : 0 < m) (e : ℤ) (narrow : Bool) : 0 < (around m e narrow).value :=
  Nat.mul_pos (by omega) (Nat.two_pow_pos _)

/-- Seventeen digits are enough: on their grid the number has a neighbour that is in its
interval. -/
theorem contains_floor_or_next (hm : 0 < m) (hlt : m < 2 ^ 53)
    (hnarrow : narrow = true → m = 2 ^ 52)
    (hd : d = (around m e narrow).floor ((around m e narrow).magnitude - 17)) :
    (around m e narrow).contains d = true ∨ (around m e narrow).contains d.next = true := by
  have hle : (around m e narrow).low ≤ (around m e narrow).high :=
    Nat.mul_le_mul_right _ (by split_ifs <;> omega)
  have hbelow := floor_value_le (around m e narrow) ((around m e narrow).magnitude - 17)
  have habove := lt_value_next_floor (around m e narrow) ((around m e narrow).magnitude - 17)
  have hgrid := (magnitude_spec (value_around_pos hm e narrow)).1
  rw [← hd] at hbelow habove
  have hexponent : (10 : ℚ) ^ d.exponent * 10 ^ 16 = 10 ^ ((around m e narrow).magnitude - 1) := by
    have he : (around m e narrow).magnitude - 1 = d.exponent + (16 : ℕ) := by
      rw [hd]
      change _ = (around m e narrow).magnitude - 17 + (16 : ℕ)
      omega
    rw [he, zpow_add₀ (by norm_num), zpow_natCast]
  rw [ratio_value] at hbelow habove hgrid
  rw [contains_iff hle, contains_iff hle, ratio_low hm, ratio_high]
  rw [d.value_next] at habove ⊢
  have hunit := two_zpow_pos e
  have hbound : (m : ℚ) * 2 ^ e ≤ 2 ^ 53 * 2 ^ e :=
    mul_le_mul_of_nonneg_right (by exact_mod_cast hlt.le) hunit.le
  by_contra hnone
  obtain ⟨hbelow', habove'⟩ := not_or.mp hnone
  have hfirst : d.value ≤ (m - if narrow then 1 / 4 else 1 / 2) * 2 ^ e := by
    by_contra! hlow
    exact hbelow' (.inl ⟨hlow, by linarith⟩)
  have hlast : (m + 1 / 2) * 2 ^ e ≤ d.value + 10 ^ d.exponent := by
    by_contra! hhigh
    refine habove' (.inl ⟨?_, hhigh⟩)
    split_ifs <;> linarith
  cases narrow with
  | true =>
    have hpow : (m : ℚ) * 2 ^ e = 2 ^ 52 * 2 ^ e := by
      rw [hnarrow rfl]
      push_cast
      rfl
    rw [if_pos rfl] at hfirst
    linarith
  | false =>
    rw [if_neg Bool.false_ne_true] at hfirst
    linarith

end Rounding.Interval

/-! ### Decimals in the interval -/

namespace Decimal

variable {i : Interval} {d : Decimal} {places : ℕ}

/-- What is chosen on a grid is in the interval, and it is the decimal below the number or the next
one. -/
theorem atPlaces_eq_some (h : atPlaces i places = some d) :
    i.contains d = true ∧
      (d = i.floor (i.magnitude - places) ∨ d = (i.floor (i.magnitude - places)).next) := by
  rw [atPlaces] at h
  split at h
  · next hbelow hnext =>
    obtain rfl := Option.some.inj h
    rw [nearer]
    split
    · exact ⟨hbelow, .inl rfl⟩
    · exact ⟨hnext, .inr rfl⟩
    · split_ifs
      · exact ⟨hbelow, .inl rfl⟩
      · exact ⟨hnext, .inr rfl⟩
  · next hbelow _ =>
    obtain rfl := Option.some.inj h
    exact ⟨hbelow, .inl rfl⟩
  · next hnext =>
    obtain rfl := Option.some.inj h
    exact ⟨hnext, .inr rfl⟩
  · exact absurd h nofun

theorem digits_le_of_atPlaces (hi : 0 < i.value) (h : atPlaces i places = some d) :
    d.digits ≤ 10 ^ places := by
  have hfloor := i.digits_floor_lt hi places
  obtain ⟨-, rfl | rfl⟩ := atPlaces_eq_some h
  · exact hfloor.le
  · exact hfloor

theorem atPlaces_ne_none
    (h : i.contains (i.floor (i.magnitude - places)) = true ∨
      i.contains (i.floor (i.magnitude - places)).next = true) : atPlaces i places ≠ none := by
  rw [atPlaces]
  rcases h with h | h
  · rw [h]
    split <;> simp_all
  · rw [h]
    split <;> simp_all

/-- The shortest decimal has at most seventeen digits, and is as large as one in the interval. -/
theorem exists_shortest {m : ℕ} {e : ℤ} {narrow : Bool} (hm : 0 < m) (hlt : m < 2 ^ 53)
    (hnarrow : narrow = true → m = 2 ^ 52) :
    ∃ d, (Interval.around m e narrow).contains d = true ∧
      (shortest (.around m e narrow)).value = d.value ∧
      (shortest (.around m e narrow)).digits ≤ 10 ^ 17 := by
  have hi := Interval.value_around_pos hm e narrow
  obtain ⟨d, hd⟩ : ∃ d, (List.range' 1 17).findSome? (atPlaces (.around m e narrow)) = some d := by
    rw [← Option.isSome_iff_exists, List.findSome?_isSome_iff]
    have hlast := atPlaces_ne_none
      (Interval.contains_floor_or_next (e := e) hm hlt hnarrow rfl)
    exact ⟨17, by decide, Option.isSome_iff_ne_none.mpr hlast⟩
  obtain ⟨p, hp, hchosen⟩ := List.exists_of_findSome?_eq_some hd
  have hplaces : p ≤ 17 := by
    rw [List.mem_range'_1] at hp
    omega
  have hstrip : shortest (.around m e narrow) = d.strip 17 := by
    rw [shortest, hd]
    rfl
  refine ⟨d, (atPlaces_eq_some hchosen).1, ?_, ?_⟩
  · rw [hstrip, value_strip]
  · rw [hstrip]
    exact (digits_strip_le d 17).trans ((digits_le_of_atPlaces hi hchosen).trans
      (Nat.pow_le_pow_right (by decide) hplaces))

end Decimal

/-! ### Nearest floating point numbers -/

/-- The number `q` is in the interval around `m * 2 ^ e`, and at an end of it only if `m` is
even. -/
structure IsWithin (q : ℚ) (m : ℕ) (e : ℤ) (narrow : Bool) : Prop where
  low : (m - if narrow then 1 / 4 else 1 / 2) * 2 ^ e ≤ q
  high : q ≤ (m + 1 / 2) * 2 ^ e
  even : q = (m - if narrow then 1 / 4 else 1 / 2) * 2 ^ e ∨ q = (m + 1 / 2) * 2 ^ e → m % 2 = 0

variable {m : ℕ} {e : ℤ} {narrow : Bool} {q : ℚ} {x : Float}

theorem isWithin_of_contains {d : Decimal} (hm : 0 < m)
    (hd : (Interval.around m e narrow).contains d = true) : IsWithin d.value m e narrow := by
  have hle : (Interval.around m e narrow).low ≤ (Interval.around m e narrow).high :=
    Nat.mul_le_mul_right _ (by split_ifs <;> omega)
  have hunit := two_zpow_pos e
  have hclosed (h : (Interval.around m e narrow).closed = true) : m % 2 = 0 := by
    simpa [Interval.around] using h
  rw [Interval.contains_iff hle, Interval.ratio_low hm, Interval.ratio_high] at hd
  rcases hd with ⟨hlow, hhigh⟩ | ⟨hends, hq⟩
  · exact ⟨hlow.le, hhigh.le, fun hq => (hq.elim hlow.ne' hhigh.ne).elim⟩
  · refine ⟨?_, ?_, fun _ => hclosed hends⟩ <;> rcases hq with hq | hq <;> rw [hq] <;>
      split_ifs <;> linarith

/-- A number on the grid of `m * 2 ^ e` is rounded there. -/
theorem IsWithin.isNearest_of_isGrid (h : IsWithin q m e narrow)
    (hnarrow : narrow = true ↔ m = 2 ^ 52 ∧ e ≠ -1074) (hgrid : IsGrid q e) :
    IsNearest q (m * 2 ^ e) := by
  have hunit := two_zpow_pos e
  have hlow := h.low
  have hhalf : ((m : ℚ) - 1 / 2) * 2 ^ e ≤ q := by
    split_ifs at hlow <;> linarith
  refine ⟨e, m, hgrid, ⟨?_, ?_, ?_⟩, rfl⟩
  · rw [← sub_le_iff_le_add, le_div_iff₀ hunit]
    exact hhalf
  · rw [div_le_iff₀ hunit]
    exact h.high
  · rintro (heq | heq)
    · have hq : q = (m - 1 / 2) * 2 ^ e := by
        rw [heq]
        field_simp
        ring
      cases narrow with
      | true =>
        obtain ⟨rfl, hne⟩ := hnarrow.mp rfl
        have hge := hgrid.ge.resolve_left hne
        push_cast at hq
        linarith
      | false => exact h.even (.inl hq)
    · exact h.even (.inr ((div_eq_iff hunit.ne').mp heq))

/-- Below a power of two the grid is finer than that of the power itself. -/
theorem IsWithin.isNearest_of_lt (h : IsWithin q (2 ^ 52) e true) (he : -1074 < e)
    (hlt : q < 2 ^ 52 * 2 ^ e) : IsNearest q ((2 ^ 52 : ℕ) * 2 ^ e) := by
  have hstep : (2 : ℚ) ^ e = 2 * 2 ^ (e - 1) := by
    rw [mul_comm, ← zpow_add_one₀ two_ne_zero, sub_add_cancel]
  have hfiner := two_zpow_pos (e - 1)
  have hlow := h.low
  rw [if_pos rfl, hstep] at hlow
  rw [hstep] at hlt
  push_cast at hlow
  refine ⟨e - 1, 2 ^ 53, ⟨by omega, by linarith, .inr (by linarith)⟩, ⟨?_, ?_, ?_⟩, ?_⟩
  · rw [← sub_le_iff_le_add, le_div_iff₀ hfiner]
    push_cast
    linarith
  · rw [div_le_iff₀ hfiner]
    push_cast
    linarith
  · exact fun _ => by decide
  · rw [hstep]
    push_cast
    ring

/-- To every number in the interval around a floating point number, that number is nearest. -/
theorem IsWithin.isNearest (h : IsWithin q m e narrow) (hcanonical : IsCanonical m e)
    (hnarrow : narrow = true ↔ m = 2 ^ 52 ∧ e ≠ -1074) : IsNearest q (m * 2 ^ e) := by
  have hunit := two_zpow_pos e
  have hleast := hcanonical.least
  have hlow := h.low
  have hhigh := h.high
  have hless : ((m : ℚ) + 1) * 2 ^ e ≤ 2 ^ 53 * 2 ^ e :=
    mul_le_mul_of_nonneg_right (by exact_mod_cast hcanonical.lt) hunit.le
  by_cases hgrid : e = -1074 ∨ 2 ^ 52 * 2 ^ e ≤ q
  · exact h.isNearest_of_isGrid hnarrow ⟨hleast, by linarith, hgrid⟩
  · obtain ⟨hne, hlt⟩ := not_or.mp hgrid
    rw [not_le] at hlt
    have hge := hcanonical.ge.resolve_left hne
    obtain rfl : m = 2 ^ 52 := by
      by_contra hlarge
      have hmore : 2 ^ 52 + 1 ≤ m := by omega
      have hcast : ((2 : ℚ) ^ 52 + 1) * 2 ^ e ≤ m * 2 ^ e :=
        mul_le_mul_of_nonneg_right (by exact_mod_cast hmore) hunit.le
      split_ifs at hlow <;> linarith
    obtain rfl : narrow = true := hnarrow.mpr ⟨rfl, hne⟩
    exact h.isNearest_of_lt (by omega) hlt

/-- The interval of every number but the greatest one ends below this bound. -/
theorem IsWithin.le_of_ne (h : IsWithin q m e narrow) (hm : m < 2 ^ 53) (he : e ≤ 971)
    (hne : ¬(m = 2 ^ 53 - 1 ∧ e = 971)) : q ≤ ((2 ^ 54 - 3) * 2 ^ 970 : ℕ) := by
  have hbound : (2 : ℚ) ^ 53 * 2 ^ (970 : ℤ) ≤ (2 ^ 54 - 3) * 2 ^ (970 : ℤ) :=
    mul_le_mul_of_nonneg_right (by norm_num) (two_zpow_pos _).le
  have hcast : (((2 ^ 54 - 3) * 2 ^ 970 : ℕ) : ℚ) = (2 ^ 54 - 3) * 2 ^ (970 : ℤ) := by
    have hpow : (2 : ℚ) ^ (970 : ℤ) = 2 ^ 970 := zpow_natCast 2 970
    rw [hpow, Nat.cast_mul, Nat.cast_pow]
    norm_num
  rw [hcast]
  refine h.high.trans ?_
  rcases he.lt_or_eq with hlt | rfl
  · have hless : (m : ℚ) + 1 ≤ 2 ^ 53 := by exact_mod_cast hm
    calc ((m : ℚ) + 1 / 2) * 2 ^ e ≤ 2 ^ 53 * 2 ^ (970 : ℤ) :=
          mul_le_mul (by linarith) (two_zpow_le (by omega)) (two_zpow_pos e).le (by positivity)
      _ ≤ (2 ^ 54 - 3) * 2 ^ (970 : ℤ) := hbound
  · have hless : m + 2 ≤ 2 ^ 53 := by omega
    have hcast' : (m : ℚ) + 2 ≤ 2 ^ 53 := by exact_mod_cast hless
    have hstep : (2 : ℚ) ^ (971 : ℤ) = 2 * 2 ^ (970 : ℤ) := by
      rw [mul_comm, ← zpow_add_one₀ two_ne_zero]
      rfl
    rw [hstep, ← mul_assoc]
    exact mul_le_mul_of_nonneg_right (by linarith) (two_zpow_pos _).le

/-! ### Numbers by their bits -/

theorem ofBits_eq (x : Float) : Interval.ofBits x.toBits = .around (mantissaOf x) (exponentOf x)
    (decide (mantissaOf x = 2 ^ 52 ∧ exponentOf x ≠ -1074)) := by
  have hfield : (x.toBits >>> 52 &&& 0x7ff).toNat = exponentField x := rfl
  have hmantissa : (x.toBits &&& 0xfffffffffffff).toNat < 2 ^ 52 := by
    rw [UInt64.toNat_and]
    exact Nat.and_lt_two_pow _ (by decide)
  rw [Interval.ofBits, mantissaOf, exponentOf]
  dsimp only [Nat.pow_eq]
  rw [hfield]
  split_ifs with hzero
  · congr 1
    exact (decide_eq_false (by omega)).symm
  · congr 1
    rw [Bool.eq_iff_iff, Bool.and_eq_true, beq_iff_eq, bne_iff_ne, decide_eq_true_iff]
    omega

/-- Only the two zeros have the mantissa zero. -/
theorem mantissaOf_pos (hzero : (x == 0) = false) : 0 < mantissaOf x := by
  rw [mantissaOf]
  split_ifs with hexponent
  · refine Nat.pos_of_ne_zero fun hmantissa => ?_
    rw [beq_zero_of_bits hexponent hmantissa] at hzero
    cases hzero
  · omega

theorem exists_isWithin_shortest (hzero : (x == 0) = false) :
    ∃ narrow, (narrow = true ↔ mantissaOf x = 2 ^ 52 ∧ exponentOf x ≠ -1074) ∧
      IsWithin (Decimal.shortest (.ofBits x.toBits)).value (mantissaOf x) (exponentOf x) narrow ∧
      (Decimal.shortest (.ofBits x.toBits)).digits ≤ 10 ^ 17 := by
  have hm := mantissaOf_pos hzero
  rw [ofBits_eq]
  have hnarrow (h : decide (mantissaOf x = 2 ^ 52 ∧ exponentOf x ≠ -1074) = true) :
      mantissaOf x = 2 ^ 52 := (of_decide_eq_true h).1
  obtain ⟨d, hd, hvalue, hdigits⟩ :=
    Decimal.exists_shortest (e := exponentOf x) hm (isCanonical_parts x).lt hnarrow
  exact ⟨_, decide_eq_true_iff, hvalue ▸ isWithin_of_contains hm hd, hdigits⟩

theorem digits_shortest_pos (hzero : (x == 0) = false) :
    0 < (Decimal.shortest (.ofBits x.toBits)).digits := by
  obtain ⟨narrow, -, hwithin, -⟩ := exists_isWithin_shortest hzero
  have hm : (1 : ℚ) ≤ mantissaOf x := by exact_mod_cast mantissaOf_pos hzero
  have hlow : (0 : ℚ) < (mantissaOf x - if narrow then 1 / 4 else 1 / 2) * 2 ^ exponentOf x :=
    mul_pos (by split_ifs <;> linarith) (two_zpow_pos _)
  have hpos := hlow.trans_le hwithin.low
  rw [Decimal.value] at hpos
  exact_mod_cast pos_of_mul_pos_left hpos (by positivity)

theorem digits_shortest_le (hzero : (x == 0) = false) :
    (Decimal.shortest (.ofBits x.toBits)).digits ≤ 10 ^ 17 := by
  obtain ⟨_, -, -, hdigits⟩ := exists_isWithin_shortest hzero
  exact hdigits

/-- The number that is nearest to its shortest decimal is the number itself. -/
theorem isNearest_shortest (hzero : (x == 0) = false) :
    IsNearest (Decimal.shortest (.ofBits x.toBits)).value (mantissaOf x * 2 ^ exponentOf x) := by
  obtain ⟨_, hnarrow, hwithin, -⟩ := exists_isWithin_shortest hzero
  exact hwithin.isNearest (isCanonical_parts x) hnarrow

/-- The shortest decimal of every number but the greatest one is below this bound. -/
theorem shortest_le (hzero : (x == 0) = false) (hx : x.isFinite = true)
    (hne : ¬(mantissaOf x = 2 ^ 53 - 1 ∧ exponentOf x = 971)) :
    (Decimal.shortest (.ofBits x.toBits)).value ≤ ((2 ^ 54 - 3) * 2 ^ 970 : ℕ) := by
  obtain ⟨_, -, hwithin, -⟩ := exists_isWithin_shortest hzero
  exact hwithin.le_of_ne (isCanonical_parts x).lt (exponentOf_le hx) hne

/-- The shortest decimal of the greatest number. -/
theorem shortest_greatest (hm : mantissaOf x = 2 ^ 53 - 1) (he : exponentOf x = 971) :
    Decimal.shortest (.ofBits x.toBits) = ⟨17976931348623157, 292⟩ := by
  rw [ofBits_eq, hm, he]
  decide +kernel

end BoxArrow
