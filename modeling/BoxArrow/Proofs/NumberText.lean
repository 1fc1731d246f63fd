import BoxArrow.Proofs.JsonText
import BoxArrow.Proofs.Lexemes
import BoxArrow.Proofs.ShortestDecimals

/-!
# Written numbers are numerals

The text of a finite number is a numeral, and what is read of a numeral depends on the integer of
its digits and on its exponent alone. For the text of a number these two are the digits and the
exponent of its shortest decimal, unless all digits stand before the point: then they are written
out, with one more zero behind the point.

## Main definitions

* `BoxArrow.Numeral.Scales` — the integer that a numeral is read as, and the power of ten.
* `BoxArrow.Decimal.written` — the integer and the power of ten in the text of a decimal.
* `BoxArrow.Json.IsDigits`, `BoxArrow.Json.IsWhole` — what may stand before a decimal point.
* `BoxArrow.Json.ReadsNumeral` — texts that are numerals, with or without a sign.

## Main results

* `BoxArrow.Numeral.Scales.value_eq` — what a numeral is read as.
* `BoxArrow.Json.exists_readsNumeral_layout` — the text of a decimal is a numeral.
* `BoxArrow.Json.readsBackAs_of_scale` — what the text of a number is read as.
-/

namespace BoxArrow

/-! ### Numerals -/

namespace Numeral

/-- Appends a digit to a number. -/
def shift (n d : Nat) : Nat :=
  10 * n + d

theorem le_foldl_shift (n : Nat) (ds : List Nat) : n ≤ ds.foldl shift n := by
  induction ds generalizing n with
  | nil => exact Nat.le_refl n
  | cons d ds ih => exact Nat.le_trans (by rw [shift]; omega) (ih (shift n d))

/-- Digits that fit are gathered all. -/
theorem gather_eq {n : Nat} {ds : List Nat} (h : ds.foldl shift n < 2 ^ 64) :
    gather n ds = (ds.foldl shift n, []) := by
  induction ds generalizing n with
  | nil => rfl
  | cons d ds ih =>
    have hfits : 10 * n + d < Nat.pow 2 64 := (le_foldl_shift (shift n d) ds).trans_lt h
    rw [gather, if_pos hfits]
    exact ih h

theorem digitsValue_append_zeros (ds : List Nat) (k : Nat) :
    digitsValue (ds ++ List.replicate k 0) = digitsValue ds * 10 ^ k := by
  induction k with
  | zero => rw [List.replicate_zero, List.append_nil, Nat.pow_zero, Nat.mul_one]
  | succ k ih =>
    rw [digitsValue, List.replicate_succ', ← List.append_assoc, List.foldl_concat, ← digitsValue,
      ih, Nat.pow_succ]
    ring

theorem digitsValue_zeros_append (k : Nat) (ds : List Nat) :
    digitsValue (List.replicate k 0 ++ ds) = digitsValue ds := by
  induction k with
  | zero => rfl
  | succ k ih => exact ih

/-- The digits of a numeral are those of an integer, which is scaled by a power of ten. -/
structure Scales (n : Numeral) (significand : Nat) (exponent : Int) : Prop where
  digits : digitsValue (n.whole ++ n.fraction) = significand
  exponent : exponentValue n.exponent - n.fraction.length = exponent
  isFloat : n.fraction ≠ [] ∨ n.exponent ≠ none

variable {n : Numeral} {significand : Nat} {exponent : Int}

theorem Scales.floatValue_eq (h : n.Scales significand exponent) (hfits : significand < 2 ^ 64) :
    n.floatValue = (scale significand exponent).map fun x => if n.negative then -x else x := by
  have hall : n.fraction.foldl shift (n.whole.foldl shift 0) = significand := by
    rw [← List.foldl_append]
    exact h.digits
  have hwhole : gather 0 n.whole = (n.whole.foldl shift 0, []) :=
    gather_eq ((le_foldl_shift _ n.fraction).trans_lt (hall ▸ hfits))
  have hfraction : gather (n.whole.foldl shift 0) n.fraction = (significand, []) := by
    rw [gather_eq (hall ▸ hfits), hall]
  have hexponent : (0 : Int) - (n.fraction.length : Nat) + exponentValue n.exponent = exponent := by
    rw [← h.exponent]
    omega
  rw [floatValue, hwhole]
  dsimp only
  rw [hfraction]
  dsimp only
  rw [List.length_nil, Nat.sub_zero, Nat.cast_zero, hexponent]

/-- What a numeral with a fraction or an exponent is read as. -/
theorem Scales.value_eq (h : n.Scales significand exponent) (hfits : significand < 2 ^ 64) :
    n.value = (scale significand exponent).map
      fun x => .float (if n.negative then -x else x) := by
  rw [value]
  split
  · next hfraction hexponent _ =>
    rcases h.isFloat with hne | hne
    · exact absurd hfraction hne
    · exact absurd hexponent hne
  · rw [h.floatValue_eq hfits, Option.map_map]
    rfl

end Numeral

namespace Json

open Reader

variable {ds ws tail mid rest : List Char}

/-! ### Digits -/

/-- The values of digits. -/
def digitValues (ds : List Char) : List Nat :=
  ds.map fun c => c.toNat - '0'.toNat

/-- The text is a row of digits. -/
structure IsDigits (ds : List Char) : Prop where
  ne_nil : ds ≠ []
  isDigit : ∀ c ∈ ds, c.isDigit = true

/-- The text is a row of digits that may stand before a decimal point. -/
structure IsWhole (ds : List Char) : Prop extends IsDigits ds where
  head_ne : ds.head? ≠ some '0' ∨ ds.length = 1

theorem IsDigits.append (h : IsDigits ds) (hmore : ∀ c ∈ tail, c.isDigit = true) :
    IsDigits (ds ++ tail) where
  ne_nil := List.append_ne_nil_of_left_ne_nil h.ne_nil _
  isDigit := List.forall_mem_append.mpr ⟨h.isDigit, hmore⟩

theorem isWhole_singleton {c : Char} (hc : c.isDigit = true) : IsWhole [c] where
  ne_nil := List.cons_ne_nil c []
  isDigit := List.forall_mem_singleton.mpr hc
  head_ne := .inr rfl

/-- What stands before or behind the point where there is nothing else. -/
theorem isWhole_zero : IsWhole ['0'] :=
  isWhole_singleton rfl

theorem isDigits_toDigits (n : Nat) : IsDigits (Nat.toDigits 10 n) where
  ne_nil := Nat.toDigits_ne_nil
  isDigit := isDigit_toDigits n

/-- The first digit of a positive number is not zero. -/
theorem head?_toDigits_ne {n : Nat} (hn : 0 < n) : (Nat.toDigits 10 n).head? ≠ some '0' := by
  induction n using Nat.strongRecOn with
  | ind n ih =>
    rcases Nat.lt_or_ge n 10 with hlt | hge
    · have hall : ∀ n < 10, 0 < n → some (Nat.digitChar n) ≠ some '0' := by decide
      rw [Nat.toDigits_of_lt_base hlt]
      exact hall n hlt hn
    · rw [Nat.toDigits_of_base_le (by decide) hge,
        List.head?_append_of_ne_nil _ Nat.toDigits_ne_nil]
      exact ih (n / 10) (by omega) (by omega)

theorem digits_append (h : IsDigits ds) (hrest : rest.takeWhile Char.isDigit = []) :
    digits (ds ++ rest) = some (digitValues ds, rest) := by
  have hrun : Reader.span1 Char.isDigit (ds ++ rest) = some (String.ofList ds, rest) := by
    rw [span1_eq_some, String.toList_ofList]
    exact ⟨h.ne_nil, rfl, h.isDigit, hrest⟩
  rw [digits, bind_of_some hrun, String.toList_ofList]
  rfl

theorem wholeDigits_append (h : IsWhole ds) (hrest : rest.takeWhile Char.isDigit = []) :
    wholeDigits (ds ++ rest) = some (digitValues ds, rest) := by
  refine filterMap_eq_some.mpr ⟨_, digits_append h.toIsDigits hrest, if_neg ?_⟩
  rintro ⟨hzero, hlength⟩
  rw [digitValues, List.length_map] at hlength
  rcases h.head_ne with hne | hone
  · obtain ⟨c, cs, rfl⟩ := List.exists_cons_of_ne_nil h.ne_nil
    have hc := Char.isDigit_iff_toNat.mp (h.isDigit c List.mem_cons_self)
    have hvalue : c.toNat - '0'.toNat = 0 := Option.some.inj hzero
    have hlow : '0'.toNat ≤ c.toNat := hc.1
    exact hne (congrArg some (Char.toNat_inj.mp (by omega)))
  · exact hlength hone

/-! ### The parts of a numeral -/

/-- A sign, where there is one. -/
def signText (negative : Bool) : List Char :=
  if negative then ['-'] else []

/-- The text is a numeral with the parts of `n`, and so it is after a minus sign. -/
def ReadsNumeral (cs : List Char) (n : Numeral) : Prop :=
  ∀ negative, numeral (signText negative ++ cs) = some ({ n with negative := negative }, [])

theorem readsNumeral_append (hws : IsWhole ws) (htail : tail.takeWhile Char.isDigit = [])
    {fraction : Option (List Nat)} {exponent : Option (Bool × List Nat)}
    (hfraction : Reader.optional fractionPart tail = some (fraction, mid))
    (hexponent : Reader.optional exponentPart mid = some (exponent, [])) :
    ReadsNumeral (ws ++ tail) ⟨false, digitValues ws, fraction.getD [], exponent⟩ := by
  intro negative
  have hsign : Reader.optional (.literal "-") (signText negative ++ (ws ++ tail)) =
      some (if negative then some () else none, ws ++ tail) := by
    cases negative with
    | true => exact optional_of_some (literal_cons rfl _)
    | false =>
      obtain ⟨c, cs, rfl⟩ := List.exists_cons_of_ne_nil hws.ne_nil
      refine optional_of_none (literal_cons_of_ne rfl ?_ _)
      rintro rfl
      exact absurd (hws.isDigit '-' List.mem_cons_self) (by decide)
  rw [numeral, bind_of_some hsign, bind_of_some (wholeDigits_append hws htail),
    bind_of_some hfraction, bind_of_some hexponent]
  cases negative <;> rfl

theorem fractionPart_point (h : IsDigits ds) (hrest : rest.takeWhile Char.isDigit = []) :
    fractionPart ('.' :: (ds ++ rest)) = some (digitValues ds, rest) := by
  rw [fractionPart, bind_of_some (literal_cons rfl _)]
  exact digits_append h hrest

/-- A numeral without an exponent. -/
theorem readsNumeral_point (hws : IsWhole ws) (hds : IsDigits ds) :
    ReadsNumeral (ws ++ '.' :: ds) ⟨false, digitValues ws, digitValues ds, none⟩ := by
  have hfraction : fractionPart ('.' :: (ds ++ [])) = some (digitValues ds, []) :=
    fractionPart_point hds rfl
  rw [List.append_nil] at hfraction
  exact readsNumeral_append hws rfl (optional_of_some hfraction) rfl

/-- An exponent as it is written. -/
def exponentText (e : Int) : List Char :=
  'e' :: (if e < 0 then '-' else '+') :: Nat.toDigits 10 e.natAbs

theorem digitsValue_toDigits (n : Nat) :
    Numeral.digitsValue (digitValues (Nat.toDigits 10 n)) = n := by
  rw [Numeral.digitsValue, digitValues, List.foldl_map]
  exact Nat.ofDigitChars_ten_toDigits

/-- An exponent is read as what it is. -/
theorem exists_exponentPart (e : Int) :
    ∃ p, exponentPart (exponentText e) = some (p, []) ∧ Numeral.exponentValue (some p) = e := by
  have hdigits : digits (Nat.toDigits 10 e.natAbs ++ []) =
      some (digitValues (Nat.toDigits 10 e.natAbs), []) :=
    digits_append (isDigits_toDigits e.natAbs) rfl
  rw [List.append_nil] at hdigits
  have hletter (cs : List Char) :
      Reader.one (fun c => c == 'e' || c == 'E') ('e' :: cs) = some ('e', cs) := rfl
  rw [exponentText]
  split_ifs with hnegative
  · refine ⟨(true, digitValues (Nat.toDigits 10 e.natAbs)), ?_, ?_⟩
    · rw [exponentPart, bind_of_some (hletter _), bind_of_some (optional_of_some rfl),
        bind_of_some hdigits]
      rfl
    · rw [Numeral.exponentValue, digitsValue_toDigits]
      omega
  · refine ⟨(false, digitValues (Nat.toDigits 10 e.natAbs)), ?_, ?_⟩
    · rw [exponentPart, bind_of_some (hletter _), bind_of_some (optional_of_some rfl),
        bind_of_some hdigits]
      rfl
    · rw [Numeral.exponentValue, digitsValue_toDigits]
      omega

@[simp]
theorem length_digitValues (ds : List Char) : (digitValues ds).length = ds.length :=
  List.length_map _

theorem digitValues_append (ds tail : List Char) :
    digitValues (ds ++ tail) = digitValues ds ++ digitValues tail :=
  List.map_append

theorem digitValues_replicate_zero (k : Nat) :
    digitValues (List.replicate k '0') = List.replicate k 0 :=
  List.map_replicate

end Json

/-! ### The text of a decimal -/

/-- What is read of the text of a decimal: where the digits are written out up to the point, the
zeros before and behind the point are digits too. -/
def Decimal.written (d : Decimal) : Decimal :=
  if (-5 ≤ d.leading ∧ d.leading ≤ 15) ∧ 0 ≤ d.exponent then
    ⟨d.digits * 10 ^ (d.exponent.toNat + 1), -1⟩
  else d

namespace Json

open Reader

variable {ds ws : List Char} {d : Decimal}

/-- Digits with a point among them. -/
theorem exists_readsNumeral_point (hws : IsWhole ws) (hds : IsDigits ds) :
    ∃ n, ReadsNumeral (ws ++ '.' :: ds) n ∧
      n.Scales (Numeral.digitsValue (digitValues (ws ++ ds))) (-ds.length) := by
  refine ⟨_, readsNumeral_point hws hds, ?_, ?_, .inl ?_⟩
  · rw [digitValues_append]
  · rw [Numeral.exponentValue, length_digitValues, zero_sub]
  · exact fun h => hds.ne_nil (List.map_eq_nil_iff.mp h)

/-- Digits that are written out up to the point. -/
theorem exists_readsNumeral_whole (hpos : 0 < d.digits) (hexponent : 0 ≤ d.exponent) :
    ∃ n, ReadsNumeral d.positional n ∧
      n.Scales (d.digits * 10 ^ (d.exponent.toNat + 1)) (-1) := by
  have hdigits : IsDigits d.digitChars := isDigits_toDigits d.digits
  have hwhole : IsWhole (d.digitChars ++ List.replicate d.exponent.toNat '0') := {
    hdigits.append (isDigit_replicate_zero _) with
    head_ne := .inl (by
      rw [List.head?_append_of_ne_nil _ hdigits.ne_nil]
      exact head?_toDigits_ne hpos) }
  have hall : digitValues (d.digitChars ++ List.replicate d.exponent.toNat '0' ++ ['0']) =
      digitValues d.digitChars ++ List.replicate (d.exponent.toNat + 1) 0 := by
    rw [List.append_assoc, ← List.replicate_succ', digitValues_append, digitValues_replicate_zero]
  obtain ⟨n, hread, hscales⟩ := exists_readsNumeral_point hwhole isWhole_zero.toIsDigits
  rw [hall, Numeral.digitsValue_append_zeros, Decimal.digitChars, digitsValue_toDigits] at hscales
  rw [Decimal.positional]
  dsimp only
  rw [if_pos hexponent]
  exact ⟨n, hread, hscales⟩

/-- Digits around the point or behind it. -/
theorem exists_readsNumeral_fraction (hpos : 0 < d.digits) (hexponent : d.exponent < 0) :
    ∃ n, ReadsNumeral d.positional n ∧ n.Scales d.digits d.exponent := by
  have hdigits : IsDigits d.digitChars := isDigits_toDigits d.digits
  have hlength : d.leading = d.digitChars.length - 1 + d.exponent := rfl
  have hvalue : Numeral.digitsValue (digitValues d.digitChars) = d.digits :=
    digitsValue_toDigits d.digits
  rw [Decimal.positional]
  dsimp only
  rw [if_neg hexponent.not_ge]
  split_ifs with hpoint
  · have hwhole : IsWhole (d.digitChars.take (d.leading.toNat + 1)) := {
      ne_nil := List.ne_nil_of_length_pos (by rw [List.length_take]; omega)
      isDigit := fun c hc => hdigits.isDigit c (List.mem_of_mem_take hc)
      head_ne := .inl (by
        rw [List.head?_take, if_neg (Nat.succ_ne_zero _)]
        exact head?_toDigits_ne hpos) }
    have hrest : IsDigits (d.digitChars.drop (d.leading.toNat + 1)) := {
      ne_nil := List.ne_nil_of_length_pos (by rw [List.length_drop]; omega)
      isDigit := fun c hc => hdigits.isDigit c (List.mem_of_mem_drop hc) }
    have hplaces : (-((d.digitChars.drop (d.leading.toNat + 1)).length : Int)) = d.exponent := by
      rw [List.length_drop]
      omega
    obtain ⟨n, hread, hscales⟩ := exists_readsNumeral_point hwhole hrest
    rw [List.take_append_drop, hvalue, hplaces] at hscales
    exact ⟨n, hread, hscales⟩
  · have hrest : IsDigits (List.replicate (-d.leading - 1).toNat '0' ++ d.digitChars) := {
      ne_nil := List.append_ne_nil_of_right_ne_nil _ hdigits.ne_nil
      isDigit := List.forall_mem_append.mpr ⟨isDigit_replicate_zero _, hdigits.isDigit⟩ }
    have hplaces : (-((List.replicate (-d.leading - 1).toNat '0' ++ d.digitChars).length : Int)) =
        d.exponent := by
      rw [List.length_append, List.length_replicate]
      omega
    have hall : digitValues (['0'] ++ (List.replicate (-d.leading - 1).toNat '0' ++ d.digitChars)) =
        List.replicate ((-d.leading - 1).toNat + 1) 0 ++ digitValues d.digitChars := by
      rw [← List.append_assoc, List.singleton_append, ← List.replicate_succ, digitValues_append,
        digitValues_replicate_zero]
    obtain ⟨n, hread, hscales⟩ := exists_readsNumeral_point isWhole_zero hrest
    rw [hall, Numeral.digitsValue_zeros_append, hvalue, hplaces] at hscales
    exact ⟨n, hread, hscales⟩

theorem scientific_eq (d : Decimal) :
    d.scientific = (match d.digitChars with
      | first :: second :: rest => first :: '.' :: second :: rest
      | ds => ds) ++ exponentText d.leading :=
  rfl

/-- With an exponent, a single digit stands before the point. -/
theorem exists_readsNumeral_scientific (d : Decimal) :
    ∃ n, ReadsNumeral d.scientific n ∧ n.Scales d.digits d.exponent := by
  obtain ⟨p, hexponent, hvalue⟩ := exists_exponentPart d.leading
  have hdigits : IsDigits d.digitChars := isDigits_toDigits d.digits
  have hwhole {c : Char} (hc : c ∈ d.digitChars) : IsWhole [c] :=
    isWhole_singleton (hdigits.isDigit c hc)
  have hall : Numeral.digitsValue (digitValues d.digitChars) = d.digits :=
    digitsValue_toDigits d.digits
  have hlength : d.leading = d.digitChars.length - 1 + d.exponent := rfl
  rw [scientific_eq]
  cases hchars : d.digitChars with
  | nil => exact absurd hchars hdigits.ne_nil
  | cons first more =>
    rw [hchars] at hdigits hwhole hall hlength
    rw [List.length_cons] at hlength
    cases more with
    | nil =>
      have hpoint : fractionPart (exponentText d.leading) = none :=
        bind_of_none (literal_cons_of_ne rfl (by decide) _) _
      refine ⟨_, readsNumeral_append (hwhole List.mem_cons_self) rfl (optional_of_none hpoint)
        (optional_of_some hexponent), hall, ?_, .inr nofun⟩
      dsimp only
      rw [hvalue, Option.getD_none]
      simpa using hlength
    | cons second rest =>
      have hrest : IsDigits (second :: rest) :=
        ⟨nofun, fun c hc => hdigits.isDigit c (List.mem_cons_of_mem _ hc)⟩
      have hpoint : fractionPart ('.' :: (second :: rest ++ exponentText d.leading)) =
          some (digitValues (second :: rest), exponentText d.leading) :=
        fractionPart_point hrest rfl
      refine ⟨_, readsNumeral_append (hwhole List.mem_cons_self) rfl (optional_of_some hpoint)
        (optional_of_some hexponent), hall, ?_, .inr nofun⟩
      dsimp only
      rw [hvalue, Option.getD_some, length_digitValues]
      omega

/-- The text of a decimal is a numeral. -/
theorem exists_readsNumeral_layout (hpos : 0 < d.digits) :
    ∃ n, ReadsNumeral d.layout n ∧ n.Scales d.written.digits d.written.exponent := by
  rw [Decimal.layout, Decimal.written]
  by_cases hplain : -5 ≤ d.leading ∧ d.leading ≤ 15
  · rw [if_pos hplain]
    by_cases hexponent : 0 ≤ d.exponent
    · rw [if_pos ⟨hplain, hexponent⟩]
      exact exists_readsNumeral_whole hpos hexponent
    · rw [if_neg fun h => hexponent h.2]
      exact exists_readsNumeral_fraction hpos (not_le.mp hexponent)
  · rw [if_neg hplain, if_neg fun h => hplain h.1]
    exact exists_readsNumeral_scientific d

end Json

/-! ### The text of a floating point number -/

variable {x y : Float}

/-- What is read of the text of the magnitude of a finite number. -/
def writtenMagnitude (x : Float) : Decimal :=
  if x == 0 then ⟨0, -1⟩ else (Decimal.shortest (.ofBits x.toBits)).written

namespace Json

open Reader

theorem floatText_toList (x : Float) :
    (floatText x).toList = signText (isNegative x) ++ magnitudeText x := by
  rw [floatText, String.toList_ofList]
  cases isNegative x <;> rfl

theorem exists_readsNumeral_magnitudeText (x : Float) :
    ∃ n, ReadsNumeral (magnitudeText x) n ∧
      n.Scales (writtenMagnitude x).digits (writtenMagnitude x).exponent := by
  rw [magnitudeText, writtenMagnitude]
  cases hzero : x == 0 with
  | true => exact exists_readsNumeral_point isWhole_zero isWhole_zero.toIsDigits
  | false => exact exists_readsNumeral_layout (digits_shortest_pos hzero)

/-- A numeral in range, as a whole text. -/
theorem parse?_numeral {cs : List Char} {n : Numeral} {v : Number}
    (hread : numeral cs = some (n, [])) (hchars : ∀ c ∈ cs, isNumeralChar c = true)
    (hvalue : n.value = some v) :
    parse? (String.ofList cs) = some (.number v) := by
  cases cs with
  | nil => exact absurd hread nofun
  | cons c cs =>
    have hc : isNumeralChar c = true := hchars c List.mem_cons_self
    have hdocument : document maxDepth (c :: cs) = some (.number v, []) := by
      rw [document_eq_scalar (isBlank_of_isNumeralChar hc) (ne_of_isNumeralChar hc rfl)
        (ne_of_isNumeralChar hc rfl), scalar_of_isNumeralChar hc]
      exact filterMap_eq_some.mpr ⟨n, hread, by rw [hvalue]; rfl⟩
    rw [parse?, String.toList_ofList, whole_eq_some, bind_of_some hdocument]
    rfl

/-- The text of a finite number is read as its digits, scaled by a power of ten, with its sign. -/
theorem readsBackAs_of_scale (hx : x.isFinite = true)
    (hfits : (writtenMagnitude x).digits < 2 ^ 64)
    (hscale : Numeral.scale (writtenMagnitude x).digits (writtenMagnitude x).exponent = some y) :
    ReadsBackAs x (if isNegative x then -y else y) := by
  obtain ⟨n, hread, hscales⟩ := exists_readsNumeral_magnitudeText x
  have hnumeral := hread (isNegative x)
  rw [← floatText_toList] at hnumeral
  have hsigned : Numeral.Scales { n with negative := isNegative x } (writtenMagnitude x).digits
      (writtenMagnitude x).exponent := ⟨hscales.digits, hscales.exponent, hscales.isFloat⟩
  have hvalue := hsigned.value_eq hfits
  rw [hscale] at hvalue
  have hparse : parse? (compact (.number (.float x))) =
      some (.number (.float (if isNegative x then -y else y))) :=
    parse?_numeral hnumeral (forall_isNumeralChar_floatText x) hvalue
  rw [ReadsBackAs, ofFloat, if_pos hx, hparse]
  rfl

end Json

end BoxArrow
