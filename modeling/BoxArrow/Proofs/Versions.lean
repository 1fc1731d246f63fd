import BoxArrow.Proofs.TextLayout
import BoxArrow.Snapshot

/-!
# Versions of snapshots

A version says with the number before its first full stop whether a snapshot can be read. The number
is read digit by digit into 64 bits, and given up as soon as it does not fit. So a numeral is read
as its value or not at all: no number that is too great is taken for a smaller one, and zeros in
front of a number, which never make it greater, are no reason to give up.

## Main definitions

* `BoxArrow.IsNumeralOf` — the texts that are a given natural number.
* `BoxArrow.Snapshot.HasMajor` — the version has the given number before its first full stop.

## Main results

* `BoxArrow.appendDigits_eq_some`, `BoxArrow.parseNatural_eq_some` — reading with 64 bits.
* `BoxArrow.Snapshot.hasMajor_iff` — where the number of a version is found.
* `BoxArrow.Snapshot.supports_exactly_major_one` — which versions are supported.
-/

namespace BoxArrow

variable {cs ds : List Char} {m n k : Nat}

/-! ### Numbers in 64 bits -/

/-- More digits make a number that is at least as great. -/
theorem le_ofDigitChars (n : Nat) (ds : List Char) : n ≤ Nat.ofDigitChars 10 ds n := by
  induction ds generalizing n with
  | nil => exact Nat.le_refl n
  | cons d ds ih =>
    have hrest := ih (10 * n + (d.toNat - '0'.toNat))
    rw [Nat.ofDigitChars_cons]
    omega

/-- Digits are appended to a number exactly when the result fits in 64 bits. As numbers only grow,
it is enough to look at the result. -/
theorem appendDigits_eq_some (hn : n < Nat.pow 2 64) :
    appendDigits n ds = some m ↔
      (∀ d ∈ ds, d.isDigit = true) ∧ Nat.ofDigitChars 10 ds n = m ∧ m < Nat.pow 2 64 := by
  induction ds generalizing n with
  | nil =>
    refine ⟨fun h => ?_, fun h => congrArg some h.2.1⟩
    obtain rfl := Option.some.inj h
    exact ⟨nofun, rfl, hn⟩
  | cons d ds ih =>
    rw [appendDigits, Nat.ofDigitChars_cons, List.forall_mem_cons]
    split_ifs with h
    · rw [ih h.2]
      tauto
    · refine iff_of_false nofun ?_
      rintro ⟨⟨hd, -⟩, rfl, hfits⟩
      exact h ⟨hd, Nat.lt_of_le_of_lt (le_ofDigitChars _ ds) hfits⟩

/-- The text is the number `n`: ASCII digits with this value, perhaps with a plus sign. -/
def IsNumeralOf (n : Nat) (cs : List Char) : Prop :=
  ∃ ds, (cs = ds ∨ cs = '+' :: ds) ∧ ds ≠ [] ∧ (∀ d ∈ ds, d.isDigit = true) ∧
    Nat.ofDigitChars 10 ds 0 = n

/-- What stands behind the sign of a numeral is its digits. -/
theorem unsigned_eq (hcs : cs = ds ∨ cs = '+' :: ds) (hds : ∀ d ∈ ds, d.isDigit = true) :
    (if cs.head? = some '+' then cs.tail else cs) = ds := by
  rcases hcs with rfl | rfl
  · refine if_neg fun hplus => ?_
    exact absurd (hds '+' (List.mem_of_mem_head? hplus)) (by decide)
  · rfl

theorem IsNumeralOf.unique (h : IsNumeralOf n cs) (h' : IsNumeralOf m cs) : n = m := by
  obtain ⟨ds, hcs, -, hds, rfl⟩ := h
  obtain ⟨ds', hcs', -, hds', rfl⟩ := h'
  rw [← unsigned_eq hcs hds, unsigned_eq hcs' hds']

/-- A text is read as a number exactly when it is that number, and the number fits in 64 bits. -/
theorem parseNatural_eq_some :
    parseNatural cs = some n ↔ IsNumeralOf n cs ∧ n < Nat.pow 2 64 := by
  have happend (ds : List Char) : appendDigits 0 ds = some n ↔
      (∀ d ∈ ds, d.isDigit = true) ∧ Nat.ofDigitChars 10 ds 0 = n ∧ n < Nat.pow 2 64 :=
    appendDigits_eq_some (by decide)
  constructor
  · intro h
    rw [parseNatural] at h
    split at h
    · exact absurd h nofun
    · next hne =>
      obtain ⟨hdigits, hvalue, hfits⟩ := (happend _).mp h
      refine ⟨⟨_, ?_, hne, hdigits, hvalue⟩, hfits⟩
      split_ifs with hplus
      · exact .inr (List.eq_cons_of_mem_head? hplus)
      · exact .inl rfl
  · rintro ⟨⟨ds, hcs, hne, hdigits, hvalue⟩, hfits⟩
    obtain ⟨d, ds, rfl⟩ := List.exists_cons_of_ne_nil hne
    rw [parseNatural, unsigned_eq hcs hdigits]
    exact (happend _).mpr ⟨hdigits, hvalue, hfits⟩

/-- Behind the sign stand digits, and nothing but digits. -/
theorem isNumeralOf_append_iff {sign : List Char} (hsign : sign = [] ∨ sign = ['+'])
    (hhead : ds.head? ≠ some '+') :
    IsNumeralOf n (sign ++ ds) ↔
      ds ≠ [] ∧ (∀ d ∈ ds, d.isDigit = true) ∧ Nat.ofDigitChars 10 ds 0 = n := by
  constructor
  · rintro ⟨ds', hcs, hne, hdigits, hvalue⟩
    have hds : ds = ds' := by
      rw [← unsigned_eq hcs hdigits]
      rcases hsign with rfl | rfl
      · exact (if_neg hhead).symm
      · rfl
    rw [hds]
    exact ⟨hne, hdigits, hvalue⟩
  · rintro ⟨hne, hdigits, hvalue⟩
    rcases hsign with rfl | rfl
    · exact ⟨ds, .inl rfl, hne, hdigits, hvalue⟩
    · exact ⟨ds, .inr rfl, hne, hdigits, hvalue⟩

/-- Zeros in front of a digit do not change a number. -/
theorem isNumeralOf_zeros_iff {sign : List Char} {c : Char} (hsign : sign = [] ∨ sign = ['+'])
    (hc : c.isDigit = true) (k : Nat) :
    IsNumeralOf n (sign ++ (List.replicate k '0' ++ c :: cs)) ↔
      IsNumeralOf n (sign ++ c :: cs) := by
  have hplus : c ≠ '+' := by
    rintro rfl
    exact absurd hc (by decide)
  have hhead : (List.replicate k '0' ++ c :: cs).head? ≠ some '+' := by
    cases k with
    | zero => simpa using hplus
    | succ k => simp [List.replicate_succ]
  rw [isNumeralOf_append_iff hsign hhead, isNumeralOf_append_iff hsign (by simpa using hplus),
    List.forall_mem_append, Nat.ofDigitChars_append, Nat.ofDigitChars_replicate_zero, Nat.mul_zero]
  simp

/-! ### Where the number stands -/

theorem padded_trim (cs : List Char) : Padded (trim cs) cs := by
  refine ⟨cs.takeWhile isBlank, ((trimStart cs).reverse.takeWhile isBlank).reverse,
    fun c hc => List.mem_takeWhile_imp hc,
    fun c hc => List.mem_takeWhile_imp (List.mem_reverse.mp hc), ?_⟩
  have hend : trim cs ++ ((trimStart cs).reverse.takeWhile isBlank).reverse = trimStart cs := by
    rw [trim, trimEnd, ← List.reverse_append, List.takeWhile_append_dropWhile, List.reverse_reverse]
  rw [List.append_assoc, hend]
  exact List.takeWhile_append_dropWhile.symm

/-- Texts without blanks are left as they are. -/
theorem trim_eq_self (h : ∀ c ∈ cs, isBlank c = false) : trim cs = cs := by
  rw [trim, trimStart_eq_self, trimEnd_eq_self]
  · exact takeWhile_eq_nil_of_head? fun c hc =>
      h c (List.mem_reverse.mp (List.mem_of_mem_head? hc))
  · exact takeWhile_eq_nil_of_head? fun c hc => h c (List.mem_of_mem_head? hc)

theorem IsNumeralOf.trim_eq (h : IsNumeralOf n cs) : trim cs = cs := by
  obtain ⟨ds, hcs, -, hds, -⟩ := h
  have hblank : ∀ d ∈ ds, isBlank d = false := fun d hd => isBlank_of_isDigit (hds d hd)
  refine trim_eq_self ?_
  rcases hcs with rfl | rfl
  · exact hblank
  · exact List.forall_mem_cons.mpr ⟨rfl, hblank⟩

namespace Snapshot

variable {version : String}

/-- The version has the number `n` before its first full stop, or as a whole where it has none.
Blanks around the number do not count. -/
def HasMajor (version : String) (n : Nat) : Prop :=
  ∃ part rest numeral, version.toList = part ++ rest ∧ '.' ∉ part ∧
    (rest = [] ∨ ∃ minor, rest = '.' :: minor) ∧ Padded numeral part ∧ IsNumeralOf n numeral

theorem hasMajor_iff : HasMajor version n ↔ IsNumeralOf n (majorPart version) := by
  constructor
  · rintro ⟨part, rest, numeral, hversion, hpart, hrest, hpadded, hnumeral⟩
    have hstop : rest.takeWhile (· != '.') = [] := by
      rcases hrest with rfl | ⟨minor, rfl⟩ <;> rfl
    have htake : version.toList.takeWhile (· != '.') = part := by
      refine (Reader.takeWhile_eq_and_dropWhile_eq.mpr ⟨hversion, fun c hc => ?_, hstop⟩).1
      exact bne_iff_ne.mpr fun heq => hpart (heq ▸ hc)
    rw [majorPart, htake, trim_of_padded hpadded, hnumeral.trim_eq]
    exact hnumeral
  · intro h
    obtain ⟨hversion, hpart, hstop⟩ := Reader.takeWhile_eq_and_dropWhile_eq.mp
      (⟨rfl, rfl⟩ : version.toList.takeWhile (· != '.') = _ ∧
        version.toList.dropWhile (· != '.') = _)
    refine ⟨_, _, majorPart version, hversion, fun hmem => ?_, ?_, padded_trim _, h⟩
    · exact absurd (hpart '.' hmem) (by decide)
    · cases hrest : version.toList.dropWhile (· != '.') with
      | nil => exact .inl rfl
      | cons c minor =>
        rw [hrest, List.takeWhile_cons] at hstop
        have hc : c = '.' := by
          by_contra hne
          rw [if_pos (bne_iff_ne.mpr hne)] at hstop
          exact absurd hstop nofun
        exact .inr ⟨minor, hc ▸ rfl⟩

theorem isSupportedVersion_iff_isNumeralOf :
    isSupportedVersion version = true ↔ IsNumeralOf 1 (majorPart version) := by
  rw [isSupportedVersion, beq_iff_eq, parseNatural_eq_some]
  exact and_iff_left (by decide)

theorem isSupportedVersion_iff : isSupportedVersion version = true ↔ HasMajor version 1 := by
  rw [hasMajor_iff, isSupportedVersion_iff_isNumeralOf]

/-- What stands in front of the number and behind it is kept apart from it. -/
theorem majorPart_append {before w : List Char} (hbefore : ∀ c ∈ before, isBlank c = true)
    (hne : w ≠ []) (hw : ∀ c ∈ w, isBlank c = false ∧ c ≠ '.') (after : List Char) :
    majorPart (String.ofList (before ++ (w ++ after))) =
      w ++ trimEnd (after.takeWhile (· != '.')) := by
  have hstop : ∀ c ∈ before, (c != '.') = true := by
    intro c hc
    refine bne_iff_ne.mpr ?_
    rintro rfl
    exact absurd (hbefore _ hc) (by decide)
  have hend : w.reverse.takeWhile isBlank = [] := takeWhile_eq_nil_of_head? fun c hc =>
    (hw c (List.mem_reverse.mp (List.mem_of_mem_head? hc))).1
  rw [majorPart, String.toList_ofList, List.takeWhile_append_of_pos hstop,
    List.takeWhile_append_of_pos fun c hc => bne_iff_ne.mpr (hw c hc).2, trim,
    trimStart_append_of_blank hbefore,
    trimStart_eq_self (takeWhile_append_eq_nil hne fun c hc => (hw c hc).1), trimEnd_append hend]

theorem majorPart_zeros {before sign : List Char} {c : Char}
    (hbefore : ∀ b ∈ before, isBlank b = true) (hsign : sign = [] ∨ sign = ['+'])
    (hc : c.isDigit = true) (after : List Char) (k : Nat) :
    majorPart (String.ofList (before ++ (sign ++ (List.replicate k '0' ++ c :: after)))) =
      sign ++ (List.replicate k '0' ++ c :: trimEnd (after.takeWhile (· != '.'))) := by
  have hdigits : ∀ d ∈ List.replicate k '0' ++ [c], d.isDigit = true :=
    List.forall_mem_append.mpr ⟨isDigit_replicate_zero k, List.forall_mem_singleton.mpr hc⟩
  have hw : ∀ d ∈ sign ++ (List.replicate k '0' ++ [c]), isBlank d = false ∧ d ≠ '.' := by
    refine List.forall_mem_append.mpr ⟨?_, fun d hd => ⟨isBlank_of_isDigit (hdigits d hd), ?_⟩⟩
    · rcases hsign with rfl | rfl
      · exact nofun
      · exact List.forall_mem_singleton.mpr ⟨rfl, by decide⟩
    · rintro rfl
      exact absurd (hdigits _ hd) (by decide)
  simpa using majorPart_append hbefore (by simp) hw after

/-- Exactly the versions with the major version one are supported. Of a version with any other
number, however long its numeral, this one is taken and no smaller number in its place; and zeros in
front of the number, however many, change nothing. -/
theorem supports_exactly_major_one (version : String) :
    (isSupportedVersion version = true ↔ HasMajor version 1) ∧
    (∀ n, HasMajor version n → (isSupportedVersion version = true ↔ n = 1)) ∧
    ∀ (before sign after : List Char) (c : Char) (k : Nat), (∀ b ∈ before, isBlank b = true) →
      (sign = [] ∨ sign = ['+']) → c.isDigit = true →
        isSupportedVersion (String.ofList
          (before ++ (sign ++ (List.replicate k '0' ++ c :: after)))) =
          isSupportedVersion (String.ofList (before ++ (sign ++ c :: after))) := by
  refine ⟨isSupportedVersion_iff, fun n hn => ?_, fun before sign after c k hbefore hsign hc => ?_⟩
  · rw [hasMajor_iff] at hn
    rw [isSupportedVersion_iff_isNumeralOf]
    refine ⟨fun hone => hn.unique hone, ?_⟩
    rintro rfl
    exact hn
  · rw [Bool.eq_iff_iff, isSupportedVersion_iff_isNumeralOf, isSupportedVersion_iff_isNumeralOf,
      majorPart_zeros hbefore hsign hc after k, isNumeralOf_zeros_iff hsign hc]
    exact majorPart_zeros hbefore hsign hc after 0 ▸ Iff.rfl

/-- Counted modulo `2 ^ 64` this number is one, and still it is refused. A one behind thirty zeros is
accepted. -/
theorem supports_exactly_major_one_wrapped :
    HasMajor "18446744073709551617.0" (Nat.pow 2 64 + 1) ∧
      isSupportedVersion "18446744073709551617.0" = false ∧
      (∀ b ∈ [' '], isBlank b = true) ∧ '1'.isDigit = true ∧
      isSupportedVersion (String.ofList
        ([' '] ++ (['+'] ++ (List.replicate 30 '0' ++ '1' :: ".2".toList)))) = true := by
  have hmajor : HasMajor "18446744073709551617.0" (Nat.pow 2 64 + 1) :=
    hasMajor_iff.mpr ⟨"18446744073709551617".toList, .inl (by decide), by decide,
      List.all_eq_true.mp (by decide), by decide⟩
  have hblank : ∀ b ∈ [' '], isBlank b = true := List.forall_mem_singleton.mpr (by decide)
  obtain ⟨-, hnumber, -⟩ := supports_exactly_major_one "18446744073709551617.0"
  obtain ⟨-, -, hzeros⟩ := supports_exactly_major_one " +1.2"
  refine ⟨hmajor, Bool.eq_false_iff.mpr fun h => ?_, hblank, rfl, ?_⟩
  · exact absurd ((hnumber _ hmajor).mp h) (by decide)
  · rw [hzeros [' '] ['+'] ".2".toList '1' 30 hblank (.inr rfl) rfl]
    decide

end Snapshot

end BoxArrow
