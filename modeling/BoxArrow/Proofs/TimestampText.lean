import BoxArrow.Proofs.CalendarDates
import BoxArrow.Proofs.Lexemes

/-!
# Points in time are read back from their texts

Every part of a written point in time has the number of digits that its reader takes, or an end that
its reader stops at, and no blanks stand before it. So the parts are read one after another, and
they are put together to the point in time that was written. A leap second is written as the second
60, from which reading makes the second 59 with a part of more than one second.

## Main definitions

* `BoxArrow.Timestamp.StartsDense` — texts that do not begin with a blank.

## Main results

* `BoxArrow.Timestamp.year_yearText`, `BoxArrow.Timestamp.part_padded`,
  `BoxArrow.Timestamp.decimals_fractionText` — the parts.
* `BoxArrow.Timestamp.dateAndTime_written` — the parts together.
* `BoxArrow.Timestamp.parse_text` — whole points in time.
-/

namespace BoxArrow.Timestamp

variable {α β : Type} {cs ds rest : List Char}

/-! ### Taking values off a text -/

theorem bind_of_ok {r : Scan α} {a : α} (h : r cs = .ok (a, rest)) (f : α → Scan β) :
    (r >>= f) cs = f a rest := by
  change (do let (a, rest) ← r cs; f a rest) = f a rest
  rw [h]
  rfl

/-- The text does not begin with a blank. -/
def StartsDense (cs : List Char) : Prop :=
  cs.takeWhile isBlank = []

theorem StartsDense.cons {c : Char} (h : isBlank c = false) (cs : List Char) :
    StartsDense (c :: cs) :=
  List.takeWhile_cons_of_neg (by simp [h])

theorem StartsDense.of_digits (hne : ds ≠ []) (hds : ∀ c ∈ ds, c.isDigit = true)
    (rest : List Char) : StartsDense (ds ++ rest) :=
  takeWhile_append_eq_nil hne fun c hc => isBlank_of_isDigit (hds c hc)

theorem skipBlanks_dense (h : StartsDense cs) : skipBlanks cs = .ok ((), cs) := by
  change Except.ok ((), trimStart cs) = .ok ((), cs)
  rw [trimStart_eq_self h]

/-! ### Digits -/

theorem isDigit_padded (width n : Nat) : ∀ c ∈ (padded width n).toList, c.isDigit = true := by
  rw [padded, String.toList_ofList]
  exact List.forall_mem_append.mpr ⟨isDigit_replicate_zero _, isDigit_toDigits n⟩

theorem padded_ne_nil (width n : Nat) : (padded width n).toList ≠ [] := by
  rw [padded, String.toList_ofList]
  exact List.append_ne_nil_of_right_ne_nil _ Nat.toDigits_ne_nil

theorem digitsValue_padded (width n : Nat) : digitsValue (padded width n).toList = n := by
  rw [padded, String.toList_ofList]
  change Nat.ofDigitChars 10 _ 0 = n
  rw [Nat.ofDigitChars_append, Nat.ofDigitChars_replicate_zero, Nat.mul_zero]
  exact Nat.ofDigitChars_ten_toDigits

/-- A number that fits has the length that is wanted. -/
theorem length_padded {width n : Nat} (hwidth : 0 < width) (h : n < 10 ^ width) :
    (padded width n).toList.length = width := by
  have hlength := (Nat.length_toDigits_le_iff (b := 10) (by decide) hwidth).mpr h
  rw [padded, String.toList_ofList, List.length_append, List.length_replicate]
  omega

/-- A number with all the digits that its reader takes. -/
theorem number_padded {width n : Nat} (hwidth : 0 < width) (h : n < 10 ^ width)
    (rest : List Char) : number width ((padded width n).toList ++ rest) = .ok (n, rest) := by
  have hlength := length_padded hwidth h
  have htaken : (((padded width n).toList ++ rest).take width).takeWhile Char.isDigit =
      (padded width n).toList := by
    rw [List.take_left' hlength]
    exact List.takeWhile_eq_self_iff.mpr (isDigit_padded width n)
  rw [number, htaken]
  split
  · next hnil => exact absurd hnil (padded_ne_nil width n)
  · rw [digitsValue_padded, List.drop_left]

/-- Digits with an end behind them. -/
theorem digits_padded (width n : Nat) (hrest : rest.takeWhile Char.isDigit = []) :
    digits ((padded width n).toList ++ rest) = .ok ((padded width n).toList, rest) := by
  have htaken : ((padded width n).toList ++ rest).takeWhile Char.isDigit =
      (padded width n).toList :=
    (Reader.takeWhile_eq_and_dropWhile_eq.mpr ⟨rfl, isDigit_padded width n, hrest⟩).1
  rw [digits, htaken]
  split
  · next hnil => exact absurd hnil (padded_ne_nil width n)
  · rw [List.drop_left]

theorem startsDense_padded (width n : Nat) (rest : List Char) :
    StartsDense ((padded width n).toList ++ rest) :=
  .of_digits (padded_ne_nil width n) (isDigit_padded width n) rest

/-- Digits are no marks. -/
theorem next?_padded {c : Char} (hc : c.isDigit = false) (width n : Nat) (rest : List Char) :
    next? c ((padded width n).toList ++ rest) =
      .ok (false, (padded width n).toList ++ rest) := by
  obtain ⟨d, ds, hds⟩ := List.exists_cons_of_ne_nil (padded_ne_nil width n)
  have hd : d.isDigit = true := isDigit_padded width n d (hds ▸ List.mem_cons_self)
  rw [hds, List.cons_append, next?, if_neg]
  rintro rfl
  exact Bool.false_ne_true (hc.symm.trans hd)

/-! ### The parts -/

theorem within_of_mem {low high n : Int} (hlow : low ≤ n) (hhigh : n ≤ high) :
    within low high n cs = .ok ((), cs) := by
  rw [within, if_pos ⟨hlow, hhigh⟩]
  rfl

theorem part_padded {low high n : Nat} (hn : n < 100) (hlow : low ≤ n) (hhigh : n ≤ high)
    (rest : List Char) : part low high ((padded 2 n).toList ++ rest) = .ok (n, rest) := by
  rw [part, bind_of_ok (skipBlanks_dense (startsDense_padded 2 n rest)),
    bind_of_ok (number_padded (by decide) hn rest),
    bind_of_ok (within_of_mem (by omega) (by omega))]
  rfl

theorem mark_cons {c : Char} (hc : isBlank c = false) (rest : List Char) :
    mark c (c :: rest) = .ok ((), rest) := by
  have hone : one (· == c) (c :: rest) = .ok (c, rest) := by
    rw [one, if_pos (beq_self_eq_true c)]
  rw [mark, bind_of_ok (skipBlanks_dense (.cons hc rest)), bind_of_ok hone]
  rfl

/-- A year with four digits, or with a sign and as many digits as there are before a mark. -/
theorem year_yearText {y : Int} (hlow : -2147483648 ≤ y) (hhigh : y ≤ 2147483647)
    (hrest : rest.takeWhile Char.isDigit = []) :
    year ((yearText y).toList ++ rest) = .ok (y, rest) := by
  -- What is left of reading a year when the value is known that stands there.
  have hyear {cs : List Char} (hdense : StartsDense cs)
      (hvalue : (do
        if ← next? '-' then return -(digitsValue (← digits) : Int)
        if ← next? '+' then return (digitsValue (← digits) : Int)
        return (← number 4 : Nat) : Scan Int) cs = .ok (y, rest)) : year cs = .ok (y, rest) := by
    rw [year, bind_of_ok (skipBlanks_dense hdense)]
    exact (bind_of_ok hvalue _).trans (bind_of_ok (within_of_mem hlow hhigh) _)
  have hminus (cs : List Char) : next? '-' ('-' :: cs) = .ok (true, cs) := rfl
  have hplus (cs : List Char) : next? '+' ('+' :: cs) = .ok (true, cs) := rfl
  have hnominus (cs : List Char) : next? '-' ('+' :: cs) = .ok (false, '+' :: cs) := rfl
  have hnegative : "-".toList = ['-'] := rfl
  have hpositive : "+".toList = ['+'] := rfl
  rw [yearText]
  split_ifs with hplain hsign
  · have hfits : y.toNat < 10 ^ 4 := by omega
    have hvalue : (y.toNat : Int) = y := by omega
    refine hyear (startsDense_padded 4 y.toNat rest) ?_
    rw [bind_of_ok (next?_padded rfl 4 y.toNat rest)]
    refine (bind_of_ok (next?_padded rfl 4 y.toNat rest) _).trans ?_
    refine (bind_of_ok (number_padded (by decide) hfits rest) _).trans ?_
    rw [hvalue]
    rfl
  · have hvalue : -(y.natAbs : Int) = y := by omega
    rw [String.toList_append, List.append_assoc, hnegative, List.singleton_append]
    refine hyear (.cons rfl _) ?_
    rw [bind_of_ok (hminus _)]
    refine (bind_of_ok (digits_padded 4 y.natAbs hrest) _).trans ?_
    rw [digitsValue_padded, hvalue]
    rfl
  · have hvalue : (y.natAbs : Int) = y := by omega
    rw [String.toList_append, List.append_assoc, hpositive, List.singleton_append]
    refine hyear (.cons rfl _) ?_
    rw [bind_of_ok (hnominus _)]
    refine (bind_of_ok (hplus _) _).trans ?_
    refine (bind_of_ok (digits_padded 4 y.natAbs hrest) _).trans ?_
    rw [digitsValue_padded, hvalue]
    rfl

/-- The decimals of a second, with zeros for those that are left out. -/
theorem decimals_padded {width n : Nat} (hwidth : 0 < width) (hmost : width ≤ 9)
    (hn : n < 10 ^ width) (hrest : rest.takeWhile Char.isDigit = []) :
    decimals ('.' :: ((padded width n).toList ++ rest)) = .ok (n * 10 ^ (9 - width), rest) := by
  have hlength := length_padded hwidth hn
  have hpoint (cs : List Char) : next? '.' ('.' :: cs) = .ok (true, cs) := rfl
  have hall : (padded width n).toList.take 9 = (padded width n).toList :=
    List.take_of_length_le (hlength.trans_le hmost)
  rw [decimals, bind_of_ok (hpoint _)]
  refine (bind_of_ok (digits_padded width n hrest) _).trans ?_
  rw [hall, hlength, digitsValue_padded]
  rfl

/-- The decimals that a part of a second is written with are enough for it. -/
theorem decimals_fractionText {nano : Nat} (hnano : nano < 1000000000) (rest : List Char) :
    decimals ((fractionText nano).toList ++ 'Z' :: rest) = .ok (nano, 'Z' :: rest) := by
  have hZ : ('Z' :: rest).takeWhile Char.isDigit = [] := rfl
  have hvalue {width n : Nat} (hwidth : 0 < width) (hmost : width ≤ 9) (hn : n < 10 ^ width)
      (hnano : n * 10 ^ (9 - width) = nano) :
      decimals (("." ++ padded width n).toList ++ 'Z' :: rest) = .ok (nano, 'Z' :: rest) := by
    have hpoint : ".".toList = ['.'] := rfl
    rw [String.toList_append, List.append_assoc, hpoint, List.singleton_append, ← hnano]
    exact decimals_padded hwidth hmost hn hZ
  rw [fractionText]
  split_ifs with hnone hmillis hmicros
  · rw [hnone]
    rfl
  · exact hvalue (by decide) (by decide) (by omega) (by omega)
  · exact hvalue (by decide) (by decide) (by omega) (by omega)
  · exact hvalue (by decide) (by decide) (by omega) (by omega)

/-! ### Points in time -/

/-- A date, a time of day and a part of a second are taken from the text that they are written
as. -/
theorem dateAndTime_written {d : Date} {hour minute second nano : Nat}
    (hyear : -2147483648 ≤ d.year ∧ d.year ≤ 2147483647) (hmonth : 1 ≤ d.month ∧ d.month ≤ 12)
    (hday : 1 ≤ d.day ∧ d.day ≤ 31) (hhour : hour < 24) (hminute : minute < 60)
    (hsecond : second ≤ 60) (hnano : nano < 1000000000) :
    dateAndTime (yearText d.year ++ "-" ++ padded 2 d.month ++ "-" ++ padded 2 d.day ++ "T" ++
        padded 2 hour ++ ":" ++ padded 2 minute ++ ":" ++ padded 2 second ++ fractionText nano ++
        "Z").toList =
      .ok (⟨d, hour, minute, second, nano, 0⟩, []) := by
  have hT (cs : List Char) :
      one (fun c => c == 'T' || c == 't' || c == ' ') ('T' :: cs) = .ok ('T', cs) := rfl
  have hdash : "-".toList = ['-'] := rfl
  have hcolon : ":".toList = [':'] := rfl
  have htime : "T".toList = ['T'] := rfl
  have hzulu : "Z".toList = ['Z'] := rfl
  simp only [String.toList_append, List.append_assoc, hdash, hcolon, htime, hzulu,
    List.cons_append, List.nil_append]
  rw [dateAndTime, bind_of_ok (year_yearText hyear.1 hyear.2 rfl), bind_of_ok (mark_cons rfl _),
    bind_of_ok (part_padded (by omega) hmonth.1 hmonth.2 _), bind_of_ok (mark_cons rfl _),
    bind_of_ok (part_padded (by omega) hday.1 hday.2 _), bind_of_ok (hT _),
    bind_of_ok (part_padded (by omega) (Nat.zero_le _) (by omega) _), bind_of_ok (mark_cons rfl _),
    bind_of_ok (part_padded (by omega) (Nat.zero_le _) (by omega) _), bind_of_ok (mark_cons rfl _),
    bind_of_ok (part_padded (by omega) (Nat.zero_le _) hsecond _),
    bind_of_ok (decimals_fractionText hnano _), bind_of_ok (skipBlanks_dense (.cons rfl _))]
  rfl

theorem parse_of_dateAndTime {s : String} {l : Local} (h : dateAndTime s.toList = .ok (l, [])) :
    parse s = l.toTimestamp := by
  rw [parse, StateT.run, h]
  rfl

/-- A time of day in universal time, on a date of the calendar, is the point in time. The second 60
counts as a second more of the second before it. -/
theorem toTimestamp_ofDay {day : Int} (hday : inRange day = true)
    {hour minute written second nano part : Nat}
    (hwritten : (if written = 60 then (59, part + 1000000000) else (written, part)) =
      (second, nano))
    (hsecond : 3600 * hour + 60 * minute + second < 86400) :
    (Local.mk (Date.ofDay day) hour minute written part 0).toTimestamp =
      .ok ⟨day, 3600 * hour + 60 * minute + second, nano⟩ := by
  rw [Local.toTimestamp]
  dsimp only
  rw [hwritten]
  dsimp only
  generalize htotal : 3600 * (hour : Int) + 60 * (minute : Int) + (second : Int) - 60 * 0 = total
  have hcarry : total / 86400 = 0 := by omega
  have hrest : (total % 86400).toNat = 3600 * hour + 60 * minute + second := by omega
  rw [hcarry, hrest, Date.isValid_ofDay, Date.toDay_ofDay, Int.add_zero, hday]
  rfl

/-- Every point in time is read back from its text. -/
theorem parse_text {t : Timestamp} (h : t.IsValid) : parse t.text = .ok t := by
  obtain ⟨day, second, nano⟩ := t
  have hday : inRange day = true := h.day
  have hsecond : second < 86400 := h.second
  have hnano : nano < 2000000000 := h.nano
  have hleap : 1000000000 ≤ nano → second % 60 = 59 := h.leap
  have hyear := year_bounds hday
  have hdate := Date.ofDay_bounds day
  have htime : 3600 * (second / 3600) + 60 * (second / 60 % 60) + second % 60 = second := by omega
  -- Whatever is written for the second and its part has to be read as them.
  have hread {written part : Nat} (hsixty : written ≤ 60) (hpart : part < 1000000000)
      (hwritten : (if written = 60 then (59, part + 1000000000) else (written, part)) =
        (second % 60, nano)) :
      parse (yearText (Date.ofDay day).year ++ "-" ++ padded 2 (Date.ofDay day).month ++ "-" ++
          padded 2 (Date.ofDay day).day ++ "T" ++ padded 2 (second / 3600) ++ ":" ++
          padded 2 (second / 60 % 60) ++ ":" ++ padded 2 written ++ fractionText part ++ "Z") =
        .ok ⟨day, second, nano⟩ := by
    rw [parse_of_dateAndTime (dateAndTime_written ⟨by omega, by omega⟩ hdate.1 hdate.2 (by omega)
      (by omega) hsixty hpart), toTimestamp_ofDay hday hwritten (by omega), htime]
  rw [text]
  dsimp only
  split_ifs with hl
  · have hlast := hleap hl
    refine hread (by omega) (by omega) ?_
    rw [if_pos (by omega), hlast, Nat.sub_add_cancel hl]
  · refine hread (by omega) (by omega) ?_
    rw [if_neg (by omega)]
    rfl

end BoxArrow.Timestamp
