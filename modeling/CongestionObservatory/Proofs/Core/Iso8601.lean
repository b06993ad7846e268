import Mathlib.Data.List.GetD
import Mathlib.Tactic.IntervalCases
import CongestionObservatory.Core.Iso8601
import CongestionObservatory.Proofs.Core.Number

/-!
# `CongestionObservatory.Proofs.Core.Iso8601`: timestamps read back

The calendar conversions are inverse to each other on every day (`civilFromDays_spec`), and the text
of a timestamp has its fields at fixed places (`toIso8601_eq`). So a timestamp is read back from its
text, unless the checked product of its whole seconds overflows: the seconds before the epoch are
rounded down, and the product lies below the timestamp (`fromIso8601_toIso8601`).
-/

set_option autoImplicit false

namespace CongestionObservatory

/-! ### The calendar -/

/-- The quotient that the source rounds down by hand. -/
theorem floor_tdiv {d k j : Int} (hk : 0 < k) (hj : j = k - 1) :
    (if d ≥ 0 then d else d - j).tdiv k = d / k := by
  split
  · next h => exact Int.tdiv_eq_ediv_of_nonneg h
  · next h =>
      have hneg : d - j = -(-d + j) := by omega
      rw [hneg, Int.neg_tdiv, Int.tdiv_eq_ediv_of_nonneg (by omega)]
      have hdiv := Int.mul_ediv_add_emod d k
      have hlow := Int.emod_nonneg d (by omega : k ≠ 0)
      have hhigh := Int.emod_lt_of_pos d hk
      have hquotient : (-d + j) / k = -(d / k) := by
        refine ((Int.ediv_emod_unique hk (r := j - d % k)).mpr ⟨?_, ?_, ?_⟩).1
        · rw [Int.mul_neg]
          omega
        · omega
        · omega
      omega

/-- The year of an era, by centuries and by cycles of four years. -/
theorem era_parts {doe yoe : Nat} (h : doe ≤ 146096)
    (hyoe : yoe = (doe - doe / 1460 + doe / 36524 - doe / 146096) / 365) :
    ∃ c q r w, c ≤ 3 ∧ q ≤ 24 ∧ r ≤ 3 ∧ yoe = 100 * c + 4 * q + r ∧
      doe = 36524 * c + 1461 * q + 365 * r + w ∧ w ≤ 365 ∧
      (w = 365 → r = 3 ∧ (q < 24 ∨ c = 3)) := by
  obtain ⟨c, x, hc, hx, hdoe⟩ : ∃ c x, c ≤ 3 ∧ (x ≤ 36523 ∨ (c = 3 ∧ x = 36524)) ∧
      doe = 36524 * c + x := by
    by_cases hlast : doe = 146096
    · exact ⟨3, 36524, by omega⟩
    · exact ⟨doe / 36524, doe % 36524, by omega⟩
  obtain ⟨q, z, hq, hz, hx'⟩ : ∃ q z, q ≤ 24 ∧ z ≤ 1460 ∧ x = 1461 * q + z :=
    ⟨x / 1461, x % 1461, by omega⟩
  have hcentury : doe / 36524 - doe / 146096 = c := by omega
  have hfour : doe / 1460 = 25 * c + q + (q + z + 24 * c) / 1460 := by omega
  -- The divisor 1460 counts one day too many, and only near the end of the four years.
  have hdays : doe - doe / 1460 + doe / 36524 - doe / 146096
      = 365 * (100 * c + 4 * q) + (z - (q + z + 24 * c) / 1460) := by omega
  have hyear : (z - (q + z + 24 * c) / 1460) / 365 = min (z / 365) 3 := by
    clear hcentury hfour hdays hyoe
    omega
  have hyoe' : yoe = 100 * c + 4 * q + min (z / 365) 3 := by
    rw [hyoe, hdays, Nat.mul_add_div (by omega), hyear]
  clear hcentury hfour hdays hyear hyoe
  exact ⟨c, q, min (z / 365) 3, z - 365 * min (z / 365) 3, hc, hq, by omega, hyoe', by omega,
    by omega, by omega⟩

/-- The day of the era. -/
theorem day_of_era (z : Int) :
    (z - z / 146097 * 146097).toNat ≤ 146096 ∧
      ((z - z / 146097 * 146097).toNat : Int) = z - z / 146097 * 146097 := by
  omega

/-- The day of the year, in these parts. -/
theorem day_of_year {doe yoe c q r w : Nat} (hq : q ≤ 24) (hr : r ≤ 3)
    (hyear : yoe = 100 * c + 4 * q + r) (hparts : doe = 36524 * c + 1461 * q + 365 * r + w) :
    doe - (365 * yoe + yoe / 4 - yoe / 100) = w ∧ yoe * 365 + yoe / 4 - yoe / 100 + w = doe := by
  have hcentury : yoe / 100 = c := by omega
  have hfour : yoe / 4 = 25 * c + q := by omega
  omega

/-- The day of the year, from the month and the day. -/
theorem day_of_month {mp w : Nat} (hmp : mp = (5 * w + 2) / 153) (hw : w ≤ 365) :
    (153 * (if (if mp < 10 then mp + 3 else mp - 9) > 2 then (if mp < 10 then mp + 3 else mp - 9) - 3
      else (if mp < 10 then mp + 3 else mp - 9) + 9) + 2) / 5
      + (w - (153 * mp + 2) / 5 + 1) - 1 = w := by
  have hlast : mp ≤ 11 := by omega
  have hmonth : (if (if mp < 10 then mp + 3 else mp - 9) > 2
      then (if mp < 10 then mp + 3 else mp - 9) - 3
      else (if mp < 10 then mp + 3 else mp - 9) + 9) = mp := by
    split <;> split <;> omega
  rw [hmonth]
  omega

theorem tmod_eq_zero {a b : Int} : a.tmod b = 0 ↔ a % b = 0 := by
  rw [← Int.dvd_iff_tmod_eq_zero, Int.dvd_iff_emod_eq_zero]

theorem isLeap_iff {year : Int} :
    isLeap year = true ↔ (year % 4 = 0 ∧ year % 100 ≠ 0) ∨ year % 400 = 0 := by
  simp only [isLeap, ne_eq, decide_eq_true_eq, tmod_eq_zero]

/-- A year of 366 days is a leap year: the fourth of its four years, and not the last of its century
unless that century is the last of the era. -/
theorem isLeap_of_parts {yoe c q r : Nat} {era : Int} (hc : c ≤ 3) (hq : q ≤ 24)
    (hyear : yoe = 100 * c + 4 * q + r) (hr : r = 3) (hlast : q < 24 ∨ c = 3) :
    isLeap (yoe + era * 400 + 1) = true := by
  have hfour : ((yoe : Int) + era * 400 + 1) % 4 = 0 := by omega
  rw [isLeap_iff]
  rcases hlast with hq' | rfl
  · -- Within a century.
    have hcentury : ((yoe : Int) + era * 400 + 1) % 100 = 4 * q + 4 := by omega
    left
    omega
  · by_cases hq' : q = 24
    · right
      omega
    · have hcentury : ((yoe : Int) + era * 400 + 1) % 100 = 4 * q + 4 := by omega
      left
      omega

/-- The last day of a month, when the month is the second one and when it is not. -/
theorem day_le_daysInMonth {year : Int} {mp doy : Nat} (hmp : mp = (5 * doy + 2) / 153)
    (hdoy : doy ≤ 365) (hleap : doy = 365 → isLeap (year + 1) = true) :
    doy - (153 * mp + 2) / 5 + 1 ≤
      daysInMonth (year + if (if mp < 10 then mp + 3 else mp - 9) ≤ 2 then 1 else 0)
        (if mp < 10 then mp + 3 else mp - 9) := by
  have hlast : mp ≤ 11 := by omega
  interval_cases mp <;> simp [daysInMonth]
  all_goals try omega
  split
  · omega
  · next hnot =>
    have hne : doy ≠ 365 := fun h => hnot (hleap h)
    omega

/-- A day count is the count of the date it stands for, and the date is one of the calendar. -/
theorem civilFromDays_spec {days year : Int} {month day : Nat}
    (h : civilFromDays days = (year, month, day)) :
    daysFromCivil year month day = days ∧ 1 ≤ month ∧ month ≤ 12 ∧ 1 ≤ day ∧
      day ≤ daysInMonth year month ∧
      400 * ((days + 719468) / 146097) ≤ year ∧ year ≤ 400 * ((days + 719468) / 146097) + 400 := by
  have hera := @floor_tdiv (days + 719468) 146097 146096 (by omega) (by omega)
  simp only [civilFromDays, hera, Prod.mk.injEq] at h
  obtain ⟨hbound, hdays⟩ := day_of_era (days + 719468)
  generalize (days + 719468) / 146097 = era at h hbound hdays ⊢
  generalize (days + 719468 - era * 146097).toNat = doe at h hbound hdays
  generalize hyoe : (doe - doe / 1460 + doe / 36524 - doe / 146096) / 365 = yoe at h
  obtain ⟨c, q, r, w, hc, hq, hr, hyear, hparts, hw, hend⟩ := era_parts hbound hyoe.symm
  obtain ⟨hdoy, hback⟩ := day_of_year hq hr hyear hparts
  rw [hdoy] at h
  clear hyoe
  generalize hmp : (5 * w + 2) / 153 = mp at h
  obtain ⟨rfl, rfl, rfl⟩ := h
  have hleap : w = 365 → isLeap (yoe + era * 400 + 1) = true := by
    intro hlast
    obtain ⟨hthird, hlast⟩ := hend hlast
    exact isLeap_of_parts hc hq hyear hthird hlast
  refine ⟨?_, by split <;> omega, by split <;> omega, by omega,
    day_le_daysInMonth hmp.symm hw hleap, by split <;> omega, by split <;> omega⟩
  have hstart : ((yoe : Int) + era * 400 + if (if mp < 10 then mp + 3 else mp - 9) ≤ 2 then 1 else 0)
      - (if (if mp < 10 then mp + 3 else mp - 9) ≤ 2 then 1 else 0) = yoe + era * 400 := by
    omega
  have hfloor := @floor_tdiv ((yoe : Int) + era * 400) 400 399 (by omega) (by omega)
  simp only [daysFromCivil, hstart, hfloor]
  have hyoe' : ((yoe : Int) + era * 400) / 400 = era := by omega
  have hrest : ((yoe : Int) + era * 400 - era * 400).toNat = yoe := by omega
  rw [hyoe', hrest, day_of_month hmp.symm hw, hback, hdays]
  omega

/-! ### The fields of the text -/

theorem zeroPadded_digits (width : Nat) {n : Nat} (hn : n < 10 ^ width) (hwidth : 0 < width) :
    (zeroPadded width n).length = width ∧ (zeroPadded width n).all isDigit = true ∧
      digitsValue (zeroPadded width n) = n := by
  have hlength := (length_decimal_le_iff (n := n) hwidth).mpr hn
  refine ⟨?_, ?_, ?_⟩
  · rw [zeroPadded, List.length_append, List.length_replicate]
    omega
  · rw [zeroPadded, List.all_append, all_isDigit_decimal, Bool.and_true, List.all_eq_true]
    intro c hc
    rw [List.eq_of_mem_replicate hc]
    rfl
  · rw [zeroPadded, digitsValue_append, digitsValue_zeros, digitsValue_decimal]
    omega

/-- A field of two digits. -/
theorem zeroPadded_two {n : Nat} (hn : n < 100) : ∃ a b, zeroPadded 2 n = [a, b] ∧
    [a, b].all isDigit = true ∧ digitsValue [a, b] = n := by
  obtain ⟨hlength, hall, hvalue⟩ := zeroPadded_digits 2 hn (by omega)
  obtain ⟨a, b, hab⟩ := List.length_eq_two.mp hlength
  rw [hab] at hall hvalue
  exact ⟨a, b, hab, hall, hvalue⟩

/-- A field of four digits. -/
theorem zeroPadded_four {n : Nat} (hn : n < 10000) : ∃ a b c d, zeroPadded 4 n = [a, b, c, d] ∧
    [a, b, c, d].all isDigit = true ∧ digitsValue [a, b, c, d] = n := by
  obtain ⟨hlength, hall, hvalue⟩ := zeroPadded_digits 4 hn (by omega)
  match hfour : zeroPadded 4 n, hlength with
  | [a, b, c, d], _ =>
      rw [hfour] at hall hvalue
      exact ⟨a, b, c, d, rfl, hall, hvalue⟩

namespace CivilTime

/-- The text of a date, a time of day and the nanoseconds of the second. -/
def text (c : CivilTime) (fraction : Nat) : Text :=
  zeroPadded 4 c.year ++ 0x2d :: zeroPadded 2 c.month ++ 0x2d :: zeroPadded 2 c.day ++ 0x54 ::
    zeroPadded 2 c.hour ++ 0x3a :: zeroPadded 2 c.minute ++ 0x3a :: zeroPadded 2 c.second
    ++ (if fraction = 0 then [] else 0x2e :: zeroPadded 9 fraction) ++ [0x5a]

/-- The fields of a date of the calendar and of a time of day. -/
structure Proper (c : CivilTime) : Prop where
  year : c.year < 10000
  month : 1 ≤ c.month ∧ c.month ≤ 12
  day : 1 ≤ c.day ∧ c.day ≤ daysInMonth c.year c.month
  hour : c.hour ≤ 23
  minute : c.minute ≤ 59
  second : c.second ≤ 59

theorem daysInMonth_le (year : Int) (month : Nat) : daysInMonth year month ≤ 31 := by
  have hmonths : ∀ m : Fin 12, [31, 28, 31, 30, 31, 30, 31, 31, 30, 31, 30, 31].getD m.val 0 ≤ 31 := by
    decide
  unfold daysInMonth
  split
  · omega
  · by_cases h : month - 1 < 12
    · exact hmonths ⟨month - 1, h⟩
    · rw [List.getD_eq_default _ _ (by simpa using h)]
      omega

theorem Proper.check {c : CivilTime} (h : c.Proper) : c.check = .ok () := by
  obtain ⟨-, hmonth, hday, hhour, hminute, hsecond⟩ := h
  simp only [CivilTime.check, seq_eq_ok, failIf_eq_ok]
  omega

end CivilTime

theorem readInt_field {text digits : Text} {offset length n : Nat}
    (hlong : offset + length ≤ text.length) (hfield : (text.drop offset).take length = digits)
    (hall : digits.all isDigit = true) (hvalue : digitsValue digits = n) :
    readInt text offset length = .ok n := by
  unfold readInt
  rw [if_neg (by omega), hfield, if_pos hall, hvalue]

/-- The fraction behind the 19 bytes of date and time. -/
theorem fractionOf_text (front : Text) (hfront : front.length = 19) {fraction : Nat}
    (hfraction : fraction < 10 ^ 9) :
    fractionOf (front ++ ((if fraction = 0 then [] else 0x2e :: zeroPadded 9 fraction) ++ [0x5a]))
      = .ok (fraction : Int) := by
  obtain ⟨hlength, hall, hvalue⟩ := zeroPadded_digits 9 hfraction (by omega)
  by_cases hzero : fraction = 0
  · rw [if_pos hzero, fractionOf, if_neg (by simp [hfront]), hzero]
    rfl
  · rw [if_neg hzero, fractionOf, if_pos (by simp [hfront, hlength])]
    have hdot : (front ++ (0x2e :: zeroPadded 9 fraction ++ [0x5a])).getD 19 0 = 0x2e := by
      rw [List.getD_append_right _ _ _ _ (by omega), hfront]
      rfl
    have hdigits : ((front ++ (0x2e :: zeroPadded 9 fraction ++ [0x5a])).drop 20).dropLast
        = zeroPadded 9 fraction := by
      rw [List.drop_append, List.drop_of_length_le (by omega), hfront]
      simp
    have htake : (zeroPadded 9 fraction).take 9 = zeroPadded 9 fraction :=
      List.take_of_length_le (by omega)
    rw [hdot, hdigits, seq_eq_ok]
    refine ⟨failIf_eq_ok.mpr (by simp), ?_⟩
    rw [seq_eq_ok]
    refine ⟨failIf_eq_ok.mpr (by simp [hall]), ?_⟩
    rw [pure_eq_ok, htake, hlength, hvalue]
    omega

/-- The text of a proper date and time is read as its fields. -/
theorem CivilTime.Proper.fromIso8601_text {c : CivilTime} (h : c.Proper) {fraction : Nat}
    (hfraction : fraction < 10 ^ 9) :
    Timestamp.fromIso8601 (c.text fraction) = c.combine fraction := by
  obtain ⟨y0, y1, y2, y3, hyear, hyeard, hyearv⟩ := zeroPadded_four h.year
  obtain ⟨m0, m1, hmonth, hmonthd, hmonthv⟩ := zeroPadded_two (n := c.month) (by have := h.month; omega)
  obtain ⟨d0, d1, hday, hdayd, hdayv⟩ := zeroPadded_two (n := c.day)
    (by have := h.day; have := daysInMonth_le c.year c.month; omega)
  obtain ⟨h0, h1, hhour, hhourd, hhourv⟩ := zeroPadded_two (n := c.hour) (by have := h.hour; omega)
  obtain ⟨i0, i1, hminute, hminuted, hminutev⟩ :=
    zeroPadded_two (n := c.minute) (by have := h.minute; omega)
  obtain ⟨s0, s1, hsecond, hsecondd, hsecondv⟩ :=
    zeroPadded_two (n := c.second) (by have := h.second; omega)
  have htext : c.text fraction = [y0, y1, y2, y3, 0x2d, m0, m1, 0x2d, d0, d1, 0x54, h0, h1, 0x3a,
      i0, i1, 0x3a, s0, s1]
      ++ ((if fraction = 0 then [] else 0x2e :: zeroPadded 9 fraction) ++ [0x5a]) := by
    rw [text, hyear, hmonth, hday, hhour, hminute, hsecond]
    simp
  have hfractionText := fractionOf_text ([y0, y1, y2, y3, 0x2d, m0, m1, 0x2d, d0, d1, 0x54,
    h0, h1, 0x3a, i0, i1, 0x3a, s0, s1]) rfl hfraction
  rw [htext]
  generalize (if fraction = 0 then [] else 0x2e :: zeroPadded 9 fraction) = middle at *
  have hlong : 20 ≤ ([y0, y1, y2, y3, 0x2d, m0, m1, 0x2d, d0, d1, 0x54, h0, h1, 0x3a,
      i0, i1, 0x3a, s0, s1] ++ (middle ++ [0x5a])).length := by simp
  have hread : read ([y0, y1, y2, y3, 0x2d, m0, m1, 0x2d, d0, d1, 0x54, h0, h1, 0x3a,
      i0, i1, 0x3a, s0, s1] ++ (middle ++ [0x5a])) = .ok c := by
    unfold read
    rw [readInt_field ?_ ?_ hyeard hyearv, readInt_field ?_ ?_ hmonthd hmonthv,
      readInt_field ?_ ?_ hdayd hdayv, readInt_field ?_ ?_ hhourd hhourv,
      readInt_field ?_ ?_ hminuted hminutev, readInt_field ?_ ?_ hsecondd hsecondv]
    · rfl
    all_goals first | rfl | omega
  have hlast : ([y0, y1, y2, y3, 0x2d, m0, m1, 0x2d, d0, d1, 0x54, h0, h1, 0x3a,
      i0, i1, 0x3a, s0, s1] ++ (middle ++ [0x5a])).getLastD 0 = 0x5a := by
    rw [List.getLastD_eq_getLast?, ← List.append_assoc, List.getLast?_concat]
    rfl
  rw [Timestamp.fromIso8601, hread, hfractionText, hlast]
  simp only [failIf, if_neg (Nat.not_lt.mpr hlong)]
  rw [if_neg (by simp)]
  show (do c.check; c.combine fraction : Result Timestamp) = _
  rw [h.check]
  rfl

/-! ### The round trip -/

/-- The seconds since the epoch. -/
def CivilTime.seconds (c : CivilTime) : Int :=
  daysFromCivil c.year c.month c.day * 86400 + (c.hour * 3600 + (c.minute * 60 + c.second))

section

variable {c : CivilTime} (h : c.Proper) (hdays : -10 ^ 6 ≤ daysFromCivil c.year c.month c.day ∧
  daysFromCivil c.year c.month c.day ≤ 10 ^ 6)

include h hdays

/-- Days, hours and minutes are small, so only the nanoseconds can overflow. -/
theorem CivilTime.combine_eq (fraction : Int) : c.combine fraction = (do
    let nanos ← orOverflow (checkedMulI64 c.seconds kNanosPerSecond)
      "timestamp nanoseconds overflow"
    let total ← orOverflow (checkedAddI64 nanos fraction) "timestamp fraction overflow"
    pure ⟨Int64.ofInt total⟩) := by
  have hmax : kI64Max = 2 ^ 63 - 1 := rfl
  have hmin : kI64Min = -2 ^ 63 := rfl
  obtain ⟨-, -, -, hhour, hminute, hsecond⟩ := h
  have hday : checkedMulI64 (daysFromCivil c.year c.month c.day) 86400
      = some (daysFromCivil c.year c.month c.day * 86400) :=
    (checkedMulI64_eq_some (by omega)).mpr ⟨rfl, by omega, by omega⟩
  have hhours : checkedMulI64 (c.hour : Int) 3600 = some ((c.hour : Int) * 3600) :=
    (checkedMulI64_eq_some (by omega)).mpr ⟨rfl, by omega, by omega⟩
  have hadd : checkedAddI64 ((c.hour : Int) * 3600) (c.minute * 60 + c.second)
      = some ((c.hour : Int) * 3600 + (c.minute * 60 + c.second)) :=
    (checkedAddI64_eq_some (by omega)).mpr ⟨rfl, by omega, by omega⟩
  have htotal : checkedAddI64 (daysFromCivil c.year c.month c.day * 86400)
      ((c.hour : Int) * 3600 + (c.minute * 60 + c.second)) = some c.seconds :=
    (checkedAddI64_eq_some (by omega)).mpr ⟨rfl, by omega, by omega⟩
  simp only [combine, hday, hhours, hadd, htotal, orOverflow, bind, Except.bind]

/-- The arithmetic of `from_iso8601` succeeds exactly when the nanoseconds fit, and those of the
whole seconds as well. -/
theorem CivilTime.combine_eq_ok {fraction : Int} {t : Timestamp} :
    c.combine fraction = .ok t ↔
      (kI64Min ≤ c.seconds * kNanosPerSecond ∧ c.seconds * kNanosPerSecond ≤ kI64Max) ∧
        (kI64Min ≤ c.seconds * kNanosPerSecond + fraction ∧
          c.seconds * kNanosPerSecond + fraction ≤ kI64Max) ∧
        t = ⟨Int64.ofInt (c.seconds * kNanosPerSecond + fraction)⟩ := by
  rw [CivilTime.combine_eq h hdays]
  cases hnanos : checkedMulI64 c.seconds kNanosPerSecond with
  | none =>
      simp only [orOverflow, bind, Except.bind, reduceCtorEq, false_iff]
      rintro ⟨hfits, -, -⟩
      rw [(checkedMulI64_eq_some (by decide)).mpr ⟨rfl, hfits⟩] at hnanos
      cases hnanos
  | some nanos =>
      obtain ⟨rfl, hfits⟩ := (checkedMulI64_eq_some (by decide)).mp hnanos
      simp only [orOverflow, bind, Except.bind]
      cases hsum : checkedAddI64 (c.seconds * kNanosPerSecond) fraction with
      | none =>
          simp only [reduceCtorEq, false_iff]
          rintro ⟨-, hsumfits, -⟩
          rw [(checkedAddI64_eq_some hfits).mpr ⟨rfl, hsumfits⟩] at hsum
          cases hsum
      | some total =>
          obtain ⟨rfl, hsumfits⟩ := (checkedAddI64_eq_some hfits).mp hsum
          constructor
          · intro heq
            cases heq
            exact ⟨hfits, hsumfits, rfl⟩
          · rintro ⟨-, -, rfl⟩
            rfl

/-- Where the nanoseconds of the whole seconds do not fit, this is the error. -/
theorem CivilTime.combine_of_overflow (fraction : Int)
    (hoverflow : ¬ (kI64Min ≤ c.seconds * kNanosPerSecond ∧
      c.seconds * kNanosPerSecond ≤ kI64Max)) :
    c.combine fraction
      = .error (makeError .arithmeticOverflow "timestamp nanoseconds overflow") := by
  rw [CivilTime.combine_eq h hdays]
  cases hnanos : checkedMulI64 c.seconds kNanosPerSecond with
  | none => rfl
  | some nanos => exact absurd ((checkedMulI64_eq_some (by decide)).mp hnanos).2 hoverflow

end

/-- The second correction that the source makes to quotient and remainder: both are rounded
down. -/
theorem floor_parts (n : Int) :
    (if n.tmod kNanosPerSecond < 0 then n.tdiv kNanosPerSecond - 1 else n.tdiv kNanosPerSecond)
        = n / kNanosPerSecond ∧
      (if n.tmod kNanosPerSecond < 0 then n.tmod kNanosPerSecond + kNanosPerSecond
        else n.tmod kNanosPerSecond) = n % kNanosPerSecond := by
  have hnanos : kNanosPerSecond = 1000000000 := rfl
  have hsign : Int.sign 1000000000 = 1 := rfl
  rw [hnanos, Int.tmod_eq_emod, Int.tdiv_eq_ediv, hsign]
  by_cases h : 0 ≤ n ∨ (1000000000 : Int) ∣ n
  · simp only [h, if_true]
    omega
  · simp only [h, if_false]
    omega

namespace Timestamp

/-- The text of a timestamp: its seconds since the epoch, rounded down, as a date and a time, and
the nanoseconds that are left. -/
theorem toIso8601_eq (t : Timestamp) : ∃ c : CivilTime, c.Proper ∧
    c.seconds = t.nanos.toInt / kNanosPerSecond ∧
    (-10 ^ 6 ≤ daysFromCivil c.year c.month c.day ∧
      daysFromCivil c.year c.month c.day ≤ 10 ^ 6) ∧
    t.toIso8601 = c.text (t.nanos.toInt % kNanosPerSecond).toNat := by
  have hlow := t.nanos.le_toInt
  have hhigh := t.nanos.toInt_lt
  have hnanos : kNanosPerSecond = 1000000000 := rfl
  obtain ⟨hseconds, hremainder⟩ := floor_parts t.nanos.toInt
  generalize hs : t.nanos.toInt / kNanosPerSecond = seconds at *
  have hquotient : t.nanos.toInt / 1000000000 = seconds := hs
  have hdays : (if seconds ≥ 0 then seconds.tdiv 86400 else (seconds - 86399).tdiv 86400)
      = seconds / 86400 := by
    rw [← floor_tdiv (d := seconds) (k := 86400) (j := 86399) (by omega) (by omega)]
    split <;> rfl
  obtain ⟨⟨year, month, day⟩, hcivil⟩ : ∃ date, civilFromDays (seconds / 86400) = date := ⟨_, rfl⟩
  obtain ⟨hback, hmonth, hmonth', hday, hday', hyear, hyear'⟩ := civilFromDays_spec hcivil
  have hrange : 0 ≤ year ∧ year < 10000 := by omega
  have hcast : ((year.toNat : Nat) : Int) = year := Int.toNat_of_nonneg hrange.1
  generalize hsod : seconds - seconds / 86400 * 86400 = secondOfDay
  have hsod' : 0 ≤ secondOfDay ∧ secondOfDay < 86400 := by omega
  have hhour := Int.tdiv_eq_ediv_of_nonneg hsod'.1 (b := 3600)
  have hminute := Int.tmod_eq_emod_of_nonneg hsod'.1 (b := 3600)
  have hminute' := Int.tdiv_eq_ediv_of_nonneg (a := secondOfDay % 3600) (by omega) (b := 60)
  have hsecond := Int.tmod_eq_emod_of_nonneg hsod'.1 (b := 60)
  refine ⟨⟨year.toNat, month, day, (secondOfDay / 3600).toNat, (secondOfDay % 3600 / 60).toNat,
    (secondOfDay % 60).toNat⟩, ⟨by dsimp only; omega, ⟨hmonth, hmonth'⟩, ?_, by dsimp only; omega,
    by dsimp only; omega, by dsimp only; omega⟩, ?_, ?_, ?_⟩
  · dsimp only
    rw [hcast]
    exact ⟨hday, hday'⟩
  · dsimp only [CivilTime.seconds]
    rw [hcast, hback]
    omega
  · dsimp only
    rw [hcast, hback]
    omega
  · simp only [toIso8601, hseconds, hremainder, hdays, hcivil, hsod, hhour, hminute, hminute', hsecond]
    rw [yearText, if_neg (by omega), show year.natAbs = year.toNat by omega]
    have hzero : (t.nanos.toInt % kNanosPerSecond).toNat = 0
        ↔ t.nanos.toInt % kNanosPerSecond = 0 := by
      rw [hnanos]
      omega
    simp only [CivilTime.text, hzero]

/-- What is read from the text of a timestamp: the seconds and the fraction of the timestamp are put
together again. -/
theorem exists_combine (t : Timestamp) : ∃ (c : CivilTime) (fraction : Nat), c.Proper ∧
    (-10 ^ 6 ≤ daysFromCivil c.year c.month c.day ∧ daysFromCivil c.year c.month c.day ≤ 10 ^ 6) ∧
    fromIso8601 t.toIso8601 = c.combine fraction ∧
    c.seconds = t.nanos.toInt / kNanosPerSecond ∧
    c.seconds * kNanosPerSecond + fraction = t.nanos.toInt := by
  have hnanos : kNanosPerSecond = 1000000000 := rfl
  obtain ⟨c, hproper, hseconds, hdays, htext⟩ := toIso8601_eq t
  refine ⟨c, (t.nanos.toInt % kNanosPerSecond).toNat, hproper, hdays, ?_, hseconds, ?_⟩
  · rw [htext, hproper.fromIso8601_text (by rw [hnanos]; omega)]
  · rw [hseconds, hnanos]
    omega

/-- A timestamp is read back from its text exactly when the nanoseconds of its whole seconds,
rounded down, fit in 64 bits. -/
theorem fromIso8601_toIso8601 (t : Timestamp) :
    fromIso8601 t.toIso8601 = .ok t ↔ -9223372036000000000 ≤ t.nanos.toInt := by
  have hlow := t.nanos.le_toInt
  have hhigh := t.nanos.toInt_lt
  have hnanos : kNanosPerSecond = 1000000000 := rfl
  have hmax : kI64Max = 2 ^ 63 - 1 := rfl
  have hmin : kI64Min = -2 ^ 63 := rfl
  obtain ⟨c, fraction, hproper, hdays, hread, hseconds, hparts⟩ := exists_combine t
  rw [hread, CivilTime.combine_eq_ok hproper hdays, hparts, Int64.ofInt_toInt, hseconds, hnanos]
  simp only [and_true]
  omega

/-- The text of a timestamp gives the timestamp, or an overflow in the last second of the range. -/
theorem iso8601_round_trip_iff (n : Int64) :
    (fromIso8601 (⟨n⟩ : Timestamp).toIso8601 = .ok ⟨n⟩ ↔ -9223372036000000000 ≤ n.toInt) ∧
      (fromIso8601 (⟨n⟩ : Timestamp).toIso8601 = .ok ⟨n⟩ ∨
        fromIso8601 (⟨n⟩ : Timestamp).toIso8601
          = .error (makeError .arithmeticOverflow "timestamp nanoseconds overflow")) := by
  refine ⟨fromIso8601_toIso8601 ⟨n⟩, ?_⟩
  by_cases hlow : -9223372036000000000 ≤ n.toInt
  · exact .inl ((fromIso8601_toIso8601 ⟨n⟩).mpr hlow)
  · have hnanos : kNanosPerSecond = 1000000000 := rfl
    have hmin : kI64Min = -2 ^ 63 := rfl
    obtain ⟨c, fraction, hproper, hdays, hread, hseconds, -⟩ := exists_combine ⟨n⟩
    right
    rw [hread]
    apply CivilTime.combine_of_overflow hproper hdays
    rw [hseconds, hnanos]
    dsimp only
    omega

/-- The least timestamp is written and not read back. -/
theorem least_timestamp_lost :
    fromIso8601 (⟨Int64.minValue⟩ : Timestamp).toIso8601
      = .error (makeError .arithmeticOverflow "timestamp nanoseconds overflow") := by
  decide +kernel

end Timestamp

end CongestionObservatory
