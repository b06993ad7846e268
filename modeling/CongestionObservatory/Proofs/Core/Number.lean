import CongestionObservatory.Core.Number
import Mathlib.Tactic.Positivity
import Mathlib.Tactic.Ring
import Mathlib.Data.Rat.Lemmas

/-!
# `CongestionObservatory.Proofs.Core.Number`: number texts read back

The decimal text of a number is a list of digits with that number as its value. From this a 64-bit
integer is read back from its text (`fromCharsInt64_signed`). The scientific text of a
`double` is read as the decimal it spells (`fromChars_scientific`), and a whole number that is a
`double` is converted to that `double` (`ofInt_num`), whatever the rounding would do to others.
-/

set_option autoImplicit false

namespace CongestionObservatory

/-! ### Digits -/

/-- The byte of one digit. -/
def digitByte (d : Nat) : UInt8 := UInt8.ofNat (0x30 + d)

theorem toNat_digitByte {d : Nat} (h : d < 10) : (digitByte d).toNat = 0x30 + d := by
  rw [digitByte, UInt8.toNat_ofNat']
  omega

theorem isDigit_iff {c : UInt8} : isDigit c = true ↔ 0x30 ≤ c.toNat ∧ c.toNat ≤ 0x39 := by
  simp only [isDigit, Bool.and_eq_true, decide_eq_true_eq, UInt8.le_iff_toNat_le]
  rfl

theorem isDigit_digitByte {d : Nat} (h : d < 10) : isDigit (digitByte d) = true := by
  rw [isDigit_iff, toNat_digitByte h]
  omega

theorem digitsValue_append (a b : Text) :
    digitsValue (a ++ b) = digitsValue a * 10 ^ b.length + digitsValue b := by
  -- The fold over `b` starts from the value of `a`, so the accumulator is general.
  have key : ∀ (l : Text) (v : Nat), l.foldl (fun v c => v * 10 + (c.toNat - 0x30)) v
      = v * 10 ^ l.length + digitsValue l := by
    intro l
    induction l with
    | nil => intro v; simp [digitsValue]
    | cons c rest ih =>
        intro v
        rw [digitsValue, List.foldl_cons, List.foldl_cons, ih, ih (0 * 10 + (c.toNat - 0x30)),
          List.length_cons]
        ring
  rw [digitsValue, List.foldl_append]
  exact key b _

theorem digitsValue_singleton {d : Nat} (h : d < 10) : digitsValue [digitByte d] = d := by
  show 0 * 10 + ((digitByte d).toNat - 0x30) = d
  rw [toNat_digitByte h]
  omega

@[simp] theorem digitsValue_zeros (k : Nat) : digitsValue (List.replicate k 0x30) = 0 := by
  induction k with
  | zero => rfl
  | succ k ih =>
      rw [List.replicate_succ', digitsValue_append, ih]
      rfl

/-- The last digit and the digits before it. -/
theorem decimal_eq (n : Nat) :
    decimal n = if n < 10 then [digitByte n] else decimal (n / 10) ++ [digitByte (n % 10)] := by
  have hdigit : ∀ d, d < 10 → UInt8.ofNat (Nat.digitChar d).toNat = digitByte d := by decide
  rw [decimal, Nat.toDigits_eq_if (by omega)]
  split
  · next h => rw [List.map_singleton, hdigit n h]
  · rw [List.map_append, List.map_singleton, hdigit _ (Nat.mod_lt n (by omega))]
    rfl

@[simp] theorem digitsValue_decimal (n : Nat) : digitsValue (decimal n) = n := by
  induction n using Nat.strongRecOn with
  | ind n ih =>
      rw [decimal_eq]
      split
      · next h => exact digitsValue_singleton h
      · rw [digitsValue_append, ih (n / 10) (by omega), digitsValue_singleton (Nat.mod_lt n (by omega))]
        show n / 10 * 10 ^ 1 + n % 10 = n
        omega

theorem all_isDigit_decimal (n : Nat) : (decimal n).all isDigit = true := by
  induction n using Nat.strongRecOn with
  | ind n ih =>
      rw [decimal_eq]
      split
      · next h => simp [isDigit_digitByte h]
      · rw [List.all_append, ih (n / 10) (by omega)]
        simp [isDigit_digitByte (Nat.mod_lt n (by omega : 0 < 10))]

@[simp] theorem decimal_ne_nil (n : Nat) : decimal n ≠ [] := by
  simp [decimal]

theorem length_decimal_le_iff {n k : Nat} (hk : 0 < k) : (decimal n).length ≤ k ↔ n < 10 ^ k := by
  rw [decimal, List.length_map]
  exact Nat.length_toDigits_le_iff (by omega) hk

/-! ### Integers -/

/-- A text that starts with a digit has no sign. -/
theorem splitSign_of_digit {c : UInt8} {rest : Text} (h : isDigit c = true) :
    splitSign (c :: rest) = (false, c :: rest) := by
  have hne : c ≠ 0x2d := by
    rintro rfl
    exact absurd h (by decide)
  rw [splitSign, if_neg hne]

theorem splitSign_decimal (n : Nat) (rest : Text) :
    splitSign (decimal n ++ rest) = (false, decimal n ++ rest) := by
  have hall := all_isDigit_decimal n
  cases hd : decimal n with
  | nil => exact absurd hd (decimal_ne_nil n)
  | cons c tail =>
      rw [hd, List.all_cons, Bool.and_eq_true] at hall
      exact splitSign_of_digit hall.1

/-- The text of a number behind its sign, as it is split. -/
theorem splitSign_signed (negative : Bool) (n : Nat) (rest : Text) :
    splitSign ((if negative then [0x2d] else []) ++ (decimal n ++ rest))
      = (negative, decimal n ++ rest) := by
  cases negative with
  | false => exact splitSign_decimal n rest
  | true => rfl

theorem toCharsInt64_eq (value : Int64) :
    toCharsInt64 value
      = (if decide (value.toInt < 0) then [0x2d] else []) ++ decimal value.toInt.natAbs := by
  by_cases h : value.toInt < 0 <;> simp [toCharsInt64, h]

/-- An integer of 64 bits is read as itself. -/
theorem fromCharsInt64_signed {value : Int} (hlow : -2 ^ 63 ≤ value) (hhigh : value < 2 ^ 63)
    {negative : Bool} (hsign : value < 0 → negative = true) (hsign' : 0 < value → negative = false) :
    fromCharsInt64 ((if negative then [0x2d] else []) ++ decimal value.natAbs)
      = .ok (Int64.ofInt value) := by
  have hsplit := splitSign_signed negative value.natAbs []
  rw [List.append_nil] at hsplit
  have hvalue : (if negative = true then -(value.natAbs : Int) else value.natAbs) = value := by
    cases negative with
    | false =>
        have hnot : ¬ value < 0 := fun h => Bool.false_ne_true (hsign h)
        show (value.natAbs : Int) = value
        omega
    | true =>
        have hnot : ¬ 0 < value := fun h => Bool.false_ne_true (hsign' h).symm
        show -(value.natAbs : Int) = value
        omega
  rw [fromCharsInt64, hsplit]
  dsimp only
  rw [if_neg (by simp [all_isDigit_decimal]), digitsValue_decimal, hvalue, if_pos ⟨hlow, hhigh⟩]

namespace Double

/-! ### Whole numbers -/

theorem exponent_eq (d : Double) : d.exponent = d.bits.toNat / 2 ^ 52 % 2 ^ 11 := by
  rw [exponent, UInt64.toNat_and, UInt64.toNat_shiftRight]
  show d.bits.toNat >>> 52 &&& (2 ^ 11 - 1) = _
  rw [Nat.and_two_pow_sub_one_eq_mod, Nat.shiftRight_eq_div_pow]

theorem fraction_eq (d : Double) : d.fraction = d.bits.toNat % 2 ^ 52 := by
  rw [fraction, UInt64.toNat_and]
  show d.bits.toNat &&& (2 ^ 52 - 1) = _
  rw [Nat.and_two_pow_sub_one_eq_mod]

theorem negative_eq (d : Double) : d.negative = decide (d.bits.toNat / 2 ^ 63 = 1) := by
  have hsign : (d.bits >>> 63).toNat = d.bits.toNat / 2 ^ 63 := by
    rw [UInt64.toNat_shiftRight]
    show d.bits.toNat >>> 63 = _
    rw [Nat.shiftRight_eq_div_pow]
  rw [negative, beq_eq_decide, decide_eq_decide, ← UInt64.toNat_inj, hsign]
  rfl

/-- The three fields make up the pattern. -/
theorem bits_eq (d : Double) :
    d.bits.toNat = d.fraction + d.exponent * 2 ^ 52 + if d.negative then 2 ^ 63 else 0 := by
  have hbits := d.bits.toNat_lt
  rw [exponent_eq, fraction_eq, negative_eq]
  by_cases h : d.bits.toNat / 2 ^ 63 = 1
  · simp only [h, decide_true, if_true]
    omega
  · simp only [h, decide_false, Bool.false_eq_true, if_false]
    omega

/-- A scaled significand that is a whole number. -/
theorem scaled_eq_intCast {s : Bool} {m : Nat} {e n : Int} (h : scaled s m e = n) :
    n * 2 ^ (-e).toNat = (if s then -(m : Int) else m) * 2 ^ e.toNat := by
  simp only [scaled] at h
  generalize (if s = true then -(m : Int) else m) = k at h ⊢
  by_cases he : 0 ≤ e
  · rw [if_pos he, Rat.mkRat_one] at h
    rw [Rat.intCast_inj.mp h, show (-e).toNat = 0 by omega, pow_zero, mul_one]
  · have hpow : (2 ^ (-e).toNat : ℚ) ≠ 0 := by positivity
    rw [if_neg he, Rat.mkRat_eq_div, div_eq_iff (by exact_mod_cast hpow)] at h
    rw [show e.toNat = 0 by omega, pow_zero, mul_one]
    exact_mod_cast h.symm

/-- The magnitude and the sign of a scaled significand that is a whole number. -/
theorem natAbs_of_scaled {s : Bool} {m : Nat} {e n : Int} (h : scaled s m e = n) :
    n.natAbs * 2 ^ (-e).toNat = m * 2 ^ e.toNat ∧ (0 < m → (n < 0 ↔ s = true)) := by
  have heq := scaled_eq_intCast h
  have hneg : ∀ (a : Int) (k : Nat), a * 2 ^ k < 0 ↔ a < 0 := by
    intro a k
    have hpow : (0 : Int) < 2 ^ k := by positivity
    constructor
    · intro hmul
      by_contra hnot
      have hnonneg := Int.mul_nonneg (Int.not_lt.mp hnot) hpow.le
      omega
    · exact fun ha => Int.mul_neg_of_neg_of_pos ha hpow
  constructor
  · have hnat := congrArg Int.natAbs heq
    rw [Int.natAbs_mul, Int.natAbs_mul, Int.natAbs_pow, Int.natAbs_pow] at hnat
    rw [show (if s = true then -(m : Int) else m).natAbs = m by split <;> omega] at hnat
    exact hnat
  · intro hm
    rw [← hneg n (-e).toNat, heq, hneg]
    cases s
    · simp
    · simp
      omega

/-- The leading bit of a number with a significand of 53 bits. -/
theorem log2_of_significand {n m : Nat} {e : Int} (hlow : 2 ^ 52 ≤ m) (hhigh : m < 2 ^ 53)
    (heq : n * 2 ^ (-e).toNat = m * 2 ^ e.toNat) : (Nat.log2 n : Int) = 52 + e := by
  have hpos : n ≠ 0 := by
    rintro rfl
    have hm : 0 < m * 2 ^ e.toNat := Nat.mul_pos (by omega) (Nat.two_pow_pos _)
    omega
  rcases Int.le_total 0 e with he | he
  · -- The number is the significand with zeros behind it.
    rw [show (-e).toNat = 0 by omega, pow_zero, mul_one] at heq
    have hlog : Nat.log2 n = 52 + e.toNat := by
      rw [Nat.log2_eq_iff hpos, heq, show 52 + e.toNat + 1 = 53 + e.toNat by omega, pow_add, pow_add]
      exact ⟨Nat.mul_le_mul_right _ hlow, Nat.mul_lt_mul_of_pos_right hhigh (Nat.two_pow_pos _)⟩
    omega
  · -- The significand ends in zeros, and the number is what stands before them.
    rw [show e.toNat = 0 by omega, pow_zero, mul_one] at heq
    have hplaces : (-e).toNat ≤ 52 := by
      by_contra hmany
      have hge : 2 ^ 53 ≤ n * 2 ^ (-e).toNat :=
        le_trans (Nat.pow_le_pow_right (by omega) (by omega))
          (Nat.le_mul_of_pos_left _ (Nat.pos_of_ne_zero hpos))
      omega
    have hsplit : ∀ k, 2 ^ (52 + k) = 2 ^ (52 - (-e).toNat + k) * 2 ^ (-e).toNat := by
      intro k
      rw [← pow_add]
      congr 1
      omega
    have hlog : Nat.log2 n = 52 - (-e).toNat := by
      rw [Nat.log2_eq_iff hpos]
      have hzero : 2 ^ 52 = 2 ^ (52 - (-e).toNat) * 2 ^ (-e).toNat := hsplit 0
      have hone := hsplit 1
      constructor
      · exact Nat.le_of_mul_le_mul_right (by omega) (Nat.two_pow_pos (-e).toNat)
      · exact Nat.lt_of_mul_lt_mul_right (by omega : _ * 2 ^ (-e).toNat < _ * 2 ^ (-e).toNat)
    omega

theorem roundQuotient_mul (m : Nat) {d : Nat} (hd : 0 < d) : roundQuotient (m * d) d = m := by
  simp only [roundQuotient, Nat.mul_div_cancel m hd, Nat.mul_mod_left]
  rw [if_neg (by omega)]

/-- A whole number with a significand of 53 bits is not rounded. -/
theorem ofQuotient_exact {n m : Nat} {e : Int} (negative : Bool) (hlow : 2 ^ 52 ≤ m)
    (hhigh : m < 2 ^ 53) (heq : n * 2 ^ (-e).toNat = m * 2 ^ e.toNat) (hmin : -1074 ≤ e)
    (hmax : e ≤ 971) :
    ofQuotient negative n 1
      = some ⟨UInt64.ofNat (patternOf m e + if negative then 2 ^ 63 else 0)⟩ := by
  have hlog := log2_of_significand hlow hhigh heq
  have hpos : n ≠ 0 := by
    rintro rfl
    have hm : 0 < m * 2 ^ e.toNat := Nat.mul_pos (by omega) (Nat.two_pow_pos _)
    omega
  have hscale : scaleOf n 1 = e := by
    have hone : Nat.log2 1 = 0 := by decide
    have hnot : ¬ m * 2 ^ e.toNat < 2 ^ 52 * 2 ^ e.toNat :=
      Nat.not_lt.mpr (Nat.mul_le_mul_right _ hlow)
    simp only [scaleOf, hlog, hone]
    rw [show (52 + e : Int) - (0 : Nat) - 52 = e by omega, one_mul, heq, if_neg hnot]
    omega
  have hpattern : patternOf m e < 0x7ff * 2 ^ 52 ∧ patternOf m e ≠ 0 := by
    rw [patternOf]
    omega
  simp only [ofQuotient, hscale, if_neg hpos, heq, one_mul,
    roundQuotient_mul m (Nat.two_pow_pos e.toNat)]
  rw [if_neg (by omega)]

/-- The number of a finite pattern with an exponent: sign, significand and power of two. -/
theorem toRat_normal {d : Double} (hlow : d.exponent ≠ 0) (hfinite : d.exponent ≠ 0x7ff) :
    d.toRat = scaled d.negative (2 ^ 52 + d.fraction) (d.exponent - 1075) := by
  rw [toRat, if_neg (by simpa using hfinite), if_neg (by simpa using hlow)]

/-- The conversion of a whole number that is a `double` gives that `double`. The one that is lost
is the negative zero. -/
theorem ofInt_num {d : Double} (hfinite : d.isFinite = true) (hwhole : d.toRat.den = 1)
    (hzero : d.toRat.num = 0 → d.negative = false) : ofInt d.toRat.num = d := by
  have hexponent : d.exponent ≠ 0x7ff := by simpa [isFinite] using hfinite
  have hfraction : d.fraction < 2 ^ 52 := by
    rw [fraction_eq]
    exact Nat.mod_lt _ (by omega)
  have hsize : d.exponent < 2 ^ 11 := by
    rw [exponent_eq]
    exact Nat.mod_lt _ (by omega)
  have hnum : ((d.toRat.num : Int) : ℚ) = d.toRat := Rat.coe_int_num_of_den_eq_one hwhole
  have hbits := bits_eq d
  by_cases hlow : d.exponent = 0
  · -- Below the normal numbers only zero is whole.
    have hsub : d.toRat = scaled d.negative d.fraction (-1074) := by
      rw [toRat, if_neg (by simpa using hexponent), if_pos (by simpa using hlow)]
    obtain ⟨hmagnitude, -⟩ := natAbs_of_scaled (hsub.symm.trans hnum.symm)
    have hnumzero : d.toRat.num = 0 := by
      by_contra hne
      have hge : 2 ^ 52 ≤ d.toRat.num.natAbs * 2 ^ (-(-1074) : Int).toNat :=
        le_trans (Nat.pow_le_pow_right (by omega) (by omega))
          (Nat.le_mul_of_pos_left _ (Int.natAbs_pos.mpr hne))
      rw [hmagnitude] at hge
      have hlt : d.fraction * 2 ^ (-1074 : Int).toNat < 2 ^ 52 := by
        rw [show (-1074 : Int).toNat = 0 from rfl, pow_zero, mul_one]
        exact hfraction
      omega
    have hfractionzero : d.fraction = 0 := by
      rw [hnumzero, Int.natAbs_zero, Nat.zero_mul] at hmagnitude
      rcases Nat.mul_eq_zero.mp hmagnitude.symm with h | h
      · exact h
      · exact absurd h (Nat.two_pow_pos _).ne'
    rw [hzero hnumzero, hlow, hfractionzero] at hbits
    rw [hnumzero]
    show Double.zero = d
    exact congrArg Double.mk (UInt64.toNat_inj.mp hbits.symm)
  · obtain ⟨hmagnitude, hsign⟩ :=
      natAbs_of_scaled ((toRat_normal hlow hexponent).symm.trans hnum.symm)
    have hquotient := ofQuotient_exact (decide (d.toRat.num < 0)) (by omega) (by omega)
      hmagnitude (by omega) (by omega)
    have hnegative : decide (d.toRat.num < 0) = d.negative := by
      rw [Bool.eq_iff_iff, decide_eq_true_iff]
      exact hsign (by omega)
    have hpattern : patternOf (2 ^ 52 + d.fraction) (d.exponent - 1075)
        + (if d.negative = true then 2 ^ 63 else 0) = d.bits.toNat := by
      rw [hbits, patternOf]
      omega
    rw [ofInt, hquotient, hnegative, hpattern]
    exact congrArg Double.mk (UInt64.ofNat_toNat)

/-- The sign bit of a whole number other than zero. -/
theorem negative_iff_num {d : Double} (hfinite : d.isFinite = true) (hwhole : d.toRat.den = 1)
    (hne : d.toRat.num ≠ 0) : d.toRat.num < 0 ↔ d.negative = true := by
  have hexponent : d.exponent ≠ 0x7ff := by simpa [isFinite] using hfinite
  have hnum : ((d.toRat.num : Int) : ℚ) = d.toRat := Rat.coe_int_num_of_den_eq_one hwhole
  obtain ⟨m, e, hscaled⟩ : ∃ m e, d.toRat = scaled d.negative m e := by
    by_cases hlow : d.exponent = 0
    · exact ⟨d.fraction, -1074,
        by rw [toRat, if_neg (by simpa using hexponent), if_pos (by simpa using hlow)]⟩
    · exact ⟨_, _, toRat_normal hlow hexponent⟩
  obtain ⟨hmagnitude, hsign⟩ := natAbs_of_scaled (hscaled.symm.trans hnum.symm)
  refine hsign (Nat.pos_of_ne_zero ?_)
  rintro rfl
  rw [Nat.zero_mul] at hmagnitude
  rcases Nat.mul_eq_zero.mp hmagnitude with h | h
  · exact hne (Int.natAbs_eq_zero.mp h)
  · exact absurd h (Nat.two_pow_pos _).ne'

/-! ### The scientific form -/

theorem twoDigits_digits (n : Nat) :
    (twoDigits n).all isDigit = true ∧ digitsValue (twoDigits n) = n ∧ twoDigits n ≠ [] := by
  unfold twoDigits
  split
  · refine ⟨?_, ?_, by simp⟩
    · rw [List.all_cons, all_isDigit_decimal]
      rfl
    · show digitsValue (List.replicate 1 0x30 ++ decimal n) = n
      rw [digitsValue_append, digitsValue_zeros, digitsValue_decimal]
      omega
  · exact ⟨all_isDigit_decimal n, digitsValue_decimal n, decimal_ne_nil n⟩

/-- The exponent part is read as the exponent it was written for. -/
theorem exponentOf_written (exponent : Int) :
    exponentOf (0x65 :: (if exponent < 0 then 0x2d else 0x2b) :: twoDigits exponent.natAbs)
      = some exponent := by
  obtain ⟨hall, hvalue, hne⟩ := twoDigits_digits exponent.natAbs
  have hbad : ¬ (twoDigits exponent.natAbs = [] ∨
      (twoDigits exponent.natAbs).all isDigit = false) := by simp [hne, hall]
  by_cases hneg : exponent < 0
  · rw [if_pos hneg]
    show (if _ then none else some (-(digitsValue (twoDigits exponent.natAbs) : Int))) = _
    rw [if_neg hbad, hvalue, Option.some.injEq]
    omega
  · rw [if_neg hneg]
    show (if _ then none else some (digitsValue (twoDigits exponent.natAbs) : Int)) = _
    rw [if_neg hbad, hvalue, Option.some.injEq]
    omega

theorem takeWhile_digits (digits : Text) (hdigits : digits.all isDigit = true) {c : UInt8}
    (hc : isDigit c = false) (rest : Text) :
    (digits ++ c :: rest).takeWhile isDigit = digits ∧
      (digits ++ c :: rest).dropWhile isDigit = c :: rest := by
  have hmem : ∀ d ∈ digits, isDigit d = true := List.all_eq_true.mp hdigits
  rw [List.takeWhile_append_of_pos hmem, List.dropWhile_append_of_pos hmem]
  simp [hc]

/-- The first digit of a number and the others. -/
theorem decimal_cons (m : Nat) : ∃ c tail, decimal m = c :: tail ∧ isDigit c = true ∧
    tail.all isDigit = true := by
  have hall := all_isDigit_decimal m
  cases h : decimal m with
  | nil => exact absurd h (decimal_ne_nil m)
  | cons c tail =>
      rw [h, List.all_cons, Bool.and_eq_true] at hall
      exact ⟨c, tail, rfl, hall⟩

/-- The scientific text of a decimal is read as that decimal. -/
theorem fromChars_scientific (negative : Bool) (m : Nat) (p : Int) :
    fromChars ((if negative then [0x2d] else []) ++ scientific m p) = ofDecimal negative m p := by
  obtain ⟨c, tail, hm, hc, htail⟩ := decimal_cons m
  have hvalue : digitsValue (c :: tail) = m := by rw [← hm, digitsValue_decimal]
  generalize hexp : p + ((decimal m).length - 1 : Nat) = exponent
  have hpart := exponentOf_written exponent
  generalize hrest : (0x65 : UInt8) :: (if exponent < 0 then 0x2d else 0x2b)
    :: twoDigits exponent.natAbs = rest at hpart
  have hscientific : scientific m p = c :: ((if tail = [] then [] else 0x2e :: tail) ++ rest) := by
    simp only [scientific, hexp]
    rw [hrest, hm]
    by_cases hnil : tail = [] <;> simp [hnil]
  have hsplit : splitSign ((if negative then [0x2d] else []) ++ scientific m p)
      = (negative, scientific m p) := by
    rw [hscientific]
    cases negative with
    | false => exact splitSign_of_digit hc
    | true => rfl
  have hmantissa : mantissaOf (scientific m p) = ([c], tail, rest) := by
    have he : isDigit 0x65 = false := by decide
    have hdot : isDigit 0x2e = false := by decide
    rw [hscientific, mantissaOf, ← hrest]
    by_cases hnil : tail = []
    · obtain ⟨htake, hdrop⟩ := takeWhile_digits [c] (by simp [hc]) he
        ((if exponent < 0 then 0x2d else 0x2b) :: twoDigits exponent.natAbs)
      simp only [hnil, if_true, List.nil_append]
      simp only [List.singleton_append] at htake hdrop
      rw [htake, hdrop]
      rfl
    · obtain ⟨htake, hdrop⟩ := takeWhile_digits [c] (by simp [hc]) hdot
        (tail ++ 0x65 :: (if exponent < 0 then 0x2d else 0x2b) :: twoDigits exponent.natAbs)
      obtain ⟨htake', hdrop'⟩ := takeWhile_digits tail htail he
        ((if exponent < 0 then 0x2d else 0x2b) :: twoDigits exponent.natAbs)
      simp only [hnil, if_false, List.cons_append]
      simp only [List.singleton_append] at htake hdrop
      rw [htake, hdrop]
      show ([c], _, _) = _
      rw [htake', hdrop']
  rw [fromChars, hsplit]
  dsimp only
  rw [hmantissa]
  dsimp only
  rw [if_neg (by simp), hpart]
  dsimp only
  rw [List.singleton_append, hvalue]
  congr 1
  rw [hm, List.length_cons] at hexp
  omega

end Double

end CongestionObservatory
