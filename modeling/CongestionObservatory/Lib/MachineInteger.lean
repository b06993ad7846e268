import Mathlib.Data.Int.Basic
import Mathlib.Algebra.GroupWithZero.Nat
import Mathlib.Algebra.Ring.Int.Defs

/-!
# `CongestionObservatory.Lib.MachineInteger`: integers of a range, and operations that may fault

An `IntegerType` is the range of a machine integer, signed or unsigned. A value carries the proof
that it lies in the range. An operation computes the mathematical result and faults where that
result is not a value: an `overflow`, or a `divisionByZero`. A program that is written with these
operations and returns shows that no step of it faulted.

Division truncates towards zero. `le_tdiv_iff` and its companions say what a comparison with a
truncated quotient means for the product.
-/

set_option autoImplicit false

namespace Lib

/-- What may go wrong in an operation. -/
inductive Fault where
  | overflow
  | divisionByZero
  deriving DecidableEq

/-- The range of an integer type. A signed type has a negative for each of its positive values. -/
structure IntegerType where
  min : Int
  max : Int
  min_nonpos : min ≤ 0
  max_nonneg : 0 ≤ max
  unsigned_or_signed : min = 0 ∨ min ≤ -max

namespace IntegerType

/-- Unsigned integers of a number of bits. -/
def unsigned (bits : Nat) : IntegerType where
  min := 0
  max := 2 ^ bits - 1
  min_nonpos := Int.le_refl 0
  max_nonneg := by
    have hpow : (0 : Int) < 2 ^ bits := Int.pow_pos (by decide)
    omega
  unsigned_or_signed := Or.inl rfl

/-- Signed integers in two's complement: the sign and a number of other bits. -/
def signed (bits : Nat) : IntegerType where
  min := -2 ^ bits
  max := 2 ^ bits - 1
  min_nonpos := by
    have hpow : (0 : Int) < 2 ^ bits := Int.pow_pos (by decide)
    omega
  max_nonneg := by
    have hpow : (0 : Int) < 2 ^ bits := Int.pow_pos (by decide)
    omega
  unsigned_or_signed := by omega

variable (T : IntegerType)

/-- A number is representable. -/
def InRange (n : Int) : Prop := T.min ≤ n ∧ n ≤ T.max

instance (n : Int) : Decidable (T.InRange n) := inferInstanceAs (Decidable (_ ∧ _))

/-- A value of the type. -/
def Value : Type := { n : Int // T.InRange n }

instance : DecidableEq T.Value := inferInstanceAs (DecidableEq { n : Int // T.InRange n })

/-- Only an unsigned type has no negative values. -/
def isUnsigned : Bool := decide (T.min = 0)

/-- Zero, which every type has. -/
def zero : T.Value := ⟨0, T.min_nonpos, T.max_nonneg⟩

/-- `std::numeric_limits<T>::max()`. -/
def maxValue : T.Value := ⟨T.max, Int.le_trans T.min_nonpos T.max_nonneg, Int.le_refl T.max⟩

/-- `std::numeric_limits<T>::min()`. -/
def minValue : T.Value := ⟨T.min, Int.le_refl T.min, Int.le_trans T.min_nonpos T.max_nonneg⟩

/-- The value of a number, when there is one. -/
def fit (n : Int) : Option T.Value := if h : T.InRange n then some ⟨n, h⟩ else none

/-- The result of an operation. -/
def result (n : Int) : Except Fault T.Value :=
  match T.fit n with
  | some v => .ok v
  | none => .error .overflow

variable {T}

def add (a b : T.Value) : Except Fault T.Value := T.result (a.val + b.val)

def sub (a b : T.Value) : Except Fault T.Value := T.result (a.val - b.val)

def mul (a b : T.Value) : Except Fault T.Value := T.result (a.val * b.val)

def div (a b : T.Value) : Except Fault T.Value :=
  if b.val = 0 then .error .divisionByZero else T.result (a.val.tdiv b.val)

/-! ### Values -/

@[simp] theorem val_zero : T.zero.val = 0 := rfl

@[simp] theorem val_maxValue : T.maxValue.val = T.max := rfl

@[simp] theorem val_minValue : T.minValue.val = T.min := rfl

theorem isUnsigned_iff : T.isUnsigned = true ↔ T.min = 0 := decide_eq_true_iff

theorem fit_of_inRange {n : Int} (h : T.InRange n) : T.fit n = some ⟨n, h⟩ := dif_pos h

theorem fit_eq_none {n : Int} : T.fit n = none ↔ ¬ T.InRange n := by
  rw [fit]
  split <;> simp_all

theorem fit_eq_some {n : Int} {v : T.Value} : T.fit n = some v ↔ v.val = n := by
  by_cases h : T.InRange n
  · rw [fit_of_inRange h]
    constructor
    · rintro ⟨⟩
      rfl
    · rintro rfl
      rfl
  · rw [fit_eq_none.mpr h]
    constructor
    · intro hnone
      cases hnone
    · rintro rfl
      exact absurd v.property h

@[simp] theorem fit_val (v : T.Value) : T.fit v.val = some v := fit_eq_some.mpr rfl

/-- An operation with a representable result does not fault. -/
theorem result_of_inRange {n : Int} (h : T.InRange n) : T.result n = .ok ⟨n, h⟩ := by
  rw [result, fit_of_inRange h]

theorem div_of_inRange {a b : T.Value} (hb : b.val ≠ 0) (h : T.InRange (a.val.tdiv b.val)) :
    div a b = .ok ⟨a.val.tdiv b.val, h⟩ := by
  rw [div, if_neg hb, result_of_inRange h]

/-- The operation may be done, if it does not overflow. -/
theorem result_map_some {n : Int} (h : T.InRange n) : some <$> T.result n = .ok (T.fit n) := by
  rw [result_of_inRange h, fit_of_inRange h]
  rfl

end IntegerType

/-! ### Truncated quotients -/

/-- A quotient by a positive value bounds what fits under the dividend. -/
theorem le_tdiv_iff {bound lhs rhs : Int} (hbound : 0 ≤ bound) (hrhs : 0 < rhs) :
    lhs ≤ bound.tdiv rhs ↔ lhs * rhs ≤ bound := by
  rw [Int.tdiv_eq_ediv_of_nonneg hbound]
  exact Int.le_ediv_iff_mul_le hrhs

/-- The same from below. -/
theorem tdiv_le_iff {bound lhs rhs : Int} (hbound : bound ≤ 0) (hrhs : 0 < rhs) :
    bound.tdiv rhs ≤ lhs ↔ bound ≤ lhs * rhs := by
  have hneg := @le_tdiv_iff (-bound) (-lhs) rhs (by omega) hrhs
  rw [Int.neg_tdiv, Int.neg_mul] at hneg
  omega

/-- The divisor is negative: the quotient bounds from below what the dividend bounds from above. -/
theorem tdiv_neg_le_iff {bound lhs rhs : Int} (hbound : 0 ≤ bound) (hrhs : rhs < 0) :
    bound.tdiv rhs ≤ lhs ↔ lhs * rhs ≤ bound := by
  have hneg := @le_tdiv_iff bound (-lhs) (-rhs) hbound (by omega)
  rw [Int.tdiv_neg, Int.neg_mul_neg] at hneg
  omega

/-- A quotient lies between the dividend and its negative. -/
theorem natAbs_tdiv_le (a b : Int) : -(a.natAbs : Int) ≤ a.tdiv b ∧ a.tdiv b ≤ a.natAbs := by
  have hle := Int.natAbs_tdiv_le_natAbs a b
  omega

end Lib
