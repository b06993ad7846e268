import CongestionObservatory.Core.Basic
import CongestionObservatory.Lib.MachineInteger

/-!
# `CongestionObservatory.Core.Checked`: arithmetic that reports an overflow

`checked_add` and `checked_mul` (`core/checked.hpp`) combine sizes and counts that come from
outside. The result is `none` where the source returns `false`. A `std::size_t` and a
`std::uint64_t` have the same 64 bits here; their values are numbers below `2 ^ 64`. The values
of a `std::int64_t` are integers of its range.
-/

set_option autoImplicit false

namespace CongestionObservatory

/-- The number of values of a `std::uint64_t`. -/
def kU64Values : Nat := 2 ^ 64

/-- `checked_add` of two unsigned 64-bit values. -/
def checkedAdd (lhs rhs : Nat) : Option Nat :=
  if rhs > kU64Values - 1 - lhs then none else some (lhs + rhs)

/-- The sum is given exactly when it fits. -/
theorem checkedAdd_eq_some {lhs rhs sum : Nat} (hlhs : lhs < kU64Values) :
    checkedAdd lhs rhs = some sum ↔ sum = lhs + rhs ∧ lhs + rhs < kU64Values := by
  have hvalues : kU64Values = 2 ^ 64 := rfl
  unfold checkedAdd
  split
  · simp only [reduceCtorEq, false_iff]
    omega
  · simp only [Option.some.injEq]
    omega

/-- The largest `std::int64_t`. -/
def kI64Max : Int := 2 ^ 63 - 1

/-- The smallest `std::int64_t`. -/
def kI64Min : Int := -2 ^ 63

/-- `checked_add` of two signed 64-bit values. -/
def checkedAddI64 (lhs rhs : Int) : Option Int :=
  if rhs > 0 ∧ lhs > kI64Max - rhs then none
  else if rhs < 0 ∧ lhs < kI64Min - rhs then none
  else some (lhs + rhs)

/-- `checked_mul` of two signed 64-bit values. -/
def checkedMulI64 (lhs rhs : Int) : Option Int :=
  if lhs = 0 ∨ rhs = 0 then some 0
  else if lhs > 0 then
    if rhs > 0 then if lhs > kI64Max.tdiv rhs then none else some (lhs * rhs)
    else if rhs < kI64Min.tdiv lhs then none else some (lhs * rhs)
  else if rhs > 0 then if lhs < kI64Min.tdiv rhs then none else some (lhs * rhs)
  else if lhs ≠ 0 ∧ rhs < kI64Max.tdiv lhs then none else some (lhs * rhs)

/-- The sum of signed values is given exactly when it fits. -/
theorem checkedAddI64_eq_some {lhs rhs sum : Int} (hlhs : kI64Min ≤ lhs ∧ lhs ≤ kI64Max) :
    checkedAddI64 lhs rhs = some sum ↔
      sum = lhs + rhs ∧ kI64Min ≤ lhs + rhs ∧ lhs + rhs ≤ kI64Max := by
  unfold checkedAddI64
  split
  · simp only [reduceCtorEq, false_iff]
    omega
  · split
    · simp only [reduceCtorEq, false_iff]
      omega
    · simp only [Option.some.injEq]
      omega

/-- The product by a positive value is given exactly when it fits. -/
theorem checkedMulI64_eq_some {lhs rhs product : Int} (hrhs : 0 < rhs) :
    checkedMulI64 lhs rhs = some product ↔
      product = lhs * rhs ∧ kI64Min ≤ lhs * rhs ∧ lhs * rhs ≤ kI64Max := by
  have hmax : kI64Max = 2 ^ 63 - 1 := rfl
  have hmin : kI64Min = -2 ^ 63 := rfl
  have hupper : lhs ≤ kI64Max.tdiv rhs ↔ lhs * rhs ≤ kI64Max := Lib.le_tdiv_iff (by omega) hrhs
  have hlower : kI64Min.tdiv rhs ≤ lhs ↔ kI64Min ≤ lhs * rhs := Lib.tdiv_le_iff (by omega) hrhs
  unfold checkedMulI64
  rcases Int.lt_trichotomy lhs 0 with hlhs | hlhs | hlhs
  · have hsign : lhs * rhs < 0 := Int.mul_neg_of_neg_of_pos hlhs hrhs
    rw [if_neg (by omega), if_neg (by omega), if_pos hrhs]
    split <;> simp only [reduceCtorEq, false_iff, Option.some.injEq] <;> omega
  · subst hlhs
    rw [if_pos (Or.inl rfl), Int.zero_mul, Option.some.injEq]
    omega
  · have hsign : 0 < lhs * rhs := Int.mul_pos hlhs hrhs
    rw [if_neg (by omega), if_pos hlhs, if_pos hrhs]
    split <;> simp only [reduceCtorEq, false_iff, Option.some.injEq] <;> omega

end CongestionObservatory
