import CongestionObservatory.Core.Checked
import CongestionObservatory.Core.Integral
import CongestionObservatory.Proofs.Core.Number

/-!
# `CongestionObservatory.Proofs.Core.Integral`: the checked operations are exact

`checkedAdd_eq` and `checkedMul_eq` say of every integral type that the operation gives the
mathematical result when it is representable, nothing when it is not, and that no step on the way
faults. The differences of `checked_add` stay in range because they move towards zero. A quotient
is no larger than its dividend, and the only dividend whose negative is not representable, the
least value, is divided by positive values alone.

The functions of `Core.Checked` are these operations on `std::uint64_t` and `std::int64_t`.
-/

set_option autoImplicit false

namespace CongestionObservatory.Integral

open Lib

variable {T : IntegerType}

/-- The run does not fault and gives the number, if the type has it. -/
def Exact (run : Except Fault (Option T.Value)) (n : Int) : Prop :=
  ∃ out, run = .ok out ∧ (out.isSome = true ↔ T.InRange n) ∧ ∀ v ∈ out, v.val = n

theorem exact_of_eq {run : Except Fault (Option T.Value)} {n : Int} (h : run = .ok (T.fit n)) :
    Exact run n := by
  refine ⟨T.fit n, h, ?_, fun v hv => IntegerType.fit_eq_some.mp hv⟩
  rw [← Option.ne_none_iff_isSome, ne_eq, IntegerType.fit_eq_none, not_not]

/-- A test that finds every overflow makes the operation exact. -/
theorem guarded_eq {overflows : Bool} {n : Int} (h : overflows = false ↔ T.InRange n) :
    (if overflows then pure none else some <$> T.result n : Except Fault (Option T.Value))
      = .ok (T.fit n) := by
  by_cases hn : T.InRange n
  · rw [h.mpr hn]
    exact IntegerType.result_map_some hn
  · rw [Bool.eq_true_of_not_eq_false (mt h.mp hn), IntegerType.fit_eq_none.mpr hn]
    rfl

/-! ### Sums -/

/-- A difference that is computed for a comparison. -/
theorem sub_of_inRange {a b : T.Value} {f : T.Value → Bool} (h : T.InRange (a.val - b.val)) :
    (do
      let room ← IntegerType.sub a b
      pure (f room) : Except Fault Bool) = .ok (f ⟨a.val - b.val, h⟩) := by
  rw [IntegerType.sub, IntegerType.result_of_inRange h]
  rfl

/-- The tests are done without a fault and find every overflow. -/
theorem addOverflows_eq (lhs rhs : T.Value) : ∃ overflows,
    addOverflows lhs rhs = .ok overflows ∧
      (overflows = false ↔ T.InRange (lhs.val + rhs.val)) := by
  obtain ⟨hlmin, hlmax⟩ := lhs.property
  obtain ⟨hrmin, hrmax⟩ := rhs.property
  have hmin := T.min_nonpos
  have hmax := T.max_nonneg
  unfold addOverflows IntegerType.InRange
  by_cases hunsigned : T.isUnsigned = true
  · have hzero := IntegerType.isUnsigned_iff.mp hunsigned
    rw [if_pos hunsigned, sub_of_inRange (by simp [IntegerType.InRange]; omega)]
    refine ⟨_, rfl, ?_⟩
    show decide (rhs.val > T.max - lhs.val) = false ↔ _
    rw [decide_eq_false_iff_not]
    omega
  · rw [if_neg hunsigned]
    by_cases hpos : rhs.val > 0
    · rw [if_pos hpos, sub_of_inRange (by simp [IntegerType.InRange]; omega)]
      refine ⟨_, rfl, ?_⟩
      show decide (lhs.val > T.max - rhs.val) = false ↔ _
      rw [decide_eq_false_iff_not]
      omega
    · rw [if_neg hpos]
      by_cases hneg : rhs.val < 0
      · rw [if_pos hneg, sub_of_inRange (by simp [IntegerType.InRange]; omega)]
        refine ⟨_, rfl, ?_⟩
        show decide (lhs.val < T.min - rhs.val) = false ↔ _
        rw [decide_eq_false_iff_not]
        omega
      · rw [if_neg hneg]
        exact ⟨false, rfl, by simp; omega⟩

/-- **`checked_add` is exact**, over any integral type. -/
theorem checkedAdd_eq (lhs rhs : T.Value) :
    checkedAdd lhs rhs = .ok (T.fit (lhs.val + rhs.val)) := by
  obtain ⟨overflows, hrun, hoverflows⟩ := addOverflows_eq lhs rhs
  rw [checkedAdd, hrun]
  exact guarded_eq hoverflows

/-! ### Products -/

/-- A quotient that is computed for a comparison. -/
theorem div_of_inRange {a b : T.Value} {f : T.Value → Bool} (hb : b.val ≠ 0)
    (h : T.InRange (a.val.tdiv b.val)) :
    (do
      let bound ← IntegerType.div a b
      pure (f bound) : Except Fault Bool) = .ok (f ⟨a.val.tdiv b.val, h⟩) := by
  rw [IntegerType.div_of_inRange hb h]
  rfl

/-- A quotient of the greatest value is representable. -/
theorem maxValue_tdiv_inRange (b : T.Value) :
    T.InRange (T.maxValue.val.tdiv b.val) := by
  rw [IntegerType.val_maxValue]
  have hmax := T.max_nonneg
  obtain ⟨hlow, hhigh⟩ := natAbs_tdiv_le T.max b.val
  rcases T.unsigned_or_signed with hunsigned | hsigned
  · have hpos : 0 ≤ b.val := hunsigned ▸ b.property.1
    have hquotient := Int.tdiv_nonneg hmax hpos
    exact ⟨by omega, by omega⟩
  · exact ⟨by omega, by omega⟩

/-- A quotient of the least value is representable, if the divisor is positive. -/
theorem minValue_tdiv_inRange {b : T.Value} (hb : b.val > 0) :
    T.InRange (T.minValue.val.tdiv b.val) := by
  rw [IntegerType.val_minValue]
  have hmin := T.min_nonpos
  have hmax := T.max_nonneg
  obtain ⟨hlow, -⟩ := natAbs_tdiv_le T.min b.val
  have hquotient := Int.tdiv_nonneg (a := -T.min) (b := b.val) (by omega) (by omega)
  rw [Int.neg_tdiv] at hquotient
  exact ⟨by omega, by omega⟩

/-- The tests are done without a fault and find every overflow. -/
theorem mulOverflows_eq {lhs rhs : T.Value} (hlhs : lhs.val ≠ 0) (hrhs : rhs.val ≠ 0) :
    ∃ overflows, mulOverflows lhs rhs = .ok overflows ∧
      (overflows = false ↔ T.InRange (lhs.val * rhs.val)) := by
  obtain ⟨hlmin, hlmax⟩ := lhs.property
  obtain ⟨hrmin, hrmax⟩ := rhs.property
  have hmin := T.min_nonpos
  have hmax := T.max_nonneg
  unfold mulOverflows IntegerType.InRange
  by_cases hunsigned : T.isUnsigned = true
  · have hzero := IntegerType.isUnsigned_iff.mp hunsigned
    rw [if_pos hunsigned, div_of_inRange hrhs (maxValue_tdiv_inRange rhs)]
    refine ⟨_, rfl, ?_⟩
    show decide (lhs.val > T.max.tdiv rhs.val) = false ↔ _
    have hbound : lhs.val ≤ T.max.tdiv rhs.val ↔ lhs.val * rhs.val ≤ T.max :=
      le_tdiv_iff hmax (by omega)
    have hproduct : 0 ≤ lhs.val * rhs.val := Int.mul_nonneg (by omega) (by omega)
    rw [decide_eq_false_iff_not]
    omega
  · rw [if_neg hunsigned]
    -- The signs of the operands tell the sign of the product, and so the bound that counts.
    by_cases hlpos : lhs.val > 0
    · rw [if_pos hlpos]
      by_cases hrpos : rhs.val > 0
      · rw [if_pos hrpos, div_of_inRange hrhs (maxValue_tdiv_inRange rhs)]
        refine ⟨_, rfl, ?_⟩
        show decide (lhs.val > T.max.tdiv rhs.val) = false ↔ _
        have hbound : lhs.val ≤ T.max.tdiv rhs.val ↔ lhs.val * rhs.val ≤ T.max :=
          le_tdiv_iff hmax hrpos
        have hproduct := Int.mul_pos hlpos hrpos
        rw [decide_eq_false_iff_not]
        omega
      · rw [if_neg hrpos, div_of_inRange hlhs (minValue_tdiv_inRange hlpos)]
        refine ⟨_, rfl, ?_⟩
        show decide (rhs.val < T.min.tdiv lhs.val) = false ↔ _
        have hbound : T.min.tdiv lhs.val ≤ rhs.val ↔ T.min ≤ rhs.val * lhs.val :=
          tdiv_le_iff hmin hlpos
        have hproduct := Int.mul_neg_of_pos_of_neg hlpos (b := rhs.val) (by omega)
        rw [Int.mul_comm rhs.val] at hbound
        rw [decide_eq_false_iff_not]
        omega
    · rw [if_neg hlpos]
      by_cases hrpos : rhs.val > 0
      · rw [if_pos hrpos, div_of_inRange hrhs (minValue_tdiv_inRange hrpos)]
        refine ⟨_, rfl, ?_⟩
        show decide (lhs.val < T.min.tdiv rhs.val) = false ↔ _
        have hbound : T.min.tdiv rhs.val ≤ lhs.val ↔ T.min ≤ lhs.val * rhs.val :=
          tdiv_le_iff hmin hrpos
        have hproduct := Int.mul_neg_of_neg_of_pos (a := lhs.val) (by omega) hrpos
        rw [decide_eq_false_iff_not]
        omega
      · rw [if_neg hrpos, if_pos hlhs, div_of_inRange hlhs (maxValue_tdiv_inRange lhs)]
        refine ⟨_, rfl, ?_⟩
        show decide (rhs.val < T.max.tdiv lhs.val) = false ↔ _
        have hbound : T.max.tdiv lhs.val ≤ rhs.val ↔ rhs.val * lhs.val ≤ T.max :=
          tdiv_neg_le_iff hmax (by omega)
        have hproduct := Int.mul_pos_of_neg_of_neg (a := lhs.val) (b := rhs.val) (by omega)
          (by omega)
        rw [Int.mul_comm rhs.val] at hbound
        rw [decide_eq_false_iff_not]
        omega

/-- **`checked_mul` is exact**, over any integral type. -/
theorem checkedMul_eq (lhs rhs : T.Value) :
    checkedMul lhs rhs = .ok (T.fit (lhs.val * rhs.val)) := by
  rw [checkedMul]
  split
  next hzero =>
    have hproduct : lhs.val * rhs.val = T.zero.val := by
      rw [IntegerType.val_zero, Int.mul_eq_zero]
      exact hzero
    rw [hproduct, IntegerType.fit_val]
    rfl
  next hnonzero =>
    obtain ⟨hlhs, hrhs⟩ := not_or.mp hnonzero
    obtain ⟨overflows, hrun, hoverflows⟩ := mulOverflows_eq hlhs hrhs
    rw [hrun]
    exact guarded_eq hoverflows

/-! ### The two types -/

/-- **Checked arithmetic is exact.** No step of it faults, and what it gives is the mathematical
result. -/
theorem checked_arithmetic_exact :
    (∀ lhs rhs : kUInt64.Value, Exact (checkedAdd lhs rhs) (lhs.val + rhs.val) ∧
      Exact (checkedMul lhs rhs) (lhs.val * rhs.val)) ∧
    (∀ lhs rhs : kInt64.Value, Exact (checkedAdd lhs rhs) (lhs.val + rhs.val) ∧
      Exact (checkedMul lhs rhs) (lhs.val * rhs.val)) ∧
    ∀ (lhs rhs bound : kUInt64.Value) (what : Text), ∃ result,
      checkedAddWithin lhs rhs bound what = .ok result ∧
        ∀ sum, result = .ok sum ↔ sum.val = lhs.val + rhs.val ∧
          kUInt64.InRange (lhs.val + rhs.val) ∧ lhs.val + rhs.val ≤ bound.val := by
  refine ⟨fun lhs rhs => ⟨exact_of_eq (checkedAdd_eq lhs rhs), exact_of_eq (checkedMul_eq lhs rhs)⟩,
    fun lhs rhs => ⟨exact_of_eq (checkedAdd_eq lhs rhs), exact_of_eq (checkedMul_eq lhs rhs)⟩, ?_⟩
  intro lhs rhs bound what
  rw [checkedAddWithin, checkedAdd_eq]
  by_cases hrange : kUInt64.InRange (lhs.val + rhs.val)
  · rw [IntegerType.fit_of_inRange hrange]
    by_cases hbound : lhs.val + rhs.val > bound.val
    · refine ⟨_, if_pos hbound, fun sum => ⟨fun h => ?_, fun h => ?_⟩⟩
      · cases h
      · omega
    · refine ⟨_, if_neg hbound, fun sum => ⟨fun h => ?_, fun h => ?_⟩⟩
      · cases h
        exact ⟨rfl, hrange, Int.not_lt.mp hbound⟩
      · exact congrArg Except.ok (Subtype.ext h.1.symm)
  · rw [IntegerType.fit_eq_none.mpr hrange]
    refine ⟨_, rfl, fun sum => ⟨fun h => ?_, fun h => ?_⟩⟩
    · cases h
    · exact absurd h.2.1 hrange

/-! ### The operations of `Core.Checked` -/

/-- A number that is given exactly when it is representable. -/
theorem bind_fit {given : Option Int} {n : Int}
    (h : ∀ result, given = some result ↔ result = n ∧ T.InRange n) :
    given.bind T.fit = T.fit n := by
  cases hgiven : given with
  | none =>
      rw [IntegerType.fit_eq_none.mpr]
      · rfl
      · intro hrange
        have hsome := (h n).mpr ⟨rfl, hrange⟩
        rw [hgiven] at hsome
        cases hsome
  | some result =>
      rw [((h result).mp hgiven).1]
      rfl

theorem checkedAdd_eq_nat (lhs rhs : kUInt64.Value) :
    checkedAdd lhs rhs = .ok (((CongestionObservatory.checkedAdd lhs.val.toNat rhs.val.toNat).map
      Int.ofNat).bind kUInt64.fit) := by
  obtain ⟨hlhs, hlmax⟩ := lhs.property
  obtain ⟨hrhs, -⟩ := rhs.property
  have hmin : kUInt64.min = 0 := rfl
  have hmax : kUInt64.max = 2 ^ 64 - 1 := rfl
  have hvalues : kU64Values = 2 ^ 64 := rfl
  rw [checkedAdd_eq, bind_fit]
  intro result
  rw [Option.map_eq_some_iff, IntegerType.InRange]
  constructor
  · rintro ⟨sum, hsum, rfl⟩
    obtain ⟨rfl, hlt⟩ := (checkedAdd_eq_some (by omega)).mp hsum
    rw [Int.ofNat_eq_natCast]
    omega
  · rintro ⟨rfl, hrange⟩
    refine ⟨_, (checkedAdd_eq_some (by omega)).mpr ⟨rfl, by omega⟩, ?_⟩
    rw [Int.ofNat_eq_natCast]
    omega

theorem checkedAdd_eq_i64 (lhs rhs : kInt64.Value) :
    checkedAdd lhs rhs = .ok ((checkedAddI64 lhs.val rhs.val).bind kInt64.fit) := by
  rw [checkedAdd_eq, bind_fit]
  exact fun result => checkedAddI64_eq_some lhs.property

theorem checkedMul_eq_i64 {lhs rhs : kInt64.Value} (hrhs : 0 < rhs.val) :
    checkedMul lhs rhs = .ok ((checkedMulI64 lhs.val rhs.val).bind kInt64.fit) := by
  rw [checkedMul_eq, bind_fit]
  exact fun result => checkedMulI64_eq_some hrhs

end CongestionObservatory.Integral
