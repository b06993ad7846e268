import CongestionObservatory.Core.Scalar
import CongestionObservatory.Lib.NumberOrder
import Mathlib.Algebra.Order.Group.Unbundled.Abs
import Mathlib.Data.Int.Order.Basic
import Mathlib.Data.Prod.Lex

/-!
# `CongestionObservatory.Core.Arithmetic`: computing with the values of records

The assessment compares, divides and averages `double` values. `Double` does it as the source
does: its comparisons and operations are those of IEEE 754 binary64, with rounding to nearest,
infinities and values that are no numbers. They are taken from the model that Lean gives its own
`Float` type.

Other results are about the exact numbers that the values stand for. So what computes with values
takes an `Arithmetic`, and there are two of them: `Double`, and `ℚ`, which reads a finite value
exactly and never rounds.
-/

set_option autoImplicit false

namespace CongestionObservatory

open Float.Model

/-! ### The operations on `double` values -/

namespace Double

/-- The sign, significand and exponent of a pattern. -/
def unpack (d : Double) : UnpackedFloat := UnpackedFloat.unpack Format.binary64 d.bits.toBitVec

/-- The pattern of a rounded value. -/
def pack (value : UnpackedFloat) : Double :=
  ⟨UInt64.ofBitVec (UnpackedFloat.pack Format.binary64 value)⟩

instance : LT Double := ⟨fun lhs rhs => lhs.unpack.lt rhs.unpack = true⟩

instance : LE Double := ⟨fun lhs rhs => lhs.unpack.le rhs.unpack = true⟩

instance : DecidableLT Double := fun _ _ => inferInstanceAs (Decidable (_ = true))

instance : DecidableLE Double := fun _ _ => inferInstanceAs (Decidable (_ = true))

instance : Add Double :=
  ⟨fun lhs rhs => pack (UnpackedFloat.add Format.binary64 lhs.unpack rhs.unpack)⟩

instance : Sub Double :=
  ⟨fun lhs rhs => pack (UnpackedFloat.sub Format.binary64 lhs.unpack rhs.unpack)⟩

instance : Mul Double :=
  ⟨fun lhs rhs => pack (UnpackedFloat.mul Format.binary64 lhs.unpack rhs.unpack)⟩

instance : Div Double :=
  ⟨fun lhs rhs => pack (UnpackedFloat.div Format.binary64 lhs.unpack rhs.unpack)⟩

/-- `std::abs`. -/
def abs (d : Double) : Double := pack d.unpack.abs

/-- `static_cast<double>` of a size. -/
def ofSize (n : Nat) : Double := pack (UnpackedFloat.ofNat Format.binary64 n)

/-- The literal `1e-12`, the guard against division by zero. -/
def tiny : Double := ⟨0x3D719799812DEA11⟩

/-! ### Their order -/

/-- Where a value stands: the infinities are the ends, and the values between them are ordered by
their exponents and then by their significands. -/
def rank : UnpackedFloat → Option (Int ×ₗ Int ×ₗ Int)
  | .notANumber => none
  | .infinity .negative => some (toLex (-2, toLex (0, 0)))
  | .finite .negative m e _ => some (toLex (-1, toLex (-e, -(m : Int))))
  | .zero _ => some (toLex (0, toLex (0, 0)))
  | .finite .positive m e _ => some (toLex (1, toLex (e, (m : Int))))
  | .infinity .positive => some (toLex (2, toLex (0, 0)))

theorem le_iff_rank (x y : UnpackedFloat) :
    x.le y = true ↔ ∃ a ∈ rank x, ∃ b ∈ rank y, a ≤ b := by
  -- The signs decide, unless both values are finite and of one sign.
  rcases x with (_ | _) | _ | _ | ⟨_ | _, m, e, _⟩ <;>
    rcases y with (_ | _) | _ | _ | ⟨_ | _, m', e', _⟩ <;>
    dsimp only [UnpackedFloat.le, UnpackedFloat.compare, rank] <;>
    simp [Prod.Lex.toLex_le_toLex, Ordering.isLE, compare, compareOfLessAndEq]
  · split_ifs <;> simp <;> omega
  · split_ifs <;> simp <;> omega

theorem lt_iff_rank (x y : UnpackedFloat) :
    x.lt y = true ↔ ∃ a ∈ rank x, ∃ b ∈ rank y, a < b := by
  rcases x with (_ | _) | _ | _ | ⟨_ | _, m, e, _⟩ <;>
    rcases y with (_ | _) | _ | _ | ⟨_ | _, m', e', _⟩ <;>
    dsimp only [UnpackedFloat.lt, UnpackedFloat.compare, rank] <;>
    simp [Prod.Lex.toLex_lt_toLex, compare, compareOfLessAndEq]
  · split_ifs <;> simp <;> omega
  · split_ifs <;> simp <;> omega

/-- The order of `double` values: one that is no number compares with nothing. -/
instance : Lib.NumberOrder Double where
  lt_iff_le_not_le a b := by
    show a.unpack.lt b.unpack = true ↔ a.unpack.le b.unpack = true ∧ ¬ b.unpack.le a.unpack = true
    rw [lt_iff_rank, le_iff_rank, le_iff_rank]
    cases rank a.unpack <;> cases rank b.unpack <;> simp
    exact fun h => le_of_lt h
  trans a b c hab hbc := by
    obtain ⟨x, hx, y, hy, hxy⟩ := (le_iff_rank _ _).mp hab
    obtain ⟨y', hy', z, hz, hyz⟩ := (le_iff_rank _ _).mp hbc
    rw [Option.mem_unique hy' hy] at hyz
    exact (le_iff_rank _ _).mpr ⟨x, hx, z, hz, hxy.trans hyz⟩
  refl_left a b h := by
    obtain ⟨x, hx, -⟩ := (le_iff_rank _ _).mp h
    exact (le_iff_rank _ _).mpr ⟨x, hx, x, hx, le_refl x⟩
  refl_right a b h := by
    obtain ⟨-, -, y, hy, -⟩ := (le_iff_rank _ _).mp h
    exact (le_iff_rank _ _).mpr ⟨y, hy, y, hy, le_refl y⟩
  total a b ha hb := by
    obtain ⟨x, hx, -⟩ := (le_iff_rank _ _).mp ha
    obtain ⟨y, hy, -⟩ := (le_iff_rank _ _).mp hb
    rcases le_total x y with h | h
    · exact Or.inl ((le_iff_rank _ _).mpr ⟨x, hx, y, hy, h⟩)
    · exact Or.inr ((le_iff_rank _ _).mpr ⟨y, hy, x, hx, h⟩)

/-- Two values of one positive rank are the same value. Only the sign of a zero is lost. -/
theorem eq_of_rank {x y : UnpackedFloat} (h : rank x = rank y)
    (hpositive : ∃ a ∈ rank x, toLex (0, toLex (0, 0)) < a) : x = y := by
  rcases x with (_ | _) | _ | _ | ⟨_ | _, m, e, _⟩ <;>
    rcases y with (_ | _) | _ | _ | ⟨_ | _, m', e', _⟩ <;>
    dsimp only [rank] at h hpositive <;> simp [Prod.Lex.toLex_lt_toLex] at h hpositive
  -- The ranks differ or are not positive, but for two infinities and two finite values.
  · rfl
  · obtain ⟨rfl, rfl⟩ := h
    rfl

/-- Values that compare as equal and positive are the same value. -/
theorem unpack_eq_of_le {a b : Double} (ha : (⟨0⟩ : Double) < a) (hab : a ≤ b) (hba : b ≤ a) :
    a.unpack = b.unpack := by
  obtain ⟨x, hx, y, hy, hxy⟩ := (le_iff_rank _ _).mp hab
  obtain ⟨y', hy', x', hx', hyx⟩ := (le_iff_rank _ _).mp hba
  obtain ⟨zero, hzero, x'', hx'', hlt⟩ := (lt_iff_rank _ _).mp ha
  have hleast : rank (⟨0⟩ : Double).unpack = some (toLex (0, toLex (0, 0))) := by decide +kernel
  rw [hleast, Option.mem_def, Option.some.injEq] at hzero
  rw [Option.mem_unique hy' hy, Option.mem_unique hx' hx] at hyx
  refine eq_of_rank ?_ ⟨x'', hx'', hzero ▸ hlt⟩
  rw [Option.mem_def.mp hx, Option.mem_def.mp hy, le_antisymm hxy hyx]

end Double

/-! ### Two arithmetics -/

/-- What the assessment needs to compute with the values of records. -/
class Arithmetic (α : Type) extends Lib.NumberOrder α, Zero α, Add α, Sub α, Mul α, Div α where
  ofDouble : Double → α
  abs : α → α
  ofSize : Nat → α
  tiny : α
  decidableLT : DecidableLT α
  decidableLE : DecidableLE α
  zero_le_zero : (0 : α) ≤ 0
  /-- Positive values that compare as equal have the same quotients. -/
  div_eq_div : ∀ {a a' b b' : α}, 0 < a → a ≤ a' → a' ≤ a → 0 < b → b ≤ b' → b' ≤ b →
    a / b = a' / b'

namespace Arithmetic

attribute [reducible, instance] decidableLT decidableLE

variable {α : Type} [Arithmetic α]

/-- `std::max`. -/
def max (a b : α) : α := if a < b then b else a

/-- `std::min`. -/
def min (a b : α) : α := if b < a then b else a

end Arithmetic

/-- The values as the source computes with them. -/
instance : Arithmetic Double where
  zero := Double.zero
  ofDouble := id
  abs := Double.abs
  ofSize := Double.ofSize
  tiny := Double.tiny
  decidableLT := inferInstance
  decidableLE := inferInstance
  zero_le_zero := by decide +kernel
  div_eq_div {a a' b b'} ha haa' ha'a hb hbb' hb'b := by
    show Double.pack (UnpackedFloat.div _ a.unpack b.unpack)
      = Double.pack (UnpackedFloat.div _ a'.unpack b'.unpack)
    rw [Double.unpack_eq_of_le ha haa' ha'a, Double.unpack_eq_of_le hb hbb' hb'b]

/-- The exact numbers that the values stand for. -/
instance : Arithmetic ℚ where
  toNumberOrder := Lib.NumberOrder.ofLinearOrder ℚ
  ofDouble := Double.toRat
  abs a := |a|
  ofSize n := n
  tiny := CongestionObservatory.tiny
  decidableLT := inferInstance
  decidableLE := inferInstance
  zero_le_zero := le_refl (0 : ℚ)
  div_eq_div _ haa' ha'a _ hbb' hb'b := by rw [le_antisymm haa' ha'a, le_antisymm hbb' hb'b]

end CongestionObservatory
