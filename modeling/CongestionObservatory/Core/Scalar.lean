import Mathlib.Algebra.Order.Ring.Rat
import CongestionObservatory.Core.Basic

/-!
# `CongestionObservatory.Core.Scalar`: the `double` fields

A `double` field is its 64-bit pattern, which is what the snapshot format stores. `toRat` is the
exact number that a finite pattern denotes. A pattern that is not finite denotes no number;
`isFinite` tells it apart, and `toRat` gives it the value zero. How the source computes with
`double` values is in `Core.Arithmetic`.
-/

set_option autoImplicit false

namespace CongestionObservatory

/-- A `double`, as its IEEE 754 bit pattern. -/
structure Double where
  bits : UInt64
  deriving DecidableEq, Repr

namespace Double

/-- The biased exponent. -/
def exponent (d : Double) : Nat := ((d.bits >>> 52) &&& 0x7ff).toNat

/-- The fraction bits. -/
def fraction (d : Double) : Nat := (d.bits &&& 0xfffffffffffff).toNat

/-- Whether the sign bit is set. -/
def negative (d : Double) : Bool := d.bits >>> 63 == 1

/-- `std::isfinite`. -/
def isFinite (d : Double) : Bool := d.exponent != 0x7ff

/-- The number `(-1)^s * m * 2^e`. -/
def scaled (s : Bool) (m : Nat) (e : Int) : ℚ :=
  let n : Int := if s then -(m : Int) else m
  if 0 ≤ e then mkRat (n * 2 ^ e.toNat) 1 else mkRat n (2 ^ (-e).toNat)

/-- The exact value of a finite pattern. -/
def toRat (d : Double) : ℚ :=
  if d.exponent == 0x7ff then 0
  else if d.exponent == 0 then scaled d.negative d.fraction (-1074)
  else scaled d.negative (2 ^ 52 + d.fraction) (d.exponent - 1075)

/-- The literal `0.0`. -/
def zero : Double := ⟨0⟩

end Double

/-- The literal `1e-12`, the guard against division by zero. -/
def tiny : ℚ := mkRat 1 1000000000000

end CongestionObservatory
